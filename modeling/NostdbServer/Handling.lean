import NostdbServer.Exchange

/-!
# Handling — what a step adds to a reading of the log

A reading takes some events of a log and passes over the others. One that
passes over replies, ends and begins (`Unseen`) sees of a step what
handling the request shows it, and of a frame without a request nothing
(`filterMap_course`).
-/

namespace NostdbServer

variable {E : Engine}

section

variable (env : Env E) (version : UInt64)

/-- The request the state's loop handles next, if it reads one. -/
def State.nextRequest : State E → Option Request
  | .main _ outstanding world =>
      match receive env .main world with
      | (.ok body, _) => (Message.decodeRequest env.host body outstanding).toOption
      | _ => none
  | .region inner _ world =>
      match receive env .region world with
      | (.ok body, _) => (Message.decodeRequest env.host body inner.outstanding).toOption
      | _ => none
  | .ended _ _ _ => none

/-- The world once the state's loop has handled a decoded request. -/
def State.handled (request : Request) : State E → World E
  | .main slot _ world => (dispatch env version request slot world).2.2
  | .region inner _ world => (inner.handle env version request world).world
  | .ended _ _ world => world

/-! ## Readings that pass over replies -/

/-- The reading passes over replies, ends and begins. -/
structure Unseen {α : Type} (read : Event E → Option α) : Prop where
  sent : ∀ value result, read (.sent value result) = none
  ends : ∀ e : Event E, e.isEnd = true → read e = none
  began : ∀ database, read (.began database) = none

variable {env} {α : Type} {read : Event E → Option α}

/-- One event more that is passed over. -/
theorem filterMap_logging {e : Event E} (h : read e = none) (world : World E) :
    (world.logging [e]).log.filterMap read = world.log.filterMap read := by
  rw [World.log_logging, List.filterMap_append, List.filterMap_cons_none h, List.filterMap_nil,
    List.append_nil]

namespace Unseen

theorem send (hread : Unseen read) (world : World E) (value : Value) :
    (NostdbServer.send env world value).2.log.filterMap read = world.log.filterMap read :=
  filterMap_logging (hread.sent value _) _

theorem closes (hread : Unseen read) {w w' : World E} (h : Closes w w') :
    w'.log.filterMap read = w.log.filterMap read := by
  obtain ⟨⟨events, hlog, hends⟩, -⟩ := h
  have hnone : events.filterMap read = [] :=
    List.filterMap_eq_nil_iff.mpr (fun e he => hread.ends e (hends e he))
  rw [hlog, List.filterMap_append, hnone, List.append_nil]

/-- What an exchange shows, it shows before its send. -/
theorem settle (hread : Unseen read) (exchange : Exchange E)
    (hsent : ∀ world, Closes world (exchange.sent world).world)
    (hlost : ∀ world, Closes world (exchange.lost world).world) :
    ((Course.reply exchange).settle env).world.log.filterMap read
      = exchange.world.log.filterMap read := by
  have hsend : (NostdbServer.send env exchange.world exchange.value).2.log.filterMap read
      = exchange.world.log.filterMap read := hread.send _ _
  exact Exchange.settle env (P := fun state => state.world.log.filterMap read
      = exchange.world.log.filterMap read) exchange
    ((hread.closes (hsent _)).trans hsend) ((hread.closes (hlost _)).trans hsend)

theorem reply (hread : Unseen read) (value : Value) (region : Region E)
    (outstanding : Finset String) (world : World E) :
    ((region.reply value outstanding world).settle env).world.log.filterMap read
      = world.log.filterMap read :=
  hread.settle _ (fun _ => .refl _ _)
    (fun _ => closes_rollback region .transportFailed outstanding _)

theorem unchecked (hread : Unseen read) (value : Value) (world : World E)
    {next : World E → State E} (hnext : ∀ world, Closes world (next world).world) :
    ((Course.reply (.unchecked value world next)).settle env).world.log.filterMap read
      = world.log.filterMap read :=
  hread.settle _ hnext hnext

theorem ofRegion (hread : Unseen read) (outstanding : Finset String) (turn : RegionTurn E) :
    (State.ofRegion outstanding turn).world.log.filterMap read
      = turn.world.log.filterMap read := by
  cases turn with
  | next region world => rfl
  | finish how slot world =>
    cases how with
    | clientClosed => exact hread.closes (closes_endedClosed .clientClosed slot world)
    | _ => rfl

theorem begin (hread : Unseen read) (begin : Request) (slot : Slot E.Database)
    (outstanding : Finset String) (world : World E) :
    ((beginCourse version begin slot outstanding world).settle env).world.log.filterMap read
      = world.log.filterMap read := by
  unfold beginCourse
  split
  · exact hread.unchecked _ _ (fun _ => .refl _ _)
  · split
    · exact hread.unchecked _ _ (fun _ => .refl _ _)
    · exact (hread.reply _ _ outstanding _).trans (filterMap_logging (hread.began _) _)

/-- **A course shows what handling its request does**, and without one
nothing. -/
theorem course (hread : Unseen read) {state : State E} {place : Place}
    {result : Except FrameError String} {world : World E}
    (hreceived : state.received env = some (place, result, world)) (heard : Heard) :
    ((state.course env version heard world).settle env).world.log.filterMap read
      = match heard with
        | .request request =>
            ((state.withWorld (world.logging [.decoded place request])).handled env version
              request).log.filterMap read
        | _ => world.log.filterMap read := by
  cases state with
  | ended how slot before => cases hreceived
  | region region outstanding before =>
    have hplace : Place.region = place := by
      simpa [State.received] using congrArg (Option.map Prod.fst) hreceived
    subst hplace
    simp only [State.course]
    cases heard with
    | failed error =>
      cases error with
      | closed => exact hread.closes (closes_rollback region .clientClosed outstanding world)
      | _ => exact hread.closes (closes_rollback region .transportFailed outstanding world)
    | refused refusal => exact hread.reply _ region outstanding _
    | request request =>
      simp only [Region.course]
      rw [← Region.handle_eq_settle, hread.ofRegion]
      rfl
  | main slot outstanding before =>
    have hplace : Place.main = place := by
      simpa [State.received] using congrArg (Option.map Prod.fst) hreceived
    subst hplace
    simp only [State.course]
    cases heard with
    | failed error =>
      cases error with
      | closed => exact hread.closes (closes_endedClosed _ _ _)
      | tooLarge declared maximum => exact hread.unchecked _ _ (fun _ => .refl _ _)
      | _ => rfl
    | refused refusal => exact hread.unchecked _ _ (fun _ => .refl _ _)
    | request request =>
      simp only [mainCourse, mainCourseOf, State.withWorld, State.handled]
      generalize dispatch env version request slot _ = out
      obtain ⟨reply, slot', world'⟩ := out
      cases reply with
      | send value => exact hread.settle _ (fun _ => .refl _ _) (fun _ => .refl _ _)
      | transaction => exact hread.begin version request slot' _ world'
      | shutdown value => exact hread.unchecked _ _ (fun _ => closes_endedClosed _ slot' _)

/-- The same of a step that read something. -/
theorem step (hread : Unseen read) (hframe : ∀ place result, read (.read place result) = none)
    {state : State E} {place : Place} {result : Except FrameError String} {world : World E}
    (hreceived : state.received env = some (place, result, world)) :
    (NostdbServer.step env version state).world.log.filterMap read
      = match heardRead env state.outstanding result with
        | .request request =>
            ((state.withWorld (world.logging [.decoded place request])).handled env version
              request).log.filterMap read
        | _ => state.world.log.filterMap read := by
  have hlog : world.log.filterMap read = state.world.log.filterMap read := by
    rw [State.received_log hreceived]
    exact filterMap_logging (hframe place result) state.world
  rw [step_eq_settle env version hreceived, hread.course version hreceived, hlog]

/-- The handshake shows nothing to a reading that passes over frames. -/
theorem start (hread : Unseen read) (hframe : ∀ place result, read (.read place result) = none)
    (stream : Stream) : (NostdbServer.start env stream).2.world.log.filterMap read = [] := by
  have hreceive : (receive env .opening ({ stream } : World E)).2.log.filterMap read = [] :=
    filterMap_logging (hframe .opening _) { stream }
  have hhandshake : (handshake env ({ stream } : World E)).2.log.filterMap read = [] := by
    rcases handshake_world env { stream } with h | ⟨value, h⟩ <;> rw [h]
    · exact hreceive
    · rw [hread.send, hreceive]
  rcases start_cases env stream with ⟨how, h⟩ | h <;> rw [h] <;> exact hhandshake

end Unseen

variable (env)

/-- What the state's loop handles next is what it hears. -/
theorem nextRequest_of_heard {state : State E} {place : Place} {result : Except FrameError String}
    {world : World E} {request : Request}
    (hread : state.received env = some (place, result, world))
    (hheard : heardRead env state.outstanding result = .request request) :
    state.nextRequest env = some request := by
  cases result with
  | error error => cases hheard
  | ok body =>
    have hdecode : Message.decodeRequest env.host body state.outstanding = .ok request := by
      simp only [heardRead, heardBody] at hheard
      split at hheard
      · cases hheard
      · rename_i hdecode
        cases hheard
        exact hdecode
    cases state with
    | ended how slot before => cases hread
    | main slot outstanding before =>
      have hread : receive env .main before = (.ok body, world) := by
        simpa [State.received] using congrArg (Option.map Prod.snd) hread
      simp only [State.outstanding] at hdecode
      simp only [State.nextRequest, hread, hdecode]
      rfl
    | region region outstanding before =>
      have hread : receive env .region before = (.ok body, world) := by
        simpa [State.received] using congrArg (Option.map Prod.snd) hread
      simp only [State.outstanding] at hdecode
      simp only [State.nextRequest, hread, hdecode]
      rfl

/-- What the state's loop handles next was read whole, and the read runs
nothing. -/
theorem heard_of_nextRequest {state : State E} {request : Request}
    (h : state.nextRequest env = some request) : ∃ place body world,
      state.received env = some (place, .ok body, world) ∧
        heardRead env state.outstanding (.ok body) = .request request ∧
        world.runs = state.world.runs := by
  have hheard (outstanding : Finset String) (body : String)
      (h : (Message.decodeRequest env.host body outstanding).toOption = some request) :
      heardRead env outstanding (.ok body) = .request request := by
    simp only [heardRead, heardBody]
    cases hdecode : Message.decodeRequest env.host body outstanding with
    | error refusal =>
      rw [hdecode] at h
      cases h
    | ok decoded =>
      rw [hdecode] at h
      cases h
      rfl
  have hruns (place : Place) (world : World E) :
      (receive env place world).2.runs = world.runs := rfl
  cases state with
  | main slot outstanding before =>
    simp only [State.nextRequest] at h
    split at h
    · rename_i body world hread
      refine ⟨.main, body, world, ?_, hheard outstanding body h, ?_⟩
      · rw [State.received, hread]
      · have := hruns .main before
        rwa [hread] at this
    · cases h
  | region region outstanding before =>
    simp only [State.nextRequest] at h
    split at h
    · rename_i body world hread
      refine ⟨.region, body, world, ?_, hheard region.outstanding body h, ?_⟩
      · rw [State.received, hread]
      · have := hruns .region before
        rwa [hread] at this
    · cases h
  | ended how slot world => cases h

/-- A step whose course replies puts that reply out, and no other. -/
theorem replies_settled {state : State E} {place : Place} {result : Except FrameError String}
    {world : World E} (hread : state.received env = some (place, result, world))
    {exchange : Exchange E} (hcourse : state.course env version
      (heardRead env state.outstanding result) world = .reply exchange) :
    replies (NostdbServer.step env version state).world.log
      = replies state.world.log ++ [exchange.value] := by
  have hquiet {w w' : World E} (h : Quiet w w') : replies w'.log = replies w.log := by
    obtain ⟨⟨events, hlog, hevents⟩, -⟩ := h
    have hnone : events.filterMap Event.reply = [] :=
      List.filterMap_eq_nil_iff.mpr (fun e he => (hevents e he).2)
    rw [replies, hlog, List.filterMap_append, hnone, List.append_nil]
    rfl
  have hsound := State.course_sound env version hread
  rw [hcourse] at hsound
  obtain ⟨-, hbefore, hnext⟩ := hsound
  have hafter : Closes (NostdbServer.send env exchange.world exchange.value).2
      (NostdbServer.step env version state).world := by
    rw [step_eq_settle env version hread, hcourse]
    exact Exchange.settle env (P := fun state => Closes _ state.world) exchange (hnext _).1
      (hnext _).2
  have hworld : replies exchange.world.log = replies state.world.log := by
    rw [hquiet ((quiet_opening place _ world).trans hbefore.quiet), State.received_log hread,
      replies, List.filterMap_append]
    exact List.append_nil _
  rw [hquiet hafter.quiet, log_send, replies, List.filterMap_append, ← hworld]
  rfl

/-- A step that reads a request settles its course, and puts out the
reply the course makes. -/
theorem step_of_nextRequest {state : State E} {request : Request}
    (h : state.nextRequest env = some request) : ∃ world : World E,
      world.runs = state.world.runs ∧
      NostdbServer.step env version state
        = (state.course env version (.request request) world).settle env ∧
      ∀ exchange, state.course env version (.request request) world = .reply exchange →
        replies (NostdbServer.step env version state).world.log
          = replies state.world.log ++ [exchange.value] := by
  obtain ⟨place, body, world, hread, hheard, hruns⟩ := heard_of_nextRequest env h
  refine ⟨world, hruns, ?_, fun exchange hcourse => ?_⟩
  · rw [← hheard]
    exact step_eq_settle env version hread
  · rw [← hheard] at hcourse
    exact replies_settled env version hread hcourse

end

end NostdbServer
