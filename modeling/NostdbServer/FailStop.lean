import NostdbServer.Handshake

/-!
# FailStop — what follows a write that fails

Where a loop looks at the result of its `send`, a failed write ends the
connection: behind it a transaction is rolled back at most, and what went
out is a front part of whole frames. Where a loop drops the result
(`State.discards`) it reads on over a broken stream
(`fail_stop`, `reads_on_after_failed_write`).
-/

namespace NostdbServer

open Response NostdbServer.Frame

variable {E : Engine}

/-- A reply whose write failed. -/
def Event.breaks : Event E → Bool
  | .sent _ (.error (.io _)) => true
  | _ => false

/-- An event that carries out a frame or answers it. -/
def Event.isServed (e : Event E) : Bool := !e.isRead && !e.isEnd

/-- Behind a failed write nothing is carried out and nothing answered. -/
def FailStop (log : List (Event E)) : Prop :=
  ∀ front e back, log = front ++ e :: back → e.breaks = true → ∀ e' ∈ back, e'.isServed = false

/-- What a connection wrote is a front part of whole frames, and whole
frames where no write failed. -/
def FrameFront (env : Env E) (initial : List UInt8) (world : World E) : Prop :=
  ∃ (bodies : List String) (unsent : List UInt8),
    (∀ body ∈ bodies, Fits body env.limits.maxFrameBytes) ∧
    world.stream.written ++ unsent = initial ++ bodies.flatMap encode ∧
    ((∀ e ∈ world.log, e.breaks = false) → unsent = [])

/-! ## Where the result of a send is dropped -/

/-- The frame's reply is sent with its result dropped, and a loop reads
on. -/
def State.discards (heard : Heard) : State E → Bool
  | .main slot _ _ =>
      match heard with
      | .failed _ => false
      | .refused _ => true
      | .request asked =>
          match asked.operation, slot.resolve asked.sessionId with
          | .begin, .ok session => !(E.begin session.database).isOk
          | _, _ => false
  | .region _ _ _ =>
      match heard with
      | .request asked =>
          match asked.operation with
          | .commit => true
          | .rollback => true
          | .query => asked.statement.isNone
          | _ => false
      | _ => false
  | .ended _ _ _ => false

def State.isEnded : State E → Bool
  | .ended _ _ _ => true
  | _ => false

section

variable (env : Env E) (version : UInt64)

/-- A failed send makes no difference where it is dropped, and ends the
connection elsewhere. -/
def Exchange.Lost (exchange : Exchange E) (discards : Bool) : Prop :=
  (∀ world, (exchange.lost world).isEnded = !discards) ∧
    (discards = true → exchange.lost = exchange.sent)

theorem beginCourse_lost {begin : Request} {slot : Slot E.Database} {outstanding : Finset String}
    {world : World E} {session : Session E.Database} {exchange : Exchange E}
    (hresolve : slot.resolve begin.sessionId = .ok session)
    (hcourse : beginCourse version begin slot outstanding world = .reply exchange) :
    exchange.Lost (!(E.begin session.database).isOk) := by
  unfold beginCourse at hcourse
  simp only [hresolve] at hcourse
  split at hcourse
  · rename_i error hbegin
    cases hcourse
    rw [hbegin]
    exact ⟨fun _ => rfl, fun _ => rfl⟩
  · rename_i transaction hbegin
    cases hcourse
    rw [hbegin]
    exact ⟨fun _ => rfl, fun h => by cases h⟩

/-- Only a `begin` whose session is there is handed on to the region. -/
theorem dispatch_begin_iff (request : Request) (slot : Slot E.Database) (world : World E) :
    (∃ out, dispatch env version request slot world = (.transaction, out)) ↔
      request.operation = .begin ∧ ∃ session, slot.resolve request.sessionId = .ok session := by
  unfold dispatch
  cases request.operation with
  | begin =>
    cases slot.resolve request.sessionId with
    | error refusal => simp
    | ok session => simp
  | _ => simp

/-- A lost reply of the main loop to a request it decoded. -/
theorem mainCourseOf_lost {request : Request} {slot : Slot E.Database}
    {outstanding : Finset String} {before world : World E} {exchange : Exchange E}
    (hcourse : mainCourseOf env version request slot outstanding world = .reply exchange) :
    exchange.Lost ((State.main slot outstanding before).discards (.request request)) := by
  have hbegin := dispatch_begin_iff env version request slot world
  simp only [mainCourseOf] at hcourse
  by_cases h : request.operation = .begin ∧
      ∃ session, slot.resolve request.sessionId = .ok session
  · obtain ⟨⟨slot', world''⟩, hout⟩ := hbegin.mpr h
    obtain ⟨hop, session, hresolve⟩ := h
    obtain ⟨-, rfl, rfl, -⟩ := dispatch_transaction env version hout
    rw [hout] at hcourse
    have hlost := beginCourse_lost version hresolve hcourse
    simpa only [State.discards, hop, hresolve] using hlost
  · have hdiscards :
        (State.main slot outstanding before).discards (.request request) = false := by
      simp only [State.discards]
      split
      · rename_i hop hresolve
        exact absurd ⟨hop, _, hresolve⟩ h
      · rfl
    rw [hdiscards]
    cases hout : dispatch env version request slot world with
    | mk reply out =>
      rw [hout] at hcourse hbegin
      cases reply with
      | transaction => exact absurd (hbegin.mp ⟨out, rfl⟩) h
      | send value =>
        cases hcourse
        exact ⟨fun _ => rfl, fun h => by cases h⟩
      | shutdown value =>
        cases hcourse
        exact ⟨fun _ => rfl, fun h => by cases h⟩

/-- A lost reply of a region to a request it decoded. -/
theorem courseOf_lost {request : Request} {region : Region E} {outstanding : Finset String}
    {before world : World E} {exchange : Exchange E}
    (hcourse : region.courseOf env version request outstanding world = .reply exchange) :
    exchange.Lost ((State.region region outstanding before).discards (.request request)) := by
  simp only [Region.courseOf] at hcourse
  simp only [State.discards]
  split at hcourse
  · rename_i hop
    cases hcourse
    rw [hop]
    exact ⟨fun _ => rfl, fun _ => rfl⟩
  · rename_i hop
    cases hcourse
    rw [hop]
    exact ⟨fun _ => rfl, fun _ => rfl⟩
  · rename_i hop
    split at hcourse
    · rename_i hnone
      cases hcourse
      simp only [hop, hnone]
      exact ⟨fun _ => rfl, fun _ => rfl⟩
    · rename_i statement hsome
      cases hcourse
      simp only [hop, hsome]
      exact ⟨fun _ => rfl, fun h => by cases h⟩
  all_goals
    rename_i hop
    cases hcourse
    rw [hop]
    exact ⟨fun _ => rfl, fun h => by cases h⟩

/-- **A lost reply ends the connection unless its result is dropped.** -/
theorem State.course_lost {state : State E} {heard : Heard} {world : World E}
    {exchange : Exchange E} (hcourse : state.course env version heard world = .reply exchange) :
    exchange.Lost (state.discards heard) := by
  cases state with
  | main slot outstanding before =>
    simp only [State.course, mainCourse] at hcourse
    split at hcourse
    · cases hcourse
    · cases hcourse
      exact ⟨fun _ => rfl, fun h => by cases h⟩
    · cases hcourse
    · cases hcourse
      exact ⟨fun _ => rfl, fun _ => rfl⟩
    · exact mainCourseOf_lost env version hcourse
  | region region outstanding before =>
    simp only [State.course, Region.course] at hcourse
    split at hcourse
    · cases hcourse
    · cases hcourse
    · cases hcourse
      exact ⟨fun _ => rfl, fun h => by cases h⟩
    · exact courseOf_lost env version hcourse
  | ended how slot before => cases hcourse

/-- The frame that is read next is one whose reply's result is dropped. -/
def State.nextDiscards (state : State E) : Bool :=
  match state.received env with
  | none => false
  | some (_, result, _) => state.discards (heardRead env state.outstanding result)

/-- The write of the reply to the frame that is read next fails. -/
def State.nextFails (state : State E) : Prop :=
  ∃ place result world exchange kind, state.received env = some (place, result, world) ∧
    state.course env version (heardRead env state.outstanding result) world = .reply exchange ∧
    (send env exchange.world exchange.value).1 = .error (.io kind)

/-- Whether the write of that reply fails, run on the state. -/
def State.checkFails (state : State E) : Bool :=
  match state.received env with
  | none => false
  | some (_, result, world) =>
    match state.course env version (heardRead env state.outstanding result) world with
    | .reply exchange =>
      match (send env exchange.world exchange.value).1 with
      | .error (.io _) => true
      | _ => false
    | _ => false

theorem checkFails_iff (state : State E) :
    state.checkFails env version = true ↔ state.nextFails env version := by
  constructor
  · intro h
    unfold State.checkFails at h
    split at h
    · cases h
    · next place result world hread =>
      split at h
      · next exchange hcourse =>
        split at h
        · next kind hsend => exact ⟨place, result, world, exchange, kind, hread, hcourse, hsend⟩
        · cases h
      · cases h
  · rintro ⟨place, result, world, exchange, kind, hread, hcourse, hsend⟩
    simp only [State.checkFails, hread, hcourse, hsend]

instance (state : State E) : Decidable (state.nextFails env version) :=
  decidable_of_iff _ (checkFails_iff env version state)

/-- **A failed write is the end exactly where its result is looked at.** -/
theorem step_isEnded_of_fails {state : State E} (h : state.nextFails env version) :
    (step env version state).isEnded = !state.nextDiscards env := by
  obtain ⟨place, result, world, exchange, kind, hread, hcourse, hfails⟩ := h
  have hlost := (State.course_lost env version hcourse).1 (send env exchange.world exchange.value).2
  rw [step_eq_settle env version hread, hcourse]
  simp only [State.nextDiscards, hread, ← hlost, Course.settle]
  rw [show send env exchange.world exchange.value
    = (.error (.io kind), (send env exchange.world exchange.value).2) from Prod.ext hfails rfl]

/-! ## What was written -/

variable {env} {initial : List UInt8}

theorem FrameFront.quiet {w w' : World E} (h : FrameFront env initial w) (hquiet : Quiet w w') :
    FrameFront env initial w' := by
  obtain ⟨bodies, unsent, hfits, hwritten, hwhole⟩ := h
  obtain ⟨⟨events, hlog, -⟩, hstream⟩ := hquiet
  refine ⟨bodies, unsent, hfits, hstream ▸ hwritten, fun hclean => hwhole (fun e he => ?_)⟩
  exact hclean e (by rw [hlog]; exact List.mem_append_left _ he)

/-- A send behind whole frames. -/
theorem FrameFront.send {world : World E} (h : FrameFront env initial world)
    (hclean : ∀ e ∈ world.log, e.breaks = false) (value : Value) :
    FrameFront env initial (send env world value).2 := by
  obtain ⟨bodies, unsent, hfits, hwritten, hwhole⟩ := h
  rw [hwhole hclean, List.append_nil] at hwritten
  let body := env.host.toString value
  by_cases hbody : Fits body env.limits.maxFrameBytes
  · obtain ⟨sent, unsent', hsent, hencode⟩ :=
      writeFrame_front world.stream body env.limits.maxFrameBytes
    refine ⟨bodies ++ [body], unsent', ?_, ?_, fun hclean' => ?_⟩
    · intro other hmem
      rcases List.mem_append.mp hmem with hmem | hmem
      · exact hfits other hmem
      · rw [List.mem_singleton.mp hmem]
        exact hbody
    · show (writeFrame world.stream body env.limits.maxFrameBytes).2.written ++ unsent' = _
      rw [hsent, hwritten, List.append_assoc, hencode, List.flatMap_append, List.flatMap_singleton,
        List.append_assoc]
    · -- nothing failed, so the whole frame went out
      cases hresult : writeFrame world.stream body env.limits.maxFrameBytes with
      | mk result stream =>
        rcases result with error | ⟨⟩
        · obtain ⟨kind, rfl⟩ := writeFrame_fits_error hbody hresult
          have hmem : Event.sent value (.error (.io kind)) ∈
              (NostdbServer.send env world value).2.log := by
            simp only [NostdbServer.send, body, hresult]
            simp
          cases hclean' _ hmem
        · have hout := (writeFrame_ok hresult).2
          rw [hresult, hout] at hsent
          have hsent' : encode body = sent := List.append_cancel_left hsent
          rw [← hsent'] at hencode
          exact List.append_right_eq_self.mp hencode
  · obtain ⟨declared, hrefused⟩ := writeFrame_not_fits (s := world.stream) hbody
    refine ⟨bodies, [], hfits, ?_, fun _ => rfl⟩
    show (writeFrame world.stream body env.limits.maxFrameBytes).2.written ++ [] = _
    rw [hrefused, List.append_nil]
    exact hwritten

theorem FrameFront.receive {world : World E} (h : FrameFront env initial world) (place : Place) :
    FrameFront env initial (receive env place world).2 := by
  obtain ⟨bodies, unsent, hfits, hwritten, hwhole⟩ := h
  have hsame : (NostdbServer.receive env place world).2.stream.written = world.stream.written :=
    (readFrame_output world.stream env.limits.maxFrameBytes).2.2
  refine ⟨bodies, unsent, hfits, by rw [hsame]; exact hwritten,
    fun hclean => hwhole (fun e he => ?_)⟩
  exact hclean e (List.mem_append_left _ he)

end

/-! ## Whole runs -/

/-- Only the one event broke, and only ends stand behind it. -/
theorem failStop_of_clean {clean after : List (Event E)} {e : Event E}
    (hclean : ∀ e ∈ clean, e.breaks = false) (hafter : ∀ e ∈ after, e.isEnd = true) :
    FailStop (clean ++ e :: after) := by
  have hserved (e' : Event E) (he' : e' ∈ after) : e'.isServed = false := by
    simp [Event.isServed, hafter e' he']
  intro front e₁ back hsplit hbreaks e' he'
  rw [List.append_eq_append_iff] at hsplit
  rcases hsplit with ⟨rest, -, hback⟩ | ⟨rest, hfront, hback⟩
  · cases rest with
    | nil =>
      cases hback
      exact hserved e' he'
    | cons e₂ rest =>
      injection hback with _ hback
      refine hserved e' ?_
      rw [hback]
      exact List.mem_append_right _ (List.mem_cons_of_mem _ he')
  · cases rest with
    | nil =>
      cases hback
      exact hserved e' he'
    | cons e₂ rest =>
      injection hback with heq _
      have hmem : e₁ ∈ clean := by
        rw [hfront, heq]
        simp
      rw [hclean e₁ hmem] at hbreaks
      cases hbreaks

theorem failStop_of_no_break {log : List (Event E)} (hclean : ∀ e ∈ log, e.breaks = false) :
    FailStop log := by
  intro front e back hsplit hbreaks
  rw [hclean e (by rw [hsplit]; simp)] at hbreaks
  cases hbreaks

/-- Fail-stop, as every step keeps it. -/
structure Stops (env : Env E) (initial : List UInt8) (state : State E) : Prop where
  stop : FailStop state.world.log
  ended : (∃ e ∈ state.world.log, e.breaks = true) → state.isEnded = true
  front : FrameFront env initial state.world

theorem clean_of_quiet {w w' : World E} (hquiet : Quiet w w')
    (hclean : ∀ e ∈ w.log, e.breaks = false) : ∀ e ∈ w'.log, e.breaks = false := by
  obtain ⟨⟨events, hlog, hreply⟩, -⟩ := hquiet
  intro e he
  rw [hlog, List.mem_append] at he
  rcases he with he | he
  · exact hclean e he
  · have hnone := (hreply e he).2
    cases e with
    | sent value result => cases hnone
    | _ => rfl

theorem stops_of_clean {env : Env E} {initial : List UInt8} {state : State E}
    (hclean : ∀ e ∈ state.world.log, e.breaks = false)
    (hfront : FrameFront env initial state.world) : Stops env initial state where
  stop := failStop_of_no_break hclean
  ended := by
    rintro ⟨e, he, hbreaks⟩
    rw [hclean e he] at hbreaks
    cases hbreaks
  front := hfront

/-- What stands behind a frame's read. -/
theorem State.received_front {env : Env E} {initial : List UInt8} {state : State E} {place : Place}
    {result : Except FrameError String} {world : World E}
    (h : state.received env = some (place, result, world))
    (hfront : FrameFront env initial state.world) : FrameFront env initial world := by
  cases state with
  | main slot outstanding before =>
    cases h
    exact hfront.receive .main
  | region region outstanding before =>
    cases h
    exact hfront.receive .region
  | ended how slot before => cases h

/-- A reply whose send did not break leaves nothing broken. -/
theorem clean_send {env : Env E} {world : World E} {value : Value}
    (h : ∀ e ∈ world.log, e.breaks = false)
    (hsent : (Event.sent value (send env world value).1 : Event E).breaks = false) :
    ∀ e ∈ (send env world value).2.log, e.breaks = false := by
  intro e he
  rw [log_send, List.mem_append] at he
  rcases he with he | he
  · exact h e he
  · rw [List.mem_singleton.mp he]
    exact hsent

/-- A step whose send broke is one whose write fails. -/
theorem nextFails_of_breaks {env : Env E} {version : UInt64} {state : State E} {place : Place}
    {result : Except FrameError String} {world : World E} {exchange : Exchange E}
    (hread : state.received env = some (place, result, world))
    (hcourse : state.course env version (heardRead env state.outstanding result) world
      = .reply exchange)
    (hbreaks : (Event.sent exchange.value
      (send env exchange.world exchange.value).1 : Event E).breaks = true) :
    state.nextFails env version := by
  refine ⟨place, result, world, exchange, ?_⟩
  cases hout : (send env exchange.world exchange.value).1 with
  | ok =>
    rw [hout] at hbreaks
    cases hbreaks
  | error error =>
    rw [hout] at hbreaks
    cases error with
    | io kind => exact ⟨kind, hread, hcourse, rfl⟩
    | _ => cases hbreaks

/-- The step lemma: a step whose write does not fail unnoticed. -/
theorem stops_step (env : Env E) (version : UInt64) {initial : List UInt8} {state : State E}
    (hnoticed : state.nextDiscards env = true → ¬ state.nextFails env version)
    (h : Stops env initial state) : Stops env initial (step env version state) := by
  cases hread : state.received env with
  | none =>
    rw [step_of_received_none _ hread]
    exact h
  | some read =>
    obtain ⟨place, result, world⟩ := read
    -- a state that reads has not ended, so nothing has failed yet
    have hlive : state.isEnded = false := by
      cases state with
      | ended how slot before => cases hread
      | _ => rfl
    have hbefore : ∀ e ∈ state.world.log, e.breaks = false := by
      intro e he
      by_contra hbreaks
      rw [h.ended ⟨e, he, Bool.not_eq_false _ ▸ hbreaks⟩] at hlive
      cases hlive
    have hclean : ∀ e ∈ world.log, e.breaks = false := by
      intro e he
      rw [State.received_log hread, List.mem_append] at he
      rcases he with he | he
      · exact hbefore e he
      · rw [List.mem_singleton.mp he]
        rfl
    have hfront := State.received_front hread h.front
    rcases step_sends env version hread with hcloses | ⟨exchange, hcourse, hquiet, -, hcloses⟩
    · exact stops_of_clean (clean_of_quiet hcloses.quiet hclean) (hfront.quiet hcloses.quiet)
    · have hunbroken := clean_of_quiet hquiet hclean
      have hwritten := ((hfront.quiet hquiet).send hunbroken exchange.value).quiet hcloses.quiet
      cases hbreaks : (Event.sent exchange.value
          (send env exchange.world exchange.value).1 : Event E).breaks with
      | false =>
        exact stops_of_clean (clean_of_quiet hcloses.quiet (clean_send hunbroken hbreaks)) hwritten
      | true =>
        have hfails := nextFails_of_breaks hread hcourse hbreaks
        obtain ⟨⟨after, hafter, hends⟩, -⟩ := hcloses
        refine ⟨?_, fun _ => ?_, hwritten⟩
        · rw [hafter, log_send, List.append_assoc]
          exact failStop_of_clean hunbroken hends
        · rw [step_isEnded_of_fails env version hfails]
          cases hdiscards : state.nextDiscards env with
          | false => rfl
          | true => exact absurd hfails (hnoticed hdiscards)

theorem stops_start (env : Env E) (stream : Stream) :
    Stops env stream.written (start env stream).2 := by
  have hbegin : FrameFront env stream.written ({ stream } : World E) :=
    ⟨[], [], by simp, by simp, fun _ => rfl⟩
  have hread := hbegin.receive .opening
  have hfront : FrameFront env stream.written (handshake env { stream }).2 := by
    rcases handshake_world env { stream } with h | ⟨value, h⟩ <;> rw [h]
    · exact hread
    · refine hread.send (fun e he => ?_) value
      rw [List.mem_singleton.mp he]
      rfl
  have hopening (result : Except FrameError String) :
      ∀ e ∈ [(.read .opening result : Event E)], e.breaks = false := by
    intro e he
    rw [List.mem_singleton.mp he]
    rfl
  have hstop : FailStop (handshake env { stream }).2.log := by
    rcases handshake_world env { stream } with h | ⟨value, h⟩ <;> rw [h]
    · exact failStop_of_no_break (hopening _)
    · exact failStop_of_clean (hopening _) (by simp)
  cases hhandshake : (handshake env { stream }).1 with
  | error how =>
    have hstart : (start env stream).2 = .ended how Slot.new (handshake env { stream }).2 := by
      simp only [start]
      rw [show handshake env { stream } = (.error how, (handshake env { stream }).2) from
        Prod.ext hhandshake rfl]
    rw [hstart]
    exact ⟨hstop, fun _ => rfl, hfront⟩
  | ok version =>
    have hclean : ∀ e ∈ (handshake env { stream }).2.log, e.breaks = false := by
      rcases handshake_cases env stream with
        ⟨-, how, -, herror, -⟩ | ⟨-, body, sent, -, hlog, hresult⟩
      · rw [hhandshake] at herror
        cases herror
      · rw [hhandshake] at hresult
        rw [hlog]
        intro e he
        rcases List.mem_pair.mp he with rfl | rfl
        · rfl
        · rcases sent with error | ⟨⟩
          · cases hresult
          · rfl
    rcases start_cases env stream with ⟨how, h⟩ | h <;> rw [h] <;>
      exact stops_of_clean hclean hfront

/-- **Fail-stop**: a connection none of whose failed writes went unnoticed
carries nothing out behind one and answers nothing, and wrote a front part
of whole frames. A failed write ends the connection exactly where its
result is looked at. -/
theorem fail_stop (env : Env E) (stream : Stream) :
    (∀ n, (∀ k < n, (connection env stream k).nextDiscards env = true →
        ¬ (connection env stream k).nextFails env (start env stream).1) →
      FailStop (connection env stream n).world.log ∧
        FrameFront env stream.written (connection env stream n).world) ∧
    (∀ n, (connection env stream n).nextFails env (start env stream).1 →
      ((connection env stream (n + 1)).isEnded = true ↔
        (connection env stream n).nextDiscards env = false)) := by
  constructor
  · intro n hnoticed
    have hstops : Stops env stream.written (connection env stream n) := by
      induction n with
      | zero => exact stops_start env stream
      | succ n ih =>
        rw [connection_succ]
        exact stops_step env _ (hnoticed n (Nat.lt_succ_self n))
          (ih (fun k hk => hnoticed k (Nat.lt_succ_of_lt hk)))
    exact ⟨hstops.stop, hstops.front⟩
  · intro n hfails
    rw [connection_succ, step_isEnded_of_fails env _ hfails, Bool.not_eq_true']

/-! ## A commit whose reply is lost -/

/-- A client that commits a transaction and pipelines a query. -/
def commitsAndQueries : List Value :=
  [sayHello, ask "r1" "open_session" [("database", .string "work")], ask "r2" "begin" [],
    ask "r3" "commit" [], ask "r4" "query" [("statement", .string "CREATE")]]

/-- A daemon that reads them, under the default limits. -/
def lossyEnv : Env Engine.journal := Env.conversing Limits.default workCatalog commitsAndQueries

/-- The same client, over a stream on which one write fails behind `taken`
others. A frame takes two. -/
def lossyStream (taken : Nat) : Stream :=
  { Stream.saying commitsAndQueries with
    outgoing := List.replicate taken (.took 4096) ++ [.error .other] }

/-- The reply to `open_session` is lost, and that is the end. -/
theorem fail_stop_open :
    FailStop (connection lossyEnv (lossyStream 2) 1).world.log ∧
      FrameFront lossyEnv [] (connection lossyEnv (lossyStream 2) 1).world ∧
      (connection lossyEnv (lossyStream 2) 1).isEnded = true := by
  have hlooked : (connection lossyEnv (lossyStream 2) 0).nextDiscards lossyEnv = false := by
    decide +kernel
  have hfails : (connection lossyEnv (lossyStream 2) 0).nextFails lossyEnv
      (start lossyEnv (lossyStream 2)).1 := by
    decide +kernel
  obtain ⟨hstop, hends⟩ := fail_stop lossyEnv (lossyStream 2)
  have hone := hstop 1 (fun k hk hdiscards => by
    obtain rfl : k = 0 := Nat.lt_one_iff.mp hk
    rw [hlooked] at hdiscards
    cases hdiscards)
  exact ⟨hone.1, hone.2, (hends 0 hfails).mpr hlooked⟩

/-- The reply to `commit` is lost, and the query behind it runs and is
answered. -/
theorem reads_on_after_failed_write :
    ¬ ∀ (env : Env Engine.journal) stream n, FailStop (connection env stream n).world.log := by
  intro h
  let log := (connection lossyEnv (lossyStream 6) 4).world.log
  have hlog : ((log[15]?).map Event.breaks, (log.drop 16).any Event.isServed)
      = (some true, true) := by
    decide +kernel
  obtain ⟨hbroken, hserved⟩ := Prod.mk.inj hlog
  obtain ⟨e, he, hbreaks⟩ := Option.map_eq_some_iff.mp hbroken
  obtain ⟨e', hmem, hserved⟩ := List.any_eq_true.mp hserved
  obtain ⟨hlength, hget⟩ := List.getElem?_eq_some_iff.mp he
  have hsplit : log = log.take 15 ++ e :: log.drop 16 := by
    rw [← hget, List.getElem_cons_drop, List.take_append_drop]
  rw [h lossyEnv (lossyStream 6) 4 _ e _ hsplit hbreaks e' hmem] at hserved
  cases hserved

end NostdbServer
