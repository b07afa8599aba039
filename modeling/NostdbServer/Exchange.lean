import NostdbServer.Machine

/-!
# Exchange — a step as one reply and what hangs on it

Every step of the machine reads once and replies at most once. `course`
says what: the reply, the world it is sent in, and the state behind it
where the send succeeded and where it failed. Whether the two differ is
whether the source looks at the result of its `send`.

`step_eq_settle` connects it to the machine, and `Answers` lists the ways
a reply is built, each with what was heard. What is claimed of every
reply, of every request or of every failed send is then a case analysis
of `course`.
-/

namespace NostdbServer

open Response

variable {E : Engine}

/-- What a frame was read as. -/
inductive Heard where
  | failed (error : FrameError)
  | refused (refusal : Refusal)
  | request (request : Request)
  deriving DecidableEq

/-- A reply, the world it is sent in, and the state behind it. -/
structure Exchange (E : Engine) where
  value : Value
  world : World E
  sent : World E → State E
  lost : World E → State E

/-- What a frame comes to: a state, or a reply and what hangs on it. -/
inductive Course (E : Engine) where
  | silent (state : State E)
  | reply (exchange : Exchange E)

/-- An exchange whose `send` is not looked at. -/
def Exchange.unchecked (value : Value) (world : World E) (next : World E → State E) :
    Exchange E := ⟨value, world, next, next⟩

section

variable (env : Env E) (version : UInt64)

/-- The set of outstanding identifiers the state's loop decodes with. -/
def State.outstanding : State E → Finset String
  | .main _ outstanding _ => outstanding
  | .region inner _ _ => inner.outstanding
  | .ended _ _ _ => ∅

/-- What the decoder makes of a body. -/
def heardBody (outstanding : Finset String) (body : String) : Heard :=
  match Message.decodeRequest env.host body outstanding with
  | .error refusal => .refused refusal
  | .ok request => .request request

/-- What the decoder makes of what was read. -/
def heardRead (outstanding : Finset String) : Except FrameError String → Heard
  | .error error => .failed error
  | .ok body => heardBody env outstanding body

/-- The send is carried out. -/
def Course.settle : Course E → State E
  | .silent state => state
  | .reply exchange =>
      match send env exchange.world exchange.value with
      | (.ok (), world) => exchange.sent world
      | (.error _, world) => exchange.lost world

theorem log_send (world : World E) (value : Value) :
    (send env world value).2.log = world.log ++ [.sent value (send env world value).1] := rfl

/-! ## The region -/

/-- The transaction is rolled back and the connection fails. -/
def Region.fail (region : Region E) (outstanding : Finset String) (world : World E) : State E :=
  State.ofRegion outstanding (region.rollback .transportFailed world)

/-- A reply whose failed send fails the region. -/
def Region.reply (value : Value) (region : Region E) (outstanding : Finset String)
    (world : World E) : Course E :=
  .reply ⟨value, world, .region region outstanding, region.fail outstanding⟩

/-- The reply at the end of a turn. -/
def Region.settled (request : Request) (value : Value) (region : Region E)
    (outstanding : Finset String) (world : World E) : Course E :=
  { region with outstanding := region.outstanding.erase request.requestId }.reply value
    outstanding world

/-- The reply to `commit`. -/
def commitReply (request : Request) : Except String UInt64 → Value
  | .ok generation => okResponse version request (Value.json [("generation", Value.u64 generation)])
  | .error error => errorResponse version request error

/-- One decoded request inside the region. -/
def Region.courseOf (request : Request) (region : Region E) (outstanding : Finset String)
    (world : World E) : Course E :=
  let region := { region with outstanding := insert request.requestId region.outstanding }
  match request.operation with
  | .commit =>
      let out := E.commit region.transaction region.session.database
      .reply (.unchecked (commitReply version request out.1)
        (world.logging [.committed request region.session.database out.1 out.2])
        (.main (region.slotWith out.2) outstanding))
  | .rollback =>
      let database := E.rollback region.transaction region.session.database
      .reply (.unchecked (okResponse version request (Value.json [("rolled_back", .bool true)]))
        (world.logging [.rolledBack database]) (.main (region.slotWith database) outstanding))
  | .query =>
      match request.statement with
      | none =>
          .reply (.unchecked (errorResponse version request "a query carries a statement") world
            (.region region outstanding))
      | some statement =>
          let out := region.run env version request statement world
          { region with transaction := out.2.1 }.settled request out.1 outstanding out.2.2
  | .begin =>
      region.settled request (errorResponse version request
        "this session already has an open transaction; commit or roll back first")
        outstanding world
  | .openSession | .closeSession | .shutdown =>
      region.settled request (errorResponse version request
        "finish the open transaction before changing the session or stopping the daemon")
        outstanding world
  | .status =>
      region.settled request (okResponse version request (Value.json
        [("in_transaction", .bool true), ("base_generation", Value.u64 region.base)]))
        outstanding world

def Region.course (region : Region E) (outstanding : Finset String) (world : World E) :
    Heard → Course E
  | .failed .closed => .silent (State.ofRegion outstanding (region.rollback .clientClosed world))
  | .failed _ => .silent (region.fail outstanding world)
  | .refused refusal => region.reply (refusalResponse version none refusal) outstanding world
  | .request request =>
      region.courseOf env version request outstanding (world.logging [.decoded .region request])

/-! ## The main loop -/

/-- What a dispatched `begin` comes to. -/
def beginCourse (begin : Request) (slot : Slot E.Database) (outstanding : Finset String)
    (world : World E) : Course E :=
  match slot.resolve begin.sessionId with
  | .error refusal =>
      .reply (.unchecked (refusalResponse version (some begin.requestId) refusal) world
        (.main slot outstanding))
  | .ok session =>
      match E.begin session.database with
      | .error error =>
          .reply (.unchecked (errorResponse version begin error) world (.main slot outstanding))
      | .ok transaction =>
          let base := E.baseGeneration transaction
          let region : Region E := ⟨session, slot.next, transaction, base, ∅⟩
          region.reply (okResponse version begin (Value.json
            [("base_generation", Value.u64 base)])) outstanding
            (world.logging [.began session.database])

/-- The session ends with the connection. -/
def endedClosed (how : Ended) (slot : Slot E.Database) (world : World E) : State E :=
  .ended how slot.close.2 (world.logging [.closed])

/-- One decoded request of the main loop, dispatched. -/
def mainCourseOf (request : Request) (slot : Slot E.Database) (outstanding : Finset String)
    (world : World E) : Course E :=
  let outstanding := (insert request.requestId outstanding).erase request.requestId
  match dispatch env version request slot world with
  | (.send value, slot, world) =>
      .reply ⟨value, world, .main slot outstanding, .ended .transportFailed slot⟩
  | (.transaction, slot, world) => beginCourse version request slot outstanding world
  | (.shutdown value, slot, world) =>
      .reply (.unchecked value world (endedClosed .shutdownRequested slot))

def mainCourse (slot : Slot E.Database) (outstanding : Finset String) (world : World E) :
    Heard → Course E
  | .failed .closed => .silent (endedClosed .clientClosed slot world)
  | .failed (.tooLarge declared maximum) =>
      .reply (.unchecked (frameTooLargeResponse version declared maximum) world
        (.ended .transportFailed slot))
  | .failed _ => .silent (.ended .transportFailed slot world)
  | .refused refusal =>
      .reply (.unchecked (refusalResponse version none refusal) world (.main slot outstanding))
  | .request request =>
      mainCourseOf env version request slot outstanding (world.logging [.decoded .main request])

/-- What the state's next frame comes to, where it was read as `heard` and
`world` stands behind the read. -/
def State.course (heard : Heard) (world : World E) : State E → Course E
  | .main slot outstanding _ => mainCourse env version slot outstanding world heard
  | .region inner outstanding _ => inner.course env version outstanding world heard
  | .ended how slot before => .silent (.ended how slot before)

/-! ## The machine's step -/

theorem Region.settle_reply (value : Value) (region : Region E) (outstanding : Finset String)
    (world : World E) :
    State.ofRegion outstanding
        (match send env world value with
        | (.error _, world) => region.rollback .transportFailed world
        | (.ok (), world) => .next region world)
      = (region.reply value outstanding world).settle env := by
  simp only [Region.reply, Course.settle]
  rcases send env world value with ⟨error | ⟨⟩, world'⟩ <;> rfl

/-- What holds behind a send that was carried out and behind one that was
lost holds of the state the exchange settles in. -/
theorem Exchange.settle {P : State E → Prop} (exchange : Exchange E)
    (hsent : P (exchange.sent (send env exchange.world exchange.value).2))
    (hlost : P (exchange.lost (send env exchange.world exchange.value).2)) :
    P ((Course.reply exchange).settle env) := by
  simp only [Course.settle]
  generalize send env exchange.world exchange.value = out at hsent hlost
  rcases out with ⟨error | ⟨⟩, world⟩
  · exact hlost
  · exact hsent

theorem settle_unchecked (value : Value) (world : World E) (next : World E → State E) :
    (Course.reply (.unchecked value world next)).settle env = next (send env world value).2 := by
  simp only [Exchange.unchecked, Course.settle]
  rcases send env world value with ⟨error | ⟨⟩, world'⟩ <;> rfl

theorem Region.handle_eq_settle (request : Request) (region : Region E)
    (outstanding : Finset String) (world : World E) :
    State.ofRegion outstanding (region.handle env version request world)
      = (region.courseOf env version request outstanding world).settle env := by
  simp only [Region.handle, Region.courseOf]
  cases request.operation with
  | commit => exact (settle_unchecked env _ _ _).symm
  | rollback => exact (settle_unchecked env _ _ _).symm
  | query =>
    simp only [Region.query]
    cases request.statement with
    | none => exact (settle_unchecked env _ _ _).symm
    | some statement => exact Region.settle_reply env _ _ outstanding _
  | _ => exact Region.settle_reply env _ _ outstanding _

theorem regionTurn_eq_settle {region : Region E} {outstanding : Finset String}
    {before world : World E} {result : Except FrameError String}
    (hread : receive env .region before = (result, world)) :
    State.ofRegion outstanding (regionTurn env version region before)
      = (region.course env version outstanding world
          (heardRead env region.outstanding result)).settle env := by
  simp only [regionTurn, hread]
  cases result with
  | error error => cases error <;> rfl
  | ok body =>
    simp only [heardRead, heardBody]
    cases Message.decodeRequest env.host body region.outstanding with
    | error refusal => exact Region.settle_reply env _ region outstanding world
    | ok request => exact region.handle_eq_settle env version request outstanding _

theorem enterRegion_eq_settle (begin : Request) (slot : Slot E.Database)
    (outstanding : Finset String) (world : World E) :
    State.ofRegion outstanding (enterRegion env version slot begin world)
      = (beginCourse version begin slot outstanding world).settle env := by
  simp only [enterRegion, beginCourse]
  cases slot.resolve begin.sessionId with
  | error refusal => exact (settle_unchecked env _ _ _).symm
  | ok session =>
    simp only
    cases E.begin session.database with
    | error error => exact (settle_unchecked env _ _ _).symm
    | ok transaction => exact Region.settle_reply env _ _ outstanding _

theorem mainStep_eq_settle {slot : Slot E.Database} {outstanding : Finset String}
    {before world : World E} {result : Except FrameError String}
    (hread : receive env .main before = (result, world)) :
    step env version (.main slot outstanding before)
      = (mainCourse env version slot outstanding world
          (heardRead env outstanding result)).settle env := by
  simp only [step, mainTurn, hread]
  cases result with
  | error error =>
    cases error with
    | tooLarge declared maximum => exact (settle_unchecked env _ _ _).symm
    | _ => rfl
  | ok body =>
    simp only [heardRead, heardBody]
    cases Message.decodeRequest env.host body outstanding with
    | error refusal => exact (settle_unchecked env _ _ _).symm
    | ok request =>
      simp only [mainCourse, mainCourseOf]
      generalize dispatch env version request slot (world.logging [.decoded .main request]) = out
      obtain ⟨reply, slot', world'⟩ := out
      cases reply with
      | send value =>
        simp only [Course.settle]
        rcases send env world' value with ⟨error | ⟨⟩, world''⟩ <;> rfl
      | transaction => exact enterRegion_eq_settle env version request slot' _ world'
      | shutdown value =>
        simp only [settle_unchecked]
        rfl

/-- **A step settles its course.** -/
theorem step_eq_settle {state : State E} {place : Place} {result : Except FrameError String}
    {world : World E} (hread : state.received env = some (place, result, world)) :
    step env version state
      = (state.course env version (heardRead env state.outstanding result) world).settle env := by
  cases state with
  | main slot outstanding before =>
    exact mainStep_eq_settle env version
      (by simpa [State.received] using congrArg (Option.map Prod.snd) hread)
  | region region outstanding before =>
    exact regionTurn_eq_settle env version
      (by simpa [State.received] using congrArg (Option.map Prod.snd) hread)
  | ended how slot before => cases hread

/-! ## What a step logs -/

/-- The request a frame was decoded to. -/
def Heard.asked : Heard → Option Request
  | .request asked => some asked
  | _ => none

/-- The request an event was done for. -/
def Event.request : Event E → Option Request
  | .decoded _ request => some request
  | .ran _ request _ _ _ => some request
  | .committed request _ _ _ => some request
  | _ => none

/-- An event that is no read, no decoding and no reply, and done for no
other request. -/
def Event.About (asked : Option Request) (e : Event E) : Prop :=
  e.isRead = false ∧ e.reply = none ∧ (∀ place request, e ≠ .decoded place request) ∧
    ∀ request, e.request = some request → asked = some request

/-- An event that ends a transaction or a session. -/
def Event.isEnd : Event E → Bool
  | .closed => true
  | .rolledBack _ => true
  | _ => false

theorem Event.about_of_isEnd (asked : Option Request) {e : Event E} (h : e.isEnd = true) :
    e.About asked := by
  cases e with
  | closed => simp [Event.About, Event.isRead, Event.reply, Event.request]
  | rolledBack after => simp [Event.About, Event.isRead, Event.reply, Event.request]
  | _ => cases h

/-- The log has more events of a kind, on the same stream. -/
def Adds (P : Event E → Prop) (w w' : World E) : Prop :=
  (∃ events, w'.log = w.log ++ events ∧ ∀ e ∈ events, P e) ∧ w'.stream = w.stream

namespace Adds

variable {P Q : Event E → Prop} {w w' w'' : World E}

theorem refl (P : Event E → Prop) (w : World E) : Adds P w w :=
  ⟨⟨[], (List.append_nil _).symm, by simp⟩, rfl⟩

theorem trans (h : Adds P w w') (h' : Adds P w' w'') : Adds P w w'' := by
  obtain ⟨⟨events, hlog, hall⟩, hstream⟩ := h
  obtain ⟨⟨events', hlog', hall'⟩, hstream'⟩ := h'
  refine ⟨⟨events ++ events', by rw [hlog', hlog, List.append_assoc], ?_⟩, hstream'.trans hstream⟩
  intro e he
  rcases List.mem_append.mp he with he | he
  · exact hall e he
  · exact hall' e he

theorem of_log (events : List (Event E)) (hlog : w'.log = w.log ++ events)
    (hstream : w'.stream = w.stream) (hall : ∀ e ∈ events, P e) : Adds P w w' :=
  ⟨⟨events, hlog, hall⟩, hstream⟩

theorem mono (h : Adds P w w') (himp : ∀ e, P e → Q e) : Adds Q w w' := by
  obtain ⟨⟨events, hlog, hall⟩, hstream⟩ := h
  exact ⟨⟨events, hlog, fun e he => himp e (hall e he)⟩, hstream⟩

end Adds

/-- What was done is done for the request, if there is one. -/
abbrev Acts (asked : Option Request) : World E → World E → Prop := Adds (Event.About asked)

/-- Nothing was read and nothing replied. -/
abbrev Quiet : World E → World E → Prop := Adds (fun e => e.isRead = false ∧ e.reply = none)

/-- A transaction or a session was ended, if anything was done. -/
abbrev Closes : World E → World E → Prop := Adds (fun e => e.isEnd = true)

theorem Acts.quiet {asked : Option Request} {w w' : World E} (h : Acts asked w w') : Quiet w w' :=
  Adds.mono h (fun _ habout => ⟨habout.1, habout.2.1⟩)

theorem Closes.acts (asked : Option Request) {w w' : World E} (h : Closes w w') :
    Acts asked w w' := Adds.mono h (fun _ => Event.about_of_isEnd asked)

theorem Closes.quiet {w w' : World E} (h : Closes w w') : Quiet w w' := (h.acts none).quiet

theorem acts_runOne (request : Request) (statement : String) (session : Session E.Database)
    (world : World E) :
    Acts (some request) world (runOne env version request statement session world).2.2 := by
  unfold runOne
  split
  · exact .refl _ _
  · split
    · exact .refl _ _
    · simp only
      split
      · exact .of_log _ rfl rfl (by simp [Event.About, Event.isRead, Event.reply, Event.request])
      · split
        · split <;>
            exact .of_log _ rfl rfl
              (by simp [Event.About, Event.isRead, Event.reply, Event.request])
        · exact .of_log _ rfl rfl (by simp [Event.About, Event.isRead, Event.reply, Event.request])

theorem acts_openSession (request : Request) (slot : Slot E.Database) (world : World E) :
    Acts (some request) world (openSession env version request slot world).2.2 := by
  unfold openSession
  split
  · exact .refl _ _
  · simp only
    split
    · exact .of_log [.loaded _] rfl rfl
        (by simp [Event.About, Event.isRead, Event.reply, Event.request])
    · rename_i name _ _ catalog _
      generalize slot.open (env.openAt world.opens) name catalog = out
      obtain ⟨result, slot', paths⟩ := out
      refine .of_log ([.loaded (env.catalogAt world.loads)] ++ paths.map .opened
        ++ attachedBy slot' result) (by simp) rfl ?_
      intro e he
      simp only [List.mem_append, List.mem_singleton, List.mem_map] at he
      rcases he with (rfl | ⟨path, -, rfl⟩) | he
      · simp [Event.About, Event.isRead, Event.reply, Event.request]
      · simp [Event.About, Event.isRead, Event.reply, Event.request]
      · cases result with
        | error error => cases he
        | ok id =>
          obtain ⟨session, -, rfl⟩ := List.mem_map.mp he
          simp [Event.About, Event.isRead, Event.reply, Event.request]

theorem acts_dispatch (request : Request) (slot : Slot E.Database) (world : World E) :
    Acts (some request) world (dispatch env version request slot world).2.2 := by
  unfold dispatch
  split
  · exact acts_openSession env version request slot world
  · exact .of_log [.closed] rfl rfl
      (by simp [Event.About, Event.isRead, Event.reply, Event.request])
  · exact .refl _ _
  · exact .refl _ _
  · simp only [queryOnce]
    split
    · exact .refl _ _
    · split
      · exact .refl _ _
      · exact acts_runOne env version request _ _ world
  · split <;> exact .refl _ _
  · exact .refl _ _
  · exact .refl _ _

theorem acts_run (request : Request) (statement : String) (region : Region E) (world : World E) :
    Acts (some request) world (region.run env version request statement world).2.2 := by
  unfold Region.run
  split
  · exact .refl _ _
  · split <;>
      exact .of_log _ rfl rfl (by simp [Event.About, Event.isRead, Event.reply, Event.request])

theorem closes_rollback (region : Region E) (how : RegionEnd) (outstanding : Finset String)
    (world : World E) :
    Closes world (State.ofRegion outstanding (region.rollback how world)).world := by
  have hrolledBack : Closes world (region.rollback how world).world :=
    .of_log [.rolledBack _] rfl rfl (by simp [Event.isEnd])
  cases how with
  | «continue» => exact hrolledBack
  | clientClosed =>
    exact hrolledBack.trans (.of_log [.closed] rfl rfl (by simp [Event.isEnd]))
  | transportFailed => exact hrolledBack

theorem closes_endedClosed (how : Ended) (slot : Slot E.Database) (world : World E) :
    Closes world (endedClosed how slot world).world :=
  .of_log [.closed] rfl rfl (by simp [Event.isEnd])

/-! ## What a reply is built from -/

/-- The builders of the request loop, each with what was heard and the
refusal it reports. -/
inductive Answers (version : UInt64) : Heard → Option Refusal → Value → Prop
  | tooLarge (declared maximum : UInt32) :
      Answers version (.failed (.tooLarge declared maximum)) none
        (frameTooLargeResponse version declared maximum)
  | undecoded (refusal : Refusal) :
      Answers version (.refused refusal) (some refusal) (refusalResponse version none refusal)
  | refused (request : Request) (refusal : Refusal) :
      Answers version (.request request) (some refusal)
        (refusalResponse version (some request.requestId) refusal)
  | ok (request : Request) (result : Value) :
      Answers version (.request request) none (okResponse version request result)
  | error (request : Request) (detail : String) :
      Answers version (.request request) none (errorResponse version request detail)
  | diagnostic (request : Request) (error : QueryError) :
      Answers version (.request request) none (diagnosticResponse version request error)
  | rows (request : Request) (rows ceiling : Nat) :
      Answers version (.request request) none (rowsResponse version request rows ceiling)

/-- The refusal `open_session` is answered with. -/
def openRefusal (request : Request) (slot : Slot E.Database) (world : World E) : Option Refusal :=
  match request.database with
  | none => none
  | some name =>
      match Catalog.load env.host (env.catalogAt world.loads) with
      | .error _ => none
      | .ok catalog =>
          match (slot.open (env.openAt world.opens) name catalog).1 with
          | .error (.refused refusal) => some refusal
          | _ => none

/-- The refusal of a request that needs the session. -/
def sessionRefusal (request : Request) (slot : Slot E.Database) : Option Refusal :=
  match slot.resolve request.sessionId with
  | .error refusal => some refusal
  | .ok _ => none

/-- The refusal a dispatched request is answered with. -/
def dispatchRefusal (request : Request) (slot : Slot E.Database) (world : World E) :
    Option Refusal :=
  match request.operation with
  | .openSession => openRefusal env request slot world
  | .query | .begin => sessionRefusal request slot
  | _ => none

/-- The refusal the reply to a frame reports. -/
def State.refusal (heard : Heard) (world : World E) (state : State E) : Option Refusal :=
  match heard, state with
  | .refused refusal, _ => some refusal
  | .request asked, .main slot _ _ => dispatchRefusal env asked slot world
  | _, _ => none

theorem answers_envelope (request : Request) (result : E.QueryResult) (generation : UInt64)
    (writes : Option E.WriteSummary) (limits : Limits) : Answers version (.request request) none
      (envelopeResponse E version request result generation writes limits) := by
  unfold envelopeResponse
  split
  · exact .rows _ _ _
  · exact .ok _ _

theorem answers_runOne (request : Request) (statement : String) (session : Session E.Database)
    (world : World E) : Answers version (.request request) none
      (runOne env version request statement session world).1 := by
  unfold runOne
  split
  · exact .diagnostic _ _
  · split
    · exact .error _ _
    · simp only
      split
      · exact .diagnostic _ _
      · split
        · split
          · exact answers_envelope version request _ _ _ _
          · exact .error _ _
        · exact answers_envelope version request _ _ _ _

theorem answers_openSession (request : Request) (slot : Slot E.Database) (world : World E) :
    Answers version (.request request) (openRefusal env request slot world)
      (openSession env version request slot world).1 := by
  unfold openSession openRefusal
  cases request.database with
  | none => exact .error _ _
  | some name =>
    simp only
    cases Catalog.load env.host (env.catalogAt world.loads) with
    | error error => exact .error _ _
    | ok catalog =>
      simp only
      generalize slot.open (env.openAt world.opens) name catalog = out
      obtain ⟨result, slot', paths⟩ := out
      rcases result with (refusal | name | error | error) | id
      · exact .refused _ _
      · exact .error _ _
      · exact .error _ _
      · exact .error _ _
      · exact .ok _ _

theorem answers_run (request : Request) (statement : String) (region : Region E)
    (world : World E) : Answers version (.request request) none
      (region.run env version request statement world).1 := by
  unfold Region.run
  split
  · exact .diagnostic _ _
  · split
    · exact .diagnostic _ _
    · exact answers_envelope version request _ _ _ _

/-- The reply `dispatch` decides on, where it decides on one. -/
def Reply.value : Reply → Option Value
  | .send value => some value
  | .transaction => none
  | .shutdown value => some value

theorem answers_dispatch (request : Request) (slot : Slot E.Database) (world : World E)
    {value : Value} (h : (dispatch env version request slot world).1.value = some value) :
    Answers version (.request request) (dispatchRefusal env request slot world) value := by
  unfold dispatch at h
  unfold dispatchRefusal
  generalize request.operation = operation at h ⊢
  cases operation with
  | openSession =>
    cases h
    exact answers_openSession env version request slot world
  | closeSession =>
    cases h
    exact .ok _ _
  | status =>
    cases h
    exact .ok _ _
  | shutdown =>
    cases h
    exact .ok _ _
  | query =>
    simp only [queryOnce, sessionRefusal] at h ⊢
    cases hresolve : slot.resolve request.sessionId with
    | error refusal =>
      rw [hresolve] at h
      cases h
      exact .refused _ _
    | ok session =>
      simp only [hresolve] at h
      split at h
      · cases h
        exact .error _ _
      · cases h
        exact answers_runOne env version request _ _ world
  | begin =>
    simp only [sessionRefusal] at h ⊢
    cases hresolve : slot.resolve request.sessionId with
    | error refusal =>
      rw [hresolve] at h
      cases h
      exact .refused _ _
    | ok session =>
      rw [hresolve] at h
      cases h
  | commit =>
    cases h
    exact .error _ _
  | rollback =>
    cases h
    exact .error _ _

/-- A dispatched `begin` that goes on is no refusal, on the same slot. -/
theorem dispatch_transaction {request : Request} {slot slot' : Slot E.Database}
    {world world' : World E}
    (h : dispatch env version request slot world = (.transaction, slot', world')) :
    dispatchRefusal env request slot world = none ∧ slot' = slot ∧ world' = world ∧
      ∃ session, slot.resolve request.sessionId = .ok session := by
  unfold dispatch at h
  unfold dispatchRefusal
  generalize request.operation = operation at h ⊢
  cases operation with
  | begin =>
    simp only [sessionRefusal] at h ⊢
    cases hresolve : slot.resolve request.sessionId with
    | error refusal =>
      rw [hresolve] at h
      cases h
    | ok session =>
      rw [hresolve] at h
      cases h
      exact ⟨rfl, rfl, rfl, session, rfl⟩
  | _ => cases h

theorem answers_commitReply (request : Request) (result : Except String UInt64) :
    Answers version (.request request) none (commitReply version request result) := by
  cases result with
  | ok generation => exact .ok _ _
  | error error => exact .error _ _

/-! ## The shape of a step -/

/-- What the log holds of the decoding. -/
def opening (place : Place) (heard : Heard) : List (Event E) :=
  heard.asked.toList.map (.decoded place)

/-- What is said of every course: the reply is built for what was heard
and reports the refusal, what was done before it was done for the request,
and nothing begins behind it. -/
def Course.Sound (place : Place) (heard : Heard) (refusal : Option Refusal) (world : World E) :
    Course E → Prop
  | .silent state => (∃ error, heard = .failed error) ∧ Closes world state.world
  | .reply exchange => Answers version heard refusal exchange.value ∧
      Acts heard.asked (world.logging (opening place heard)) exchange.world ∧
      ∀ world, Closes world (exchange.sent world).world ∧
        Closes world (exchange.lost world).world

variable {version}

section

variable {place : Place} {heard : Heard} {refusal : Option Refusal} {before world : World E}
  {value : Value}

theorem sound_reply {region : Region E} {outstanding : Finset String}
    (hvalue : Answers version heard refusal value)
    (hacts : Acts heard.asked (before.logging (opening place heard)) world) :
    (region.reply value outstanding world).Sound version place heard refusal before :=
  ⟨hvalue, hacts, fun _ => ⟨.refl _ _, closes_rollback region .transportFailed outstanding _⟩⟩

theorem sound_unchecked {next : World E → State E} (hvalue : Answers version heard refusal value)
    (hacts : Acts heard.asked (before.logging (opening place heard)) world)
    (hnext : ∀ world, Closes world (next world).world) :
    (Course.reply (.unchecked value world next)).Sound version place heard refusal before :=
  ⟨hvalue, hacts, fun world => ⟨hnext world, hnext world⟩⟩

end

/-- No decoding, nothing logged. -/
theorem acts_undecoded (asked : Option Request) (place : Place) {heard : Heard}
    (h : heard.asked = none) (world : World E) :
    Acts asked (world.logging (opening place heard)) world := by
  refine ⟨⟨[], ?_, by simp⟩, rfl⟩
  simp [opening, h]

variable (version)

theorem sound_handle (request : Request) (region : Region E) (outstanding : Finset String)
    (world : World E) :
    (region.courseOf env version request outstanding
      (world.logging [.decoded .region request])).Sound version .region (.request request) none
        world := by
  unfold Region.courseOf
  simp only
  split
  · exact sound_unchecked (answers_commitReply version request _)
      (.of_log [.committed request _ _ _] rfl rfl
        (by simp [Event.About, Event.isRead, Event.reply, Event.request, Heard.asked]))
      (fun _ => .refl _ _)
  · exact sound_unchecked (.ok _ _) (.of_log [.rolledBack _] rfl rfl
        (by simp [Event.About, Event.isRead, Event.reply, Event.request])) (fun _ => .refl _ _)
  · split
    · exact sound_unchecked (.error _ _) (.refl _ _) (fun _ => .refl _ _)
    · exact sound_reply (answers_run env version request _ _ _)
        (acts_run env version request _ _ _)
  · exact sound_reply (.error _ _) (.refl _ _)
  · exact sound_reply (.error _ _) (.refl _ _)
  · exact sound_reply (.error _ _) (.refl _ _)
  · exact sound_reply (.error _ _) (.refl _ _)
  · exact sound_reply (.ok _ _) (.refl _ _)

theorem sound_region (region : Region E) (outstanding : Finset String) (before world : World E)
    (heard : Heard) :
    (region.course env version outstanding world heard).Sound version .region heard
      ((State.region region outstanding before).refusal env heard world) world := by
  unfold Region.course
  split
  · exact ⟨⟨_, rfl⟩, closes_rollback region .clientClosed outstanding world⟩
  · exact ⟨⟨_, rfl⟩, closes_rollback region .transportFailed outstanding world⟩
  · exact sound_reply (.undecoded _) (acts_undecoded _ .region rfl world)
  · exact sound_handle env version _ region outstanding world

theorem sound_begin (begin : Request) {slot : Slot E.Database} (outstanding : Finset String)
    {session : Session E.Database} (hresolve : slot.resolve begin.sessionId = .ok session)
    (world : World E) :
    (beginCourse version begin slot outstanding (world.logging [.decoded .main begin])).Sound
      version .main (.request begin) none world := by
  unfold beginCourse
  simp only [hresolve]
  split
  · exact sound_unchecked (.error _ _) (.refl _ _) (fun _ => .refl _ _)
  · exact sound_reply (.ok _ _) (.of_log [.began _] rfl rfl
      (by simp [Event.About, Event.isRead, Event.reply, Event.request]))

theorem sound_main (slot : Slot E.Database) (outstanding : Finset String) (before world : World E)
    (heard : Heard) :
    (mainCourse env version slot outstanding world heard).Sound version .main heard
      ((State.main slot outstanding before).refusal env heard world) world := by
  unfold mainCourse
  split
  · exact ⟨⟨_, rfl⟩, closes_endedClosed _ _ _⟩
  · exact sound_unchecked (.tooLarge _ _) (acts_undecoded _ .main rfl world) (fun _ => .refl _ _)
  · exact ⟨⟨_, rfl⟩, .refl _ _⟩
  · exact sound_unchecked (.undecoded _) (acts_undecoded _ .main rfl world) (fun _ => .refl _ _)
  · rename_i request
    have hacts := acts_dispatch env version request slot (world.logging [.decoded .main request])
    have hvalue {value : Value} := @answers_dispatch _ env version request slot
      (world.logging [.decoded .main request]) value
    unfold mainCourseOf
    simp only
    generalize hout : dispatch env version request slot
      (world.logging [.decoded .main request]) = out at hacts hvalue ⊢
    obtain ⟨reply, slot', world'⟩ := out
    cases reply with
    | send value => exact ⟨hvalue rfl, hacts, fun _ => ⟨.refl _ _, .refl _ _⟩⟩
    | transaction =>
      obtain ⟨hnone, rfl, rfl, session, hresolve⟩ := dispatch_transaction env version hout
      have hsound := sound_begin version request ((insert request.requestId outstanding).erase
        request.requestId) hresolve world
      rw [← hnone] at hsound
      exact hsound
    | shutdown value => exact sound_unchecked (hvalue rfl) hacts (closes_endedClosed _ slot')

theorem State.course_sound {state : State E} {place : Place} {result : Except FrameError String}
    {world : World E} (hread : state.received env = some (place, result, world)) :
    (state.course env version (heardRead env state.outstanding result) world).Sound version place
      (heardRead env state.outstanding result)
      (state.refusal env (heardRead env state.outstanding result) world) world := by
  cases state with
  | main slot outstanding before =>
    cases hread
    exact sound_main env version slot outstanding before _ _
  | region region outstanding before =>
    cases hread
    exact sound_region env version region outstanding before _ _
  | ended how slot before => cases hread

theorem quiet_opening (place : Place) (heard : Heard) (world : World E) :
    Quiet world (world.logging (opening place heard)) := by
  refine ⟨⟨opening place heard, rfl, fun e he => ?_⟩, rfl⟩
  obtain ⟨request, -, rfl⟩ := List.mem_map.mp he
  exact ⟨rfl, rfl⟩

/-- What a step does around its send: nothing is read or replied before
it, and nothing begins behind it. -/
theorem step_sends {state : State E} {place : Place} {result : Except FrameError String}
    {world : World E} (hread : state.received env = some (place, result, world)) :
    Closes world (step env version state).world ∨
      ∃ exchange,
        state.course env version (heardRead env state.outstanding result) world
          = .reply exchange ∧ Quiet world exchange.world ∧
        step env version state = (match send env exchange.world exchange.value with
          | (.ok (), world) => exchange.sent world
          | (.error _, world) => exchange.lost world) ∧
        Closes (send env exchange.world exchange.value).2 (step env version state).world := by
  have hsound := State.course_sound env version hread
  rw [step_eq_settle env version hread]
  cases hcourse : state.course env version (heardRead env state.outstanding result) world with
  | silent state' =>
    rw [hcourse] at hsound
    exact .inl hsound.2
  | reply exchange =>
    rw [hcourse] at hsound
    obtain ⟨-, hbefore, hnext⟩ := hsound
    exact .inr ⟨exchange, rfl, (quiet_opening place _ world).trans hbefore.quiet, rfl,
      Exchange.settle env (P := fun state => Closes _ state.world) exchange (hnext _).1 (hnext _).2⟩

/-- **The step rule of worlds**: what quiet events keep, and the one send a
course has, holds behind a step. -/
theorem step_world {inv : World E → Prop} {state : State E} {place : Place}
    {result : Except FrameError String} {world : World E}
    (hread : state.received env = some (place, result, world))
    (hquiet : ∀ {w w'}, Quiet w w' → inv w → inv w')
    (hsend : ∀ exchange,
      state.course env version (heardRead env state.outstanding result) world = .reply exchange →
      inv exchange.world → inv (send env exchange.world exchange.value).2)
    (h : inv world) : inv (step env version state).world := by
  rcases step_sends env version hread with hcloses | ⟨exchange, hcourse, hbefore, -, hcloses⟩
  · exact hquiet hcloses.quiet h
  · exact hquiet hcloses.quiet (hsend exchange hcourse (hquiet hbefore h))

/-- **What a step logs behind its read**: what was decoded, what was done
for it, and at most one reply, which is built for what was heard. -/
theorem step_log {state : State E} {place : Place} {result : Except FrameError String}
    {world : World E} (hread : state.received env = some (place, result, world)) :
    let heard := heardRead env state.outstanding result
    ∃ before reply after,
      (step env version state).world.log
        = world.log ++ (opening place heard ++ before ++ reply ++ after) ∧
      (∀ e ∈ before, e.About heard.asked) ∧ (∀ e ∈ after, e.isEnd = true) ∧
      ((reply = [] ∧ ∃ error, heard = .failed error) ∨
        ∃ value result, reply = [.sent value result] ∧
          Answers version heard (state.refusal env heard world) value) := by
  intro heard
  have hsound : (state.course env version heard world).Sound version place heard
      (state.refusal env heard world) world := State.course_sound env version hread
  rw [step_eq_settle env version hread]
  cases hcourse : state.course env version heard world with
  | silent state' =>
    rw [hcourse] at hsound
    obtain ⟨⟨error, herror⟩, ⟨events, hlog, habout⟩, -⟩ := hsound
    refine ⟨[], [], events, ?_, by simp, habout, .inl ⟨rfl, error, herror⟩⟩
    have hopening : opening place heard = ([] : List (Event E)) := by rw [herror]; rfl
    rw [hopening]
    exact hlog
  | reply exchange =>
    rw [hcourse] at hsound
    obtain ⟨hvalue, ⟨⟨before, hbefore, habout⟩, -⟩, hnext⟩ := hsound
    have hafter : ∃ after, (Course.settle env (.reply exchange)).world.log
          = (send env exchange.world exchange.value).2.log ++ after ∧
        ∀ e ∈ after, e.isEnd = true :=
      Exchange.settle env (P := fun state => ∃ after, state.world.log
          = (send env exchange.world exchange.value).2.log ++ after ∧ ∀ e ∈ after, e.isEnd = true)
        exchange (hnext _).1.1 (hnext _).2.1
    obtain ⟨after, hlog, hquiet⟩ := hafter
    refine ⟨before, [.sent exchange.value (send env exchange.world exchange.value).1], after, ?_,
      habout, hquiet, .inr ⟨_, _, rfl, hvalue⟩⟩
    rw [hlog]
    simp only [send, World.log_logging, hbefore, List.append_assoc]

/-- **The step lemma of answers**: a step reads once, and behind a frame
that was read whole it puts out one reply. -/
theorem step_answers {state : State E} {place : Place} {result : Except FrameError String}
    {world : World E} (hread : state.received env = some (place, result, world)) :
    let heard := heardRead env state.outstanding result
    ∃ events, (step env version state).world.log = world.log ++ events ∧
      (∀ e ∈ events, e.isRead = false) ∧
      ∀ body, result = .ok body → ∃ value, replies events = [value] ∧
        Answers version heard (state.refusal env heard world) value ∧
        ∀ request, .decoded place request ∈ events ↔ heard = .request request := by
  intro heard
  obtain ⟨before, reply, after, hlog, hbefore, hends, hreply⟩ := step_log env version hread
  have hafter (e : Event E) (he : e ∈ after) : e.About none :=
    Event.about_of_isEnd none (hends e he)
  have hopening (e : Event E) (he : e ∈ opening place heard) :
      e.isRead = false ∧ e.reply = none := by
    obtain ⟨request, -, rfl⟩ := List.mem_map.mp he
    exact ⟨rfl, rfl⟩
  have hquiet {events : List (Event E)} (h : ∀ e ∈ events, e.reply = none) :
      replies events = [] := List.filterMap_eq_nil_iff.mpr h
  refine ⟨_, hlog, ?_, ?_⟩
  · intro e he
    simp only [List.mem_append] at he
    rcases he with ((he | he) | he) | he
    · exact (hopening e he).1
    · exact (hbefore e he).1
    · rcases hreply with ⟨rfl, -⟩ | ⟨value, result, rfl, -⟩
      · cases he
      · rw [List.mem_singleton.mp he]
        rfl
    · exact (hafter e he).1
  · rintro body rfl
    rcases hreply with ⟨-, error, herror⟩ | ⟨value, sent, rfl, hvalue⟩
    · -- a body is decoded or refused, never a failed read
      have hbody : heardBody env state.outstanding body = .failed error := herror
      unfold heardBody at hbody
      split at hbody <;> cases hbody
    · refine ⟨value, ?_, hvalue, fun request => ?_⟩
      · simp only [replies, List.filterMap_append] at hquiet ⊢
        rw [hquiet (fun e he => (hopening e he).2), hquiet (fun e he => (hbefore e he).2.1),
          hquiet (fun e he => (hafter e he).2.1)]
        rfl
      · have hasked : heard.asked = some request ↔ heard = .request request := by
          cases heard <;> simp [Heard.asked]
        simp only [List.mem_append, List.mem_singleton, reduceCtorEq, or_false, ← hasked]
        constructor
        · rintro ((he | he) | he)
          · obtain ⟨request', hmem, heq⟩ := List.mem_map.mp he
            cases heq
            exact Option.mem_toList.mp hmem
          · exact absurd rfl ((hbefore _ he).2.2.1 place request)
          · exact absurd rfl ((hafter _ he).2.2.1 place request)
        · intro h
          refine .inl (.inl (List.mem_map.mpr ⟨request, ?_, rfl⟩))
          rw [h]
          simp

end

/-! ## Frames and their answers -/

/-- Each frame of a log that was read whole behind the handshake is
answered once before the next read, as `P` says of its place, its body,
the events up to the next read, and the reply. -/
def AnsweredBy (P : Place → String → List (Event E) → Value → Prop) (log : List (Event E)) : Prop :=
  ∀ front place body back, log = front ++ .read place (.ok body) :: back → place ≠ .opening →
    ∃ value, replies (untilRead back) = [value] ∧ P place body (untilRead back) value

theorem untilRead_of_no_read {events : List (Event E)} (h : ∀ e ∈ events, e.isRead = false) :
    untilRead events = events := by
  induction events with
  | nil => rfl
  | cons e rest ih =>
    simp only [untilRead, List.takeWhile_cons, h e List.mem_cons_self, Bool.not_false, if_true]
    exact congrArg (e :: ·) (ih (fun e' he' => h e' (List.mem_cons_of_mem _ he')))

/-- What stands behind a read does not matter before it. -/
theorem untilRead_append_read (log events : List (Event E)) (place : Place)
    (result : Except FrameError String) :
    untilRead (log ++ .read place result :: events) = untilRead log := by
  induction log with
  | nil => rfl
  | cons e rest ih =>
    simp only [untilRead, List.cons_append, List.takeWhile_cons] at ih ⊢
    rw [ih]

/-- A turn behind an answered log: one read, then what it leads to. -/
theorem AnsweredBy.append {P : Place → String → List (Event E) → Value → Prop}
    {log events : List (Event E)} (h : AnsweredBy P log) {place : Place}
    {result : Except FrameError String} (hreads : ∀ e ∈ events, e.isRead = false)
    (hone : ∀ body, result = .ok body → ∃ value, replies events = [value] ∧
      P place body events value) : AnsweredBy P (log ++ .read place result :: events) := by
  have huntil := untilRead_of_no_read hreads
  intro front place' body back hsplit hplace
  rw [List.append_eq_append_iff] at hsplit
  rcases hsplit with ⟨rest, hfront, hback⟩ | ⟨rest, hfront, hback⟩
  · -- the frame is the turn's own, or one of the events behind it, and those are no reads
    cases rest with
    | nil =>
      cases hback
      rw [huntil]
      exact hone body rfl
    | cons e rest =>
      have hmem : Event.read place' (.ok body) ∈ events := by
        injection hback with _ hback
        rw [hback]
        exact List.mem_append_right _ (List.mem_cons_self)
      cases hreads _ hmem
  · cases rest with
    | nil =>
      cases hback
      rw [huntil]
      exact hone body rfl
    | cons e rest =>
      -- an earlier frame: its answer stands before the turn's read
      injection hback with he hback
      subst he
      have hrest : untilRead back = untilRead rest := by
        rw [hback]
        exact untilRead_append_read rest events place result
      rw [hrest]
      exact h front place' body rest hfront hplace

/-- A log that only read the opening frame. -/
theorem answeredBy_opening {P : Place → String → List (Event E) → Value → Prop}
    {result : Except FrameError String} {events : List (Event E)}
    (hreads : ∀ e ∈ events, e.isRead = false) : AnsweredBy P (.read .opening result :: events) := by
  intro front place body back hsplit hplace
  have hmem : Event.read place (.ok body) ∈ .read .opening result :: events := by
    rw [hsplit]
    exact List.mem_append_right _ List.mem_cons_self
  rcases List.mem_cons.mp hmem with heq | hmem
  · cases heq
    exact absurd rfl hplace
  · cases hreads _ hmem

theorem answeredBy_start (env : Env E) (stream : Stream)
    (P : Place → String → List (Event E) → Value → Prop) :
    AnsweredBy P (start env stream).2.world.log := by
  have hhandshake : AnsweredBy P (handshake env { stream }).2.log := by
    rcases handshake_world env { stream } with h | ⟨value, h⟩ <;> rw [h]
    · exact answeredBy_opening (by simp)
    · exact answeredBy_opening (by simp [Event.isRead])
  rcases start_cases env stream with ⟨how, h⟩ | h <;> rw [h] <;> exact hhandshake

/-- **The run lemma of answers**: what holds of every reply built for what
was heard holds of the answer of every frame of a connection. -/
theorem answeredBy_run (env : Env E) (stream : Stream)
    {P : Place → String → List (Event E) → Value → Prop}
    (hP : ∀ outstanding place body events refusal value, replies events = [value] →
      Answers (start env stream).1 (heardBody env outstanding body) refusal value →
      (∀ request, .decoded place request ∈ events ↔
        heardBody env outstanding body = .request request) → P place body events value)
    (fuel : Nat) : AnsweredBy P (serveConnection env fuel stream).world.log := by
  have hstep (state : State E) (h : AnsweredBy P state.world.log) :
      AnsweredBy P (step env (start env stream).1 state).world.log := by
    cases hread : state.received env with
    | none =>
      rw [step_of_received_none _ hread]
      exact h
    | some read =>
      obtain ⟨place, result, world⟩ := read
      obtain ⟨events, hlog, hreads, hone⟩ := step_answers env (start env stream).1 hread
      rw [hlog, State.received_log hread, List.append_assoc]
      refine h.append hreads (fun body hbody => ?_)
      obtain ⟨value, hvalue, hanswers, hdecoded⟩ := hone body hbody
      rw [hbody] at hanswers hdecoded
      exact ⟨value, hvalue, hP _ place body events _ value hvalue hanswers hdecoded⟩
  obtain ⟨n, hn⟩ := serveConnection_eq_connection env fuel stream
  rw [hn]
  exact connection_invariant hstep (answeredBy_start env stream P) n

end NostdbServer
