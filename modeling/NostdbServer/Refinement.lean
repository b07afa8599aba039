import NostdbServer.FailStop
import NostdbServer.Outstanding
import NostdbServer.Protocol

/-!
# Refinement — the nested loops are the flat protocol

`State.phase` reads the protocol's phase off a state, and `State.signal`
what a client sees of the next frame. `Moves` says once what a step can do
to the state, guards included (`step_moves`); the protocol's steps and
what they leave alone are read off it.
-/

namespace NostdbServer

open Response Protocol

variable {E : Engine}

/-! ## What is seen of a state and a step -/

/-- A slot's phase outside a transaction. -/
def Slot.phase {α : Type} (slot : Slot α) : Protocol.Phase :=
  match slot.session with
  | none => .noSession
  | some session => .session session.id

/-- The phase a state is in. -/
def State.phase : State E → Protocol.Phase
  | .main slot _ _ => slot.phase
  | .region inner _ _ => .inTransaction inner.session.id inner.base
  | .ended _ _ _ => .ended

/-- Whether a reply's outcome is `ok`. -/
def isOk (value : Value) : Bool := (value.get "outcome").bind Value.asStr == some "ok"

theorem isOk_of_ok {value : Value} (h : Ok value) : isOk value = true := by
  rw [Ok] at h
  simp [isOk, h, Value.asStr]

theorem isOk_of_failed {value : Value} (h : Failed value) : isOk value = false := by
  rw [Failed] at h
  simp [isOk, h, Value.asStr]

/-- What a client sees of the frame that is read next. -/
def State.signal (env : Env E) (version : UInt64) (state : State E) : Option Signal :=
  match state.received env with
  | none => none
  | some (place, result, world) =>
      let heard := heardRead env state.outstanding result
      match state.course env version heard world with
      | .silent _ => some .broken
      | .reply exchange =>
          match heard, (send env exchange.world exchange.value).1, state.discards heard with
          | .failed _, _, _ => some .broken
          | _, .error _, false => some .broken
          | .refused _, _, _ => some .refused
          | .request asked, _, _ => some (.answered place asked.operation (isOk exchange.value))

/-- What a client sees of a connection that has read `n` frames. -/
def signals (env : Env E) (stream : Stream) (n : Nat) : List Signal :=
  .hello (handshake env { stream }).1.isOk ::
    (List.range n).filterMap (fun k =>
      (connection env stream k).signal env (start env stream).1)

/-! ## What a step can do -/

/-- An event that only reads, decodes or replies. -/
def Event.isTalk : Event E → Bool
  | .read _ _ => true
  | .decoded _ _ => true
  | .sent _ _ => true
  | _ => false

/-- Nothing outside was called, and nothing was done. -/
def Untouched (w w' : World E) : Prop :=
  (w'.loads = w.loads ∧ w'.opens = w.opens ∧ w'.runs = w.runs) ∧
    ∃ events, w'.log = w.log ++ events ∧ ∀ e ∈ events, e.isTalk = true

/-- A slot or a region, and a set of identifiers, stayed as they were. -/
def Unchanged (state state' : State E) : Prop :=
  ∃ world, Untouched state.world world ∧ state' = state.withWorld world

/-- The requests that change nothing, with their outcome. -/
inductive Idle : Place → Operation → Bool → Prop
  | status (place : Place) : Idle place .status true
  | notQueried : Idle .main .query false
  | notBegun : Idle .main .begin false
  | commitOutside : Idle .main .commit false
  | rollbackOutside : Idle .main .rollback false
  | beginInside : Idle .region .begin false
  | openInside : Idle .region .openSession false
  | closeInside : Idle .region .closeSession false
  | shutdownInside : Idle .region .shutdown false

/-- What a step can do, by what is seen of it. -/
inductive Moves : State E → Signal → State E → Prop
  | broken (state : State E) (how : Ended) (slot : Slot E.Database) (world : World E) :
      Moves state .broken (.ended how slot world)
  | refused {state state' : State E} : Unchanged state state' → Moves state .refused state'
  | idle {slot : Slot E.Database} {outstanding : Finset String} {world world' : World E}
      {operation : Operation} {ok : Bool} : Untouched world world' → Idle .main operation ok →
      Moves (.main slot outstanding world) (.answered .main operation ok)
        (.main slot outstanding world')
  | notOpened {slot : Slot E.Database} {outstanding : Finset String} {world world' : World E} :
      Moves (.main slot outstanding world) (.answered .main .openSession false)
        (.main slot outstanding world')
  | opened {slot : Slot E.Database} {outstanding : Finset String} {world world' : World E}
      {session : Session E.Database} {next : UInt64} : slot.session = none →
      Moves (.main slot outstanding world) (.answered .main .openSession true)
        (.main ⟨some session, next⟩ outstanding world')
  | closed {slot : Slot E.Database} {outstanding : Finset String} {world world' : World E} :
      Moves (.main slot outstanding world) (.answered .main .closeSession true)
        (.main slot.close.2 outstanding world')
  | shutdown {slot : Slot E.Database} {outstanding : Finset String} {world world' : World E} :
      Moves (.main slot outstanding world) (.answered .main .shutdown true)
        (.ended .shutdownRequested slot.close.2 world')
  | queried {slot : Slot E.Database} {outstanding : Finset String} {world world' : World E}
      {session : Session E.Database} (database : E.Database) (ok : Bool) :
      slot.session = some session →
      Moves (.main slot outstanding world) (.answered .main .query ok)
        (.main (slot.holding { session with database }) outstanding world')
  | began {slot : Slot E.Database} {outstanding : Finset String} {world world' : World E}
      {session : Session E.Database} {transaction : E.Transaction} :
      slot.session = some session → E.begin session.database = .ok transaction →
      Moves (.main slot outstanding world) (.answered .main .begin true)
        (.region ⟨session, slot.next, transaction, E.baseGeneration transaction, ∅⟩ outstanding
          world')
  | committed {region : Region E} {outstanding : Finset String} {world world' : World E}
      (ok : Bool) : Moves (.region region outstanding world) (.answered .region .commit ok)
        (.main (region.slotWith (E.commit region.transaction region.session.database).2)
          outstanding world')
  | rolledBack {region : Region E} {outstanding : Finset String} {world world' : World E} :
      Moves (.region region outstanding world) (.answered .region .rollback true)
        (.main (region.slotWith (E.rollback region.transaction region.session.database))
          outstanding world')
  | ran {region : Region E} {outstanding : Finset String} {world world' : World E}
      (transaction : E.Transaction) (waiting : Finset String) (ok : Bool) :
      Moves (.region region outstanding world) (.answered .region .query ok)
        (.region { region with transaction, outstanding := waiting } outstanding world')
  | kept {region : Region E} {outstanding : Finset String} {world world' : World E}
      {operation : Operation} {ok : Bool} : Untouched world world' → Idle .region operation ok →
      Moves (.region region outstanding world) (.answered .region operation ok)
        (.region region outstanding world')

namespace Untouched

variable {w w' w'' : World E}

theorem refl (w : World E) : Untouched w w :=
  ⟨⟨rfl, rfl, rfl⟩, [], (List.append_nil _).symm, by simp⟩

theorem trans (h : Untouched w w') (h' : Untouched w' w'') : Untouched w w'' := by
  obtain ⟨⟨hloads, hopens, hruns⟩, events, hlog, htalk⟩ := h
  obtain ⟨⟨hloads', hopens', hruns'⟩, events', hlog', htalk'⟩ := h'
  refine ⟨⟨hloads'.trans hloads, hopens'.trans hopens, hruns'.trans hruns⟩, events ++ events',
    ?_, ?_⟩
  · rw [hlog', hlog, List.append_assoc]
  · intro e he
    rcases List.mem_append.mp he with he | he
    · exact htalk e he
    · exact htalk' e he

theorem send (env : Env E) (world : World E) (value : Value) :
    Untouched world (send env world value).2 :=
  ⟨⟨rfl, rfl, rfl⟩, [.sent value _], rfl, by simp [Event.isTalk]⟩

theorem decoded (place : Place) (request : Request) (world : World E) :
    Untouched world (world.logging [.decoded place request]) :=
  ⟨⟨rfl, rfl, rfl⟩, [.decoded place request], rfl, by simp [Event.isTalk]⟩

theorem received {env : Env E} {state : State E} {place : Place}
    {result : Except FrameError String} {world : World E}
    (h : state.received env = some (place, result, world)) : Untouched state.world world := by
  cases state with
  | ended how slot before => cases h
  | _ =>
    cases h
    exact ⟨⟨rfl, rfl, rfl⟩, [.read _ _], rfl, by simp [Event.isTalk]⟩

end Untouched

section

variable (env : Env E) (version : UInt64)

/-- `run_one` keeps the session it ran on. -/
theorem runOne_session (request : Request) (statement : String) (session : Session E.Database)
    (world : World E) : ∃ database,
      (runOne env version request statement session world).2.1 = { session with database } := by
  unfold runOne
  split
  · exact ⟨session.database, rfl⟩
  · split
    · exact ⟨session.database, rfl⟩
    · simp only
      split
      · exact ⟨_, rfl⟩
      · split
        · split <;> exact ⟨_, rfl⟩
        · exact ⟨_, rfl⟩

/-- `open_session` opens a session in an empty slot, or leaves the slot. -/
theorem openSession_slot {request : Request} {slot slot' : Slot E.Database} {world world' : World E}
    {value : Value} (h : openSession env version request slot world = (value, slot', world')) :
    (isOk value = false ∧ slot' = slot) ∨
      (isOk value = true ∧ slot.session = none ∧ ∃ session next, slot' = ⟨some session, next⟩) := by
  have herror (detail : String) : isOk (errorResponse version request detail) = false :=
    isOk_of_failed (failedOutright_errorResponse detail).1
  unfold openSession at h
  split at h
  · cases h
    exact .inl ⟨herror _, rfl⟩
  · simp only at h
    split at h
    · cases h
      exact .inl ⟨herror _, rfl⟩
    · rename_i name _ _ catalog _
      generalize hopen : slot.open (env.openAt world.opens) name catalog = out at h
      obtain ⟨result, slot'', paths⟩ := out
      cases h
      cases result with
      | error error =>
        refine .inl ⟨?_, Slot.open_error hopen⟩
        cases error with
        | refused refusal =>
          simp only [openReply]
          exact isOk_of_failed (failedOutright_refusalResponse _ refusal).1
        | _ =>
          simp only [openReply]
          exact herror _
      | ok id =>
        obtain ⟨hnone, -, entry, database, -, -, hslot, -⟩ := Slot.open_ok hopen
        simp only [openReply]
        exact .inr ⟨isOk_of_ok (ok_okResponse _), hnone, _, _, hslot⟩

/-- A query runs on the slot's session, or fails with nothing done. -/
theorem queryOnce_slot {request : Request} {slot slot' : Slot E.Database} {world world' : World E}
    {value : Value} (h : queryOnce env version request slot world = (value, slot', world')) :
    (isOk value = false ∧ slot' = slot ∧ world' = world) ∨
      ∃ session database, slot.session = some session ∧
        slot' = slot.holding { session with database } := by
  unfold queryOnce at h
  split at h
  · cases h
    exact .inl ⟨isOk_of_failed (failedOutright_refusalResponse _ _).1, rfl, rfl⟩
  · rename_i session hresolve
    split at h
    · cases h
      exact .inl ⟨isOk_of_failed (failedOutright_errorResponse _).1, rfl, rfl⟩
    · rename_i statement _
      obtain ⟨database, hsession⟩ := runOne_session env version request statement session world
      cases h
      exact .inr ⟨session, database, (Slot.resolve_eq_ok_iff.mp hresolve).1,
        congrArg slot.holding hsession⟩

variable {version} in
/-- Inside the region, an answered request moves the state as listed. -/
theorem moves_region {region : Region E} {outstanding : Finset String} {before world : World E}
    {request : Request} {exchange : Exchange E} (huntouched : Untouched before world)
    (hfresh : request.requestId ∉ region.outstanding)
    (hcourse : region.courseOf env version request outstanding
      (world.logging [.decoded .region request]) = .reply exchange) :
    Moves (.region region outstanding before)
      (.answered .region request.operation (isOk exchange.value))
      (exchange.sent (send env exchange.world exchange.value).2) := by
  have herase : (insert request.requestId region.outstanding).erase request.requestId
      = region.outstanding := Finset.erase_insert hfresh
  have hkept (value : Value) : Untouched before
      (send env (world.logging [.decoded .region request]) value).2 :=
    (huntouched.trans (.decoded _ _ _)).trans (.send env _ _)
  have hfailed (detail : String) : isOk (errorResponse version request detail) = false :=
    isOk_of_failed (failedOutright_errorResponse detail).1
  unfold Region.courseOf at hcourse
  simp only at hcourse
  split at hcourse
  · rename_i hop
    cases hcourse
    rw [hop]
    exact .committed _
  · rename_i hop
    cases hcourse
    rw [hop]
    simp only [Exchange.unchecked, isOk_of_ok (ok_okResponse _)]
    exact .rolledBack
  · rename_i hop
    rw [hop]
    split at hcourse
    · cases hcourse
      exact .ran region.transaction _ _
    · cases hcourse
      exact .ran _ _ _
  · rename_i hop
    cases hcourse
    simp only [hop, hfailed, herase]
    exact .kept (hkept _) .beginInside
  · rename_i hop
    cases hcourse
    simp only [hop, hfailed, herase]
    exact .kept (hkept _) .openInside
  · rename_i hop
    cases hcourse
    simp only [hop, hfailed, herase]
    exact .kept (hkept _) .closeInside
  · rename_i hop
    cases hcourse
    simp only [hop, hfailed, herase]
    exact .kept (hkept _) .shutdownInside
  · rename_i hop
    cases hcourse
    simp only [hop, isOk_of_ok (ok_okResponse _), herase]
    exact .kept (hkept _) (.status _)

/-- A dispatched `begin` opens a transaction on the slot's session, or
fails with nothing done. -/
theorem moves_begin {slot : Slot E.Database} {outstanding : Finset String} {before world : World E}
    {begin : Request} {exchange : Exchange E} (huntouched : Untouched before world)
    (hcourse : beginCourse version begin slot outstanding world = .reply exchange) :
    Moves (.main slot outstanding before) (.answered .main .begin (isOk exchange.value))
      (exchange.sent (send env exchange.world exchange.value).2) := by
  unfold beginCourse at hcourse
  split at hcourse
  · cases hcourse
    simp only [Exchange.unchecked, isOk_of_failed (failedOutright_refusalResponse _ _).1]
    exact .idle (huntouched.trans (.send env _ _)) .notBegun
  · rename_i session hresolve
    split at hcourse
    · cases hcourse
      simp only [Exchange.unchecked, isOk_of_failed (failedOutright_errorResponse _).1]
      exact .idle (huntouched.trans (.send env _ _)) .notBegun
    · rename_i transaction hbegin
      cases hcourse
      simp only [isOk_of_ok (ok_okResponse _)]
      exact .began (Slot.resolve_eq_ok_iff.mp hresolve).1 hbegin

/-- In the main loop, an answered request moves the state as listed. -/
theorem moves_main {slot : Slot E.Database} {outstanding : Finset String} {before world : World E}
    {request : Request} {exchange : Exchange E} (huntouched : Untouched before world)
    (hfresh : request.requestId ∉ outstanding)
    (hcourse : mainCourseOf env version request slot outstanding
      (world.logging [.decoded .main request]) = .reply exchange) :
    Moves (.main slot outstanding before)
      (.answered .main request.operation (isOk exchange.value))
      (exchange.sent (send env exchange.world exchange.value).2) := by
  have herase : (insert request.requestId outstanding).erase request.requestId = outstanding :=
    Finset.erase_insert hfresh
  have hdecoded := huntouched.trans (.decoded .main request world)
  have hkept (value : Value) : Untouched before
      (send env (world.logging [.decoded .main request]) value).2 := hdecoded.trans (.send env _ _)
  simp only [mainCourseOf, herase] at hcourse
  unfold dispatch at hcourse
  cases hop : request.operation with
  | openSession =>
    simp only [hop] at hcourse
    generalize hopen : openSession env version request slot
      (world.logging [.decoded .main request]) = out at hcourse
    obtain ⟨value, slot', world'⟩ := out
    cases hcourse
    rcases openSession_slot env version hopen
      with ⟨hfailed, hslot⟩ | ⟨hok, hnone, session, next, hslot⟩
    · simp only [hfailed, hslot]
      exact .notOpened
    · simp only [hok, hslot]
      exact .opened hnone
  | closeSession =>
    simp only [hop] at hcourse
    cases hcourse
    simp only [isOk_of_ok (ok_okResponse _)]
    exact .closed
  | status =>
    simp only [hop] at hcourse
    cases hcourse
    simp only [isOk_of_ok (ok_okResponse _)]
    exact .idle (hkept _) (.status _)
  | shutdown =>
    simp only [hop] at hcourse
    cases hcourse
    simp only [Exchange.unchecked, isOk_of_ok (ok_okResponse _)]
    exact .shutdown
  | query =>
    simp only [hop] at hcourse
    generalize hquery : queryOnce env version request slot
      (world.logging [.decoded .main request]) = out at hcourse
    obtain ⟨value, slot', world'⟩ := out
    cases hcourse
    rcases queryOnce_slot env version hquery with
      ⟨hfailed, rfl, rfl⟩ | ⟨session, database, hsession, hslot⟩
    · simp only [hfailed]
      exact .idle (hkept _) .notQueried
    · simp only [hslot]
      exact .queried database _ hsession
  | begin =>
    simp only [hop] at hcourse
    cases hresolve : slot.resolve request.sessionId with
    | error refusal =>
      simp only [hresolve] at hcourse
      cases hcourse
      simp only [isOk_of_failed (failedOutright_refusalResponse _ _).1]
      exact .idle (hkept _) .notBegun
    | ok session =>
      simp only [hresolve] at hcourse
      exact moves_begin env version hdecoded hcourse
  | commit =>
    simp only [hop] at hcourse
    cases hcourse
    simp only [isOk_of_failed (failedOutright_errorResponse _).1]
    exact .idle (hkept _) .commitOutside
  | rollback =>
    simp only [hop] at hcourse
    cases hcourse
    simp only [isOk_of_failed (failedOutright_errorResponse _).1]
    exact .idle (hkept _) .rollbackOutside

/-- Where nothing is replied, the connection ends. -/
theorem State.course_silent {state state' : State E} {heard : Heard} {world : World E}
    (h : state.course env version heard world = .silent state') :
    ∃ how slot world', state' = .ended how slot world' := by
  cases state with
  | main slot outstanding before =>
    simp only [State.course, mainCourse] at h
    split at h
    · cases h
      exact ⟨_, _, _, rfl⟩
    · cases h
    · cases h
      exact ⟨_, _, _, rfl⟩
    · cases h
    · simp only [mainCourseOf] at h
      split at h
      · cases h
      · unfold beginCourse at h
        split at h
        · cases h
        · split at h <;> cases h
      · cases h
  | region region outstanding before =>
    simp only [State.course, Region.course] at h
    split at h
    · cases h
      exact ⟨_, _, _, rfl⟩
    · cases h
      exact ⟨_, _, _, rfl⟩
    · cases h
    · simp only [Region.courseOf] at h
      split at h
      · cases h
      · cases h
      · split at h <;> cases h
      all_goals cases h
  | ended how slot before =>
    cases h
    exact ⟨how, slot, before, rfl⟩

/-- A reply to a failed read ends the connection too. -/
theorem State.course_failed {state : State E} {error : FrameError} {world : World E}
    {exchange : Exchange E}
    (h : state.course env version (.failed error) world = .reply exchange) (world' : World E) :
    (∃ how slot world'', exchange.sent world' = .ended how slot world'') ∧
      ∃ how slot world'', exchange.lost world' = .ended how slot world'' := by
  cases state with
  | main slot outstanding before =>
    simp only [State.course, mainCourse] at h
    split at h
    · cases h
    · cases h
      exact ⟨⟨_, _, _, rfl⟩, ⟨_, _, _, rfl⟩⟩
    · cases h
    all_goals
      rename_i hheard
      cases hheard
  | region region outstanding before =>
    simp only [State.course, Region.course] at h
    split at h
    · cases h
    · cases h
    all_goals
      rename_i hheard
      cases hheard
  | ended how slot before => cases h

/-- An answered frame moves the state as listed. -/
theorem moves_answered {state : State E} {place : Place} {result : Except FrameError String}
    {world : World E} {exchange : Exchange E}
    (hread : state.received env = some (place, result, world)) {request : Request}
    (hheard : heardRead env state.outstanding result = .request request)
    (hcourse : state.course env version (.request request) world = .reply exchange) :
    Moves state (.answered place request.operation (isOk exchange.value))
      (exchange.sent (send env exchange.world exchange.value).2) := by
  have hfresh := fresh_of_heard env hheard
  have huntouched := Untouched.received hread
  cases state with
  | main slot outstanding before =>
    cases hread
    exact moves_main env version huntouched hfresh hcourse
  | region region outstanding before =>
    cases hread
    exact moves_region env huntouched hfresh hcourse
  | ended how slot before => cases hread

/-- A frame the decoder refused leaves the state as it was. -/
theorem moves_refused {state : State E} {place : Place} {result : Except FrameError String}
    {world : World E} {exchange : Exchange E}
    (hread : state.received env = some (place, result, world)) {refusal : Refusal}
    (hcourse : state.course env version (.refused refusal) world = .reply exchange) :
    Moves state .refused (exchange.sent (send env exchange.world exchange.value).2) := by
  have huntouched := Untouched.received hread
  cases state with
  | main slot outstanding before =>
    cases hcourse
    exact .refused ⟨_, huntouched.trans (.send env _ _), rfl⟩
  | region region outstanding before =>
    cases hcourse
    exact .refused ⟨_, huntouched.trans (.send env _ _), rfl⟩
  | ended how slot before => cases hread

/-- **What a step can do.** -/
theorem step_moves {state : State E} {signal : Signal}
    (h : state.signal env version = some signal) :
    Moves state signal (step env version state) := by
  cases hread : state.received env with
  | none =>
    simp only [State.signal, hread] at h
    cases h
  | some read =>
    obtain ⟨place, result, world⟩ := read
    rw [step_eq_settle env version hread]
    simp only [State.signal, hread] at h
    cases hcourse : state.course env version (heardRead env state.outstanding result) world with
    | silent state' =>
      rw [hcourse] at h
      cases h
      obtain ⟨how, slot, world', rfl⟩ := State.course_silent env version hcourse
      exact .broken state how slot world'
    | reply exchange =>
      simp only [hcourse] at h
      obtain ⟨hlost, hdropped⟩ := State.course_lost env version hcourse
      have hbroken (hnot : state.discards (heardRead env state.outstanding result) = false)
          (world' : World E) : Moves state .broken (exchange.lost world') := by
        have hended := hlost world'
        rw [hnot] at hended
        cases hstate : exchange.lost world' with
        | ended how slot before => exact .broken state how slot before
        | _ =>
          rw [hstate] at hended
          cases hended
      simp only [Course.settle]
      generalize hheard :
        heardRead env state.outstanding result = heard at h hcourse hdropped hbroken
      have hrefused (refusal : Refusal) (heq : heard = .refused refusal) := by
        rw [heq] at hcourse
        exact moves_refused env version hread hcourse
      have hanswered (request : Request) (heq : heard = .request request) := by
        rw [heq] at hcourse hheard
        exact moves_answered env version hread hheard hcourse
      have hfailed (error : FrameError) (heq : heard = .failed error) := by
        rw [heq] at hcourse
        exact State.course_failed env version hcourse
      generalize send env exchange.world exchange.value = out at h hrefused hanswered
      obtain ⟨sent, world'⟩ := out
      cases heard with
      | failed error =>
        cases h
        obtain ⟨⟨how, slot, before, hsent⟩, how', slot', before', hlost⟩ := hfailed error rfl world'
        rcases sent with sendError | ⟨⟩
        · simp only [hlost]
          exact .broken state how' slot' before'
        · simp only [hsent]
          exact .broken state how slot before
      | refused refusal =>
        rcases sent with sendError | ⟨⟩
        · cases hdiscards : state.discards (.refused refusal) with
          | false =>
            rw [hdiscards] at h
            cases h
            exact hbroken hdiscards world'
          | true =>
            rw [hdiscards] at h
            cases h
            simp only [hdropped hdiscards]
            exact hrefused refusal rfl
        · cases h
          exact hrefused refusal rfl
      | request request =>
        rcases sent with sendError | ⟨⟩
        · cases hdiscards : state.discards (.request request) with
          | false =>
            rw [hdiscards] at h
            cases h
            exact hbroken hdiscards world'
          | true =>
            rw [hdiscards] at h
            cases h
            simp only [hdropped hdiscards]
            exact hanswered request rfl
        · cases h
          exact hanswered request rfl

end

/-! ## The refinement -/

theorem Slot.phase_outside {α : Type} (slot : Slot α) : slot.phase.Outside := by
  unfold Slot.phase
  cases slot.session with
  | none => exact .noSession
  | some session => exact .session session.id

theorem phase_withWorld (state : State E) (world : World E) :
    (state.withWorld world).phase = state.phase := by
  cases state <;> rfl

/-- A state that reads is in a phase that serves requests. -/
theorem phase_live (env : Env E) {state : State E} (h : state.received env ≠ none) :
    state.phase.Live := by
  cases state with
  | main slot outstanding world => exact .outside slot.phase_outside
  | region region outstanding world => exact .inTransaction _ _
  | ended how slot world => exact absurd rfl h

/-- **Each step of the daemon is a step of the protocol.** -/
theorem Moves.next {state state' : State E} {signal : Signal} (h : Moves state signal state')
    (hlive : state.phase.Live) : Next state.phase signal state'.phase := by
  cases h with
  | broken how slot world => exact .broken hlive
  | refused hunchanged =>
    obtain ⟨world, -, rfl⟩ := hunchanged
    rw [phase_withWorld]
    exact .refused hlive
  | @idle slot outstanding world world' operation ok huntouched hidle =>
    have houtside : slot.phase.Outside := slot.phase_outside
    cases hidle with
    | status => exact .status houtside
    | notQueried => exact .notQueried houtside
    | notBegun => exact .notBegun houtside
    | commitOutside => exact .nothingOpen houtside (.inl rfl)
    | rollbackOutside => exact .nothingOpen houtside (.inr rfl)
  | @notOpened slot outstanding world world' => exact .notOpened slot.phase_outside
  | @opened slot outstanding world world' session next hnone =>
    simp only [State.phase, Slot.phase, hnone]
    exact .opened session.id
  | @closed slot outstanding world world' => exact .closed slot.phase_outside
  | @shutdown slot outstanding world world' => exact .shutdown slot.phase_outside
  | @queried slot outstanding world world' session database ok hsession =>
    simp only [State.phase, Slot.phase, Slot.holding, hsession]
    exact .queried session.id ok
  | @began slot outstanding world world' session transaction hsession hbegin =>
    simp only [State.phase, Slot.phase, hsession]
    exact .began session.id _
  | @committed region outstanding world world' ok =>
      exact .committed region.session.id region.base ok
  | @rolledBack region outstanding world world' => exact .rolledBack region.session.id region.base
  | @ran region outstanding world world' transaction waiting ok =>
    exact .ran region.session.id region.base ok
  | @kept region outstanding world world' operation ok huntouched hidle =>
    cases hidle with
    | status => exact .inTransaction region.session.id region.base
    | beginInside => exact .busy _ _ (.inl rfl)
    | openInside => exact .busy _ _ (.inr (.inl rfl))
    | closeInside => exact .busy _ _ (.inr (.inr (.inl rfl)))
    | shutdownInside => exact .busy _ _ (.inr (.inr (.inr rfl)))

theorem signal_eq_none_iff (env : Env E) (version : UInt64) (state : State E) :
    state.signal env version = none ↔ state.received env = none := by
  unfold State.signal
  cases state.received env with
  | none => simp
  | some read =>
    obtain ⟨place, result, world⟩ := read
    simp only [reduceCtorEq, iff_false]
    split
    · simp
    · split <;> simp

/-- A status inside a transaction says so, with the generation it is based
on. -/
theorem status_reports {env : Env E} {version : UInt64} {region : Region E}
    {outstanding : Finset String} {world : World E} {ok : Bool}
    (h : (State.region region outstanding world).signal env version
      = some (.answered .region .status ok)) :
    ∃ request, (step env version (.region region outstanding world)).world.log.getLast?
      = some (.sent (okResponse version request (Value.json
          [("in_transaction", .bool true), ("base_generation", Value.u64 region.base)]))
            (.ok ())) := by
  cases hreceive : receive env .region world with
  | mk result before =>
    have hread : (State.region region outstanding world).received env
        = some (.region, result, before) := by simp only [State.received, hreceive]
    rw [step_eq_settle env version hread]
    simp only [State.signal, hread] at h
    cases hcourse : (State.region region outstanding world).course env version
        (heardRead env (State.region region outstanding world).outstanding result) before with
    | silent state' =>
      rw [hcourse] at h
      cases h
    | reply exchange =>
      simp only [hcourse] at h
      split at h
      · cases h
      · cases h
      · cases h
      · rename_i asked hheard hlooked
        injection h with h
        injection h with _ hop _
        have hlog := log_send env exchange.world exchange.value
        have hok : (send env exchange.world exchange.value).1 = .ok () := by
          cases hsent : (send env exchange.world exchange.value).1 with
          | ok => rfl
          | error error =>
            refine (hlooked error hsent ?_).elim
            simp only [hheard, State.discards, hop]
        simp only [Course.settle]
        rw [show send env exchange.world exchange.value
          = (.ok (), (send env exchange.world exchange.value).2) from Prod.ext hok rfl]
        rw [hok] at hlog
        rw [hheard] at hcourse
        simp only [State.course, Region.course, Region.courseOf, hop] at hcourse
        cases hcourse
        refine ⟨asked, ?_⟩
        simp only [State.world]
        rw [hlog, List.getLast?_concat]

/-- The database a finishing request leaves. -/
def Region.FinishedBy (region : Region E) (operation : Operation) (database : E.Database) : Prop :=
  (operation = .commit ∧
      database = (E.commit region.transaction region.session.database).2) ∨
    (operation = .rollback ∧ database = E.rollback region.transaction region.session.database)

/-- What the refinement gives a client, over one connection. -/
structure Follows (env : Env E) (stream : Stream) : Prop where
  /-- What is seen of the frames so far is a run of the protocol. -/
  refines : ∀ n, Run.Path Next .awaitingHello (signals env stream n) (connection env stream n).phase
  /-- Begins and finishes take turns, and between frames a transaction is
  open exactly where the last of them is a begin. -/
  alternate : ∀ n, Alternate (marks (signals env stream n)) ∧
    (connection env stream n).phase.OpenIff (marks (signals env stream n)).getLast?
  /-- A `begin` answered `ok` opens a transaction on the slot's session. -/
  begun : ∀ n, (connection env stream n).signal env (start env stream).1
      = some (.answered .main .begin true) →
    ∃ slot outstanding world session transaction world',
      connection env stream n = .main slot outstanding world ∧ slot.session = some session ∧
      E.begin session.database = .ok transaction ∧
      connection env stream (n + 1) = .region
        ⟨session, slot.next, transaction, E.baseGeneration transaction, ∅⟩ outstanding world'
  /-- A commit, whatever comes of it, and a rollback give the session back
  to the main loop, which reads the next frame: its identifier, its name and
  its path are the same, and its database is what the Engine left. -/
  finished : ∀ n operation ok, (connection env stream n).signal env (start env stream).1
      = some (.answered .region operation ok) → operation = .commit ∨ operation = .rollback →
    ∃ region outstanding world database world',
      connection env stream n = .region region outstanding world ∧
      region.FinishedBy operation database ∧
      connection env stream (n + 1) = .main (region.slotWith database) outstanding world'
  /-- Nothing else does. -/
  onlyFinished : ∀ n region outstanding world slot outstanding' world',
    connection env stream n = .region region outstanding world →
    connection env stream (n + 1) = .main slot outstanding' world' →
    ∃ operation ok, (connection env stream n).signal env (start env stream).1
      = some (.answered .region operation ok) ∧ (operation = .commit ∨ operation = .rollback)
  /-- Inside a transaction these are answered with an error and change nothing. -/
  inside : ∀ n operation ok, (connection env stream n).signal env (start env stream).1
      = some (.answered .region operation ok) →
    operation = .begin ∨ operation = .openSession ∨ operation = .closeSession ∨
      operation = .shutdown →
    ok = false ∧ Unchanged (connection env stream n) (connection env stream (n + 1))
  /-- A status inside a transaction reports it, and changes nothing. -/
  status : ∀ n ok, (connection env stream n).signal env (start env stream).1
      = some (.answered .region .status ok) →
    ∃ region outstanding world world' request,
      connection env stream n = .region region outstanding world ∧ Untouched world world' ∧
      connection env stream (n + 1) = .region region outstanding world' ∧
      world'.log.getLast? = some (.sent (okResponse (start env stream).1 request (Value.json
        [("in_transaction", .bool true), ("base_generation", Value.u64 region.base)])) (.ok ()))
  /-- Outside one, commit and rollback are answered with an error and change nothing. -/
  outside : ∀ n operation ok, (connection env stream n).signal env (start env stream).1
      = some (.answered .main operation ok) → operation = .commit ∨ operation = .rollback →
    ok = false ∧ Unchanged (connection env stream n) (connection env stream (n + 1))
  /-- A frame the decoder refuses changes nothing, in either loop. -/
  refused : ∀ n, (connection env stream n).signal env (start env stream).1 = some .refused →
    Unchanged (connection env stream n) (connection env stream (n + 1))

/-- The handshake is the first step of the protocol. -/
theorem hello_next (env : Env E) (stream : Stream) :
    Next .awaitingHello (.hello (handshake env { stream }).1.isOk) (start env stream).2.phase := by
  unfold start
  cases handshake env { stream } with
  | mk result world =>
    cases result with
    | error how => exact .turnedAway
    | ok version => exact .welcomed

theorem refines_run (env : Env E) (stream : Stream) (n : Nat) :
    Run.Path Next .awaitingHello (signals env stream n) (connection env stream n).phase := by
  have hsilent (state : State E) (h : state.signal env (start env stream).1 = none) :
      (step env (start env stream).1 state).phase = state.phase := by
    rw [step_of_received_none _ ((signal_eq_none_iff env _ state).mp h)]
  have hstep (state : State E) (signal : Signal)
      (h : state.signal env (start env stream).1 = some signal) :
      Next state.phase signal (step env (start env stream).1 state).phase := by
    refine (step_moves env _ h).next (phase_live env (fun hnone => ?_))
    rw [(signal_eq_none_iff env _ state).mpr hnone] at h
    cases h
  have hstart : Run.Path Next .awaitingHello [.hello (handshake env { stream }).1.isOk]
      (start env stream).2.phase := (Run.Path.nil _).snoc (hello_next env stream)
  exact Run.Path.of_iterate hsilent hstep hstart n

/-! ## What a step leaves alone -/

namespace Moves

variable {state state' : State E}

theorem begun (h : Moves state (.answered .main .begin true) state') :
    ∃ slot outstanding world session transaction world',
      state = .main slot outstanding world ∧ slot.session = some session ∧
      E.begin session.database = .ok transaction ∧
      state' = .region ⟨session, slot.next, transaction, E.baseGeneration transaction, ∅⟩
        outstanding world' := by
  cases h with
  | idle huntouched hidle => cases hidle
  | began hsession hbegin => exact ⟨_, _, _, _, _, _, rfl, hsession, hbegin, rfl⟩

theorem finished {operation : Operation} {ok : Bool}
    (h : Moves state (.answered .region operation ok) state')
    (hop : operation = .commit ∨ operation = .rollback) :
    ∃ region outstanding world database world', state = .region region outstanding world ∧
      region.FinishedBy operation database ∧
      state' = .main (region.slotWith database) outstanding world' := by
  cases h with
  | committed => exact ⟨_, _, _, _, _, rfl, .inl ⟨rfl, rfl⟩, rfl⟩
  | rolledBack => exact ⟨_, _, _, _, _, rfl, .inr ⟨rfl, rfl⟩, rfl⟩
  | ran => rcases hop with h | h <;> cases h
  | kept huntouched hidle => cases hidle <;> rcases hop with h | h <;> cases h

theorem onlyFinished {region : Region E} {slot : Slot E.Database}
    {outstanding waiting : Finset String} {world world' : World E} {signal : Signal}
    (h : Moves (.region region outstanding world) signal (.main slot waiting world')) :
    ∃ operation ok, signal = .answered .region operation ok ∧
      (operation = .commit ∨ operation = .rollback) := by
  cases h with
  | refused hunchanged =>
    obtain ⟨before, -, heq⟩ := hunchanged
    cases heq
  | committed ok => exact ⟨.commit, ok, rfl, .inl rfl⟩
  | rolledBack => exact ⟨.rollback, true, rfl, .inr rfl⟩

theorem inside {operation : Operation} {ok : Bool}
    (h : Moves state (.answered .region operation ok) state')
    (hop : operation = .begin ∨ operation = .openSession ∨ operation = .closeSession ∨
      operation = .shutdown) : ok = false ∧ Unchanged state state' := by
  cases h with
  | committed => rcases hop with h | h | h | h <;> cases h
  | rolledBack => rcases hop with h | h | h | h <;> cases h
  | ran => rcases hop with h | h | h | h <;> cases h
  | kept huntouched hidle =>
    refine ⟨?_, _, huntouched, rfl⟩
    cases hidle with
    | status => rcases hop with h | h | h | h <;> cases h
    | _ => rfl

theorem status {ok : Bool} (h : Moves state (.answered .region .status ok) state') :
    ∃ region outstanding world world', state = .region region outstanding world ∧
      Untouched world world' ∧ state' = .region region outstanding world' := by
  cases h with
  | kept huntouched hidle => exact ⟨_, _, _, _, rfl, huntouched, rfl⟩

theorem outside {operation : Operation} {ok : Bool}
    (h : Moves state (.answered .main operation ok) state')
    (hop : operation = .commit ∨ operation = .rollback) : ok = false ∧ Unchanged state state' := by
  cases h with
  | idle huntouched hidle =>
    refine ⟨?_, _, huntouched, rfl⟩
    cases hidle with
    | status => rcases hop with h | h <;> cases h
    | _ => rfl
  | _ => rcases hop with h | h <;> cases h

theorem unchanged (h : Moves state .refused state') : Unchanged state state' := by
  cases h with
  | refused hunchanged => exact hunchanged

end Moves

/-- **The nested loops refine the flat protocol**, in every conversation. -/
theorem follows_protocol (env : Env E) (stream : Stream) : Follows env stream := by
  have hmoves {n : Nat} {signal : Signal}
      (h : (connection env stream n).signal env (start env stream).1 = some signal) :
      Moves (connection env stream n) signal (connection env stream (n + 1)) := by
    rw [connection_succ]
    exact step_moves env _ h
  constructor
  · exact refines_run env stream
  · exact fun n => alternate_path (refines_run env stream n)
  · exact fun n h => (hmoves h).begun
  · exact fun n operation ok h hop => (hmoves h).finished hop
  · intro n region outstanding world slot waiting world' hregion hmain
    cases hsignal : (connection env stream n).signal env (start env stream).1 with
    | none =>
      have hnone := (signal_eq_none_iff env _ _).mp hsignal
      rw [hregion] at hnone
      cases hnone
    | some signal =>
      have h := hmoves hsignal
      rw [hregion, hmain] at h
      obtain ⟨operation, ok, rfl, hop⟩ := h.onlyFinished
      exact ⟨operation, ok, rfl, hop⟩
  · exact fun n operation ok h hop => (hmoves h).inside hop
  · intro n ok h
    obtain ⟨region, outstanding, world, world', hregion, huntouched, hnext⟩ := (hmoves h).status
    have hreports := h
    rw [hregion] at hreports
    obtain ⟨request, hlast⟩ := status_reports hreports
    rw [← hregion, ← connection_succ, hnext] at hlast
    exact ⟨region, outstanding, world, world', request, hregion, huntouched, hnext, hlast⟩
  · exact fun n operation ok h hop => (hmoves h).outside hop
  · exact fun n h => (hmoves h).unchanged

end NostdbServer
