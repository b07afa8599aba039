import NostdbServer.FailStop
import NostdbServer.FrameScan
import NostdbServer.Handling
import NostdbServer.Replies

/-!
# Ending — how a connection ends, and that it does

Every iteration of either loop takes a whole frame, four bytes at least,
or returns; so a connection whose reads and writes come to an end comes to
an end itself (`mainLoop_ends`). `State.stops` says which frame ends it and
how. Where every reply can be sent the frames decide alone, and the end is
read off the bytes (`connection_ends`).
-/

namespace NostdbServer

open Response NostdbServer.Frame Script

variable {E : Engine}

/-- How the connection ended, where it did. -/
def State.how : State E → Option Ended
  | .ended how _ _ => some how
  | _ => none

/-- How the connection ends with a frame whose reply, if any, is sent. -/
def State.stops (heard : Heard) : State E → Option Ended
  | .main _ _ _ =>
      match heard with
      | .failed .closed => some .clientClosed
      | .failed _ => some .transportFailed
      | .refused _ => none
      | .request asked => if asked.operation = .shutdown then some .shutdownRequested else none
  | .region _ _ _ =>
      match heard with
      | .failed .closed => some .clientClosed
      | .failed _ => some .transportFailed
      | _ => none
  | .ended how _ _ => some how

section

variable (env : Env E) (version : UInt64)

/-! ## What a course leads to -/

/-- The state a course leads to where its reply is sent ends as `how`. -/
def Course.StopsAs (how : Option Ended) : Course E → Prop
  | .silent state => state.how = how
  | .reply exchange => ∀ world, (exchange.sent world).how = how

theorem stopsAs_begin (begin : Request) (slot : Slot E.Database) (outstanding : Finset String)
    (world : World E) : (beginCourse version begin slot outstanding world).StopsAs none := by
  unfold beginCourse
  split
  · exact fun _ => rfl
  · split
    · exact fun _ => rfl
    · exact fun _ => rfl

/-- Of the operations `shutdown` alone is answered with an end. -/
theorem dispatch_shutdown_iff (request : Request) (slot : Slot E.Database) (world : World E) :
    (∃ value out, dispatch env version request slot world = (.shutdown value, out)) ↔
      request.operation = .shutdown := by
  unfold dispatch
  cases request.operation with
  | begin => cases slot.resolve request.sessionId <;> simp
  | _ => simp

theorem stopsAs_mainCourseOf (request : Request) (slot : Slot E.Database)
    (outstanding : Finset String) (world : World E) :
    (mainCourseOf env version request slot outstanding world).StopsAs
      (if request.operation = .shutdown then some .shutdownRequested else none) := by
  have hshutdown := dispatch_shutdown_iff env version request slot world
  simp only [mainCourseOf]
  generalize dispatch env version request slot world = out at hshutdown ⊢
  obtain ⟨reply, slot', world'⟩ := out
  cases reply with
  | shutdown value =>
    rw [if_pos (hshutdown.mp ⟨value, _, rfl⟩)]
    exact fun _ => rfl
  | send value =>
    rw [if_neg (fun h => by simpa using hshutdown.mpr h)]
    exact fun _ => rfl
  | transaction =>
    rw [if_neg (fun h => by simpa using hshutdown.mpr h)]
    exact stopsAs_begin version request slot' _ world'

theorem stopsAs_courseOf (request : Request) (region : Region E) (outstanding : Finset String)
    (world : World E) :
    (region.courseOf env version request outstanding world).StopsAs none := by
  unfold Region.courseOf
  simp only
  split
  · exact fun _ => rfl
  · exact fun _ => rfl
  · split <;> exact fun _ => rfl
  all_goals exact fun _ => rfl

/-- **What a frame leads to** where its reply is sent. -/
theorem State.course_stops (state : State E) (heard : Heard) (world : World E) :
    (state.course env version heard world).StopsAs (state.stops heard) := by
  cases state with
  | main slot outstanding before =>
    simp only [State.course, mainCourse, State.stops]
    cases heard with
    | failed error =>
      cases error with
      | tooLarge declared maximum => exact fun _ => rfl
      | _ => rfl
    | refused refusal => exact fun _ => rfl
    | request request => exact stopsAs_mainCourseOf env version request slot outstanding _
  | region region outstanding before =>
    simp only [State.course, Region.course, State.stops]
    cases heard with
    | failed error => cases error <;> rfl
    | refused refusal => exact fun _ => rfl
    | request request => exact stopsAs_courseOf env version request region outstanding _
  | ended how slot before => rfl

/-! ## What a step takes of the input -/

/-- A step reads once, and takes nothing more of the input. -/
theorem step_incoming {state : State E} {place : Place} {result : Except FrameError String}
    {world : World E} (hread : state.received env = some (place, result, world)) :
    (step env version state).world.stream.incoming = world.stream.incoming := by
  refine @step_world E env version (fun w => w.stream.incoming = world.stream.incoming) _ _ _ _
    hread ?_ ?_ rfl
  · intro w w' hquiet h
    rw [hquiet.2]
    exact h
  · intro exchange _ h
    exact (incoming_writeFrame _ _ _).trans h

/-- What is received is what is read. -/
theorem State.received_read {state : State E} {place : Place} {result : Except FrameError String}
    {world : World E} (hread : state.received env = some (place, result, world)) :
    readFrame state.world.stream env.limits.maxFrameBytes = (result, world.stream) := by
  cases state <;> cases hread <;> rfl

/-- A failed read ends the connection, whatever becomes of the reply. -/
theorem step_of_failed {state : State E} {place : Place} {error : FrameError} {world : World E}
    (hread : state.received env = some (place, .error error, world)) :
    (step env version state).how = state.stops (.failed error) := by
  have hstops := state.course_stops env version (.failed error) world
  rw [step_eq_settle env version hread]
  cases hcourse : state.course env version (.failed error) world with
  | silent state' =>
    rw [hcourse] at hstops
    simp only [heardRead, hcourse]
    exact hstops
  | reply exchange =>
    -- the one reply to a failed read is the main loop's, and the end stands behind it
    rw [hcourse] at hstops
    simp only [heardRead, hcourse]
    refine Exchange.settle env (P := fun state' => state'.how = state.stops (.failed error))
      exchange (hstops _) ?_
    cases state with
    | main slot outstanding before =>
      cases error with
      | tooLarge declared maximum =>
        cases hcourse
        rfl
      | _ => cases hcourse
    | region region outstanding before => cases error <;> cases hcourse
    | ended how slot before => cases hread

/-- **The step lemma of termination**: an iteration of either loop takes at
least four bytes, or it is the last. -/
theorem step_consumes (state : State E) :
    (step env version state).isEnded = true ∨
      remaining (step env version state).world.stream.incoming + PREFIX_BYTES
        ≤ remaining state.world.stream.incoming := by
  cases hread : state.received env with
  | none =>
    left
    rw [step_of_received_none version hread]
    cases state with
    | ended how slot world => rfl
    | _ => cases hread
  | some read =>
    obtain ⟨place, result, world⟩ := read
    have hframe := State.received_read env hread
    cases result with
    | error error =>
      left
      have hhow := step_of_failed env version hread
      cases hstep : step env version state with
      | ended how slot world => rfl
      | _ =>
        rw [hstep] at hhow
        cases state with
        | ended how slot world => cases hread
        | _ => cases error <;> cases hhow
    | ok body =>
      right
      rw [step_incoming env version hread]
      have htaken := readFrame_remaining hframe
      omega

/-! ## The nested loops end -/

theorem regionLoop_ends (fuel : Nat) (region : Region E) (outstanding : Finset String)
    (world : World E) (hfuel : remaining world.stream.incoming < PREFIX_BYTES * fuel) :
    ∃ how slot world', regionLoop env version fuel region world = .finish how slot world' ∧
      (how = .continue → remaining world'.stream.incoming ≤ remaining world.stream.incoming) := by
  induction fuel generalizing region world with
  | zero => exact absurd hfuel (Nat.not_lt_zero _)
  | succ fuel ih =>
    have hconsumes := step_consumes env version (.region region outstanding world)
    simp only [step] at hconsumes
    simp only [regionLoop]
    cases hturn : regionTurn env version region world with
    | next region' world' =>
      rw [hturn] at hconsumes
      have htaken : remaining world'.stream.incoming + PREFIX_BYTES
          ≤ remaining world.stream.incoming := hconsumes.resolve_left Bool.false_ne_true
      have hless : remaining world'.stream.incoming < PREFIX_BYTES * fuel := by
        rw [Nat.mul_succ] at hfuel
        omega
      obtain ⟨how, slot, world'', hloop, hleft⟩ := ih region' world' hless
      refine ⟨how, slot, world'', hloop, fun hhow => ?_⟩
      have := hleft hhow
      omega
    | finish how slot world' =>
      refine ⟨how, slot, world', rfl, ?_⟩
      rintro rfl
      rw [hturn] at hconsumes
      have htaken : remaining world'.stream.incoming + PREFIX_BYTES
          ≤ remaining world.stream.incoming := hconsumes.resolve_left Bool.false_ne_true
      omega

/-- **The loops end** within as many iterations as the input has frames,
and one. -/
theorem mainLoop_ends (fuel : Nat) (slot : Slot E.Database) (outstanding : Finset String)
    (world : World E) (hfuel : remaining world.stream.incoming < PREFIX_BYTES * fuel) :
    ∃ how slot' world', mainLoop env version fuel slot outstanding world
      = .ended how slot' world' := by
  induction fuel generalizing slot outstanding world with
  | zero => exact absurd hfuel (Nat.not_lt_zero _)
  | succ fuel ih =>
    rw [Nat.mul_succ] at hfuel
    have hconsumes := step_consumes env version (.main slot outstanding world)
    simp only [step] at hconsumes
    simp only [mainLoop]
    cases hturn : mainTurn env version slot outstanding world with
    | next slot' outstanding' world' =>
      rw [hturn] at hconsumes
      have htaken : remaining world'.stream.incoming + PREFIX_BYTES
          ≤ remaining world.stream.incoming := hconsumes.resolve_left Bool.false_ne_true
      exact ih slot' outstanding' world' (by omega)
    | finish how slot' world' => exact ⟨how, slot', world', rfl⟩
    | transaction begin slot' outstanding' world' =>
      rw [hturn] at hconsumes
      simp only at hconsumes
      -- the region ends, and leaves enough where the main loop goes on
      obtain ⟨how, slot'', world'', hregion, hleft⟩ : ∃ how slot'' world'',
          runTransactionRegion env version fuel slot' begin world' = .finish how slot'' world'' ∧
            (how = .continue → remaining world''.stream.incoming < PREFIX_BYTES * fuel) := by
        simp only [runTransactionRegion]
        cases henter : enterRegion env version slot' begin world' with
        | next region world'' =>
          rw [henter] at hconsumes
          have htaken : remaining world''.stream.incoming + PREFIX_BYTES
              ≤ remaining world.stream.incoming := hconsumes.resolve_left Bool.false_ne_true
          obtain ⟨how, slot'', world₁, hloop, hleft⟩ :=
            regionLoop_ends env version fuel region outstanding' world'' (by omega)
          refine ⟨how, slot'', world₁, hloop, fun hhow => ?_⟩
          have := hleft hhow
          omega
        | finish how slot'' world'' =>
          rw [henter] at hconsumes
          refine ⟨how, slot'', world'', rfl, fun hhow => ?_⟩
          subst hhow
          have htaken : remaining world''.stream.incoming + PREFIX_BYTES
              ≤ remaining world.stream.incoming := hconsumes.resolve_left Bool.false_ne_true
          omega
      simp only [hregion]
      cases how with
      | «continue» => exact ih slot'' outstanding' world'' (hleft rfl)
      | clientClosed => exact ⟨_, _, _, rfl⟩
      | transportFailed => exact ⟨_, _, _, rfl⟩

/-! ## Which frame ends it -/

/-- A `shutdown` was decoded outside a transaction region. -/
def ShutdownDecoded (log : List (Event E)) : Prop :=
  ∃ request, .decoded .main request ∈ log ∧ request.operation = .shutdown

/-- The opening frame is whole, and is no `hello` that offers version 1. -/
def OpeningRefused (bytes : List UInt8) : Prop :=
  ∃ body, (front env.limits.maxFrameBytes bytes).1 = .ok body ∧ ¬ OffersOne env.host body

variable {env version}

/-- A step decodes what it heard, and nothing else. -/
theorem decoded_step {state : State E} {place : Place} {result : Except FrameError String}
    {world : World E} (hread : state.received env = some (place, result, world))
    (place' : Place) (request : Request) :
    .decoded place' request ∈ (step env version state).world.log ↔
      .decoded place' request ∈ state.world.log ∨
        (place' = place ∧ (heardRead env state.outstanding result).asked = some request) := by
  obtain ⟨before, reply, after, hlog, hbefore, hafter, hreply⟩ := step_log env version hread
  rw [hlog, State.received_log hread]
  simp only [List.mem_append, List.mem_singleton, reduceCtorEq, or_false]
  constructor
  · rintro (h | ((h | h) | h) | h)
    · exact .inl h
    · obtain ⟨asked, hmem, heq⟩ := List.mem_map.mp h
      cases heq
      exact .inr ⟨rfl, Option.mem_toList.mp hmem⟩
    · exact absurd rfl ((hbefore _ h).2.2.1 place' request)
    · rcases hreply with ⟨rfl, -⟩ | ⟨value, sent, rfl, -⟩
      · cases h
      · cases List.mem_singleton.mp h
    · cases hafter _ h
  · rintro (h | ⟨rfl, h⟩)
    · exact .inl h
    · exact .inr (.inl (.inl (.inl (List.mem_map.mpr ⟨request, Option.mem_toList.mpr h, rfl⟩))))

/-- Replies are never taken back. -/
theorem replies_step {state : State E} {value : Value} (h : value ∈ replies state.world.log) :
    value ∈ replies (step env version state).world.log := by
  cases hread : state.received env with
  | none =>
    rw [step_of_received_none version hread]
    exact h
  | some read =>
    obtain ⟨place, result, world⟩ := read
    obtain ⟨events, hlog, -⟩ := step_answers env version hread
    rw [hlog, State.received_log hread, replies, List.filterMap_append, List.filterMap_append]
    exact List.mem_append_left _ (List.mem_append_left _ h)

/-- **Where every reply can be sent the frames decide alone.** -/
theorem step_stops {state : State E} {place : Place} {result : Except FrameError String}
    {world : World E} (hread : state.received env = some (place, result, world))
    (haccepting : Accepting world.stream)
    (hfits : ∀ value ∈ replies (step env version state).world.log, SendFits env value) :
    (step env version state).how = state.stops (heardRead env state.outstanding result) := by
  have hstops := state.course_stops env version (heardRead env state.outstanding result) world
  have hsound := State.course_sound env version hread
  cases hcourse : state.course env version (heardRead env state.outstanding result) world with
  | silent state' =>
    rw [hcourse] at hstops
    rw [step_eq_settle env version hread, hcourse]
    exact hstops
  | reply exchange =>
    rw [hcourse] at hstops hsound
    obtain ⟨-, hbefore, -⟩ := hsound
    have hstream : exchange.world.stream = world.stream := hbefore.2
    have hsent : exchange.value ∈ replies (step env version state).world.log := by
      rw [replies_settled env version hread hcourse]
      exact List.mem_append_right _ List.mem_cons_self
    obtain ⟨stream, hsend, -⟩ := send_fits env (hstream.symm ▸ haccepting) (hfits _ hsent)
    rw [step_eq_settle env version hread, hcourse]
    simp only [Course.settle, hsend]
    exact hstops _

/-- A whole frame is refused or decoded. -/
theorem heardRead_body (env : Env E) (outstanding : Finset String) (body : String) :
    (∃ refusal, heardRead env outstanding (.ok body) = .refused refusal) ∨
      ∃ request, heardRead env outstanding (.ok body) = .request request := by
  simp only [heardRead, heardBody]
  cases Message.decodeRequest env.host body outstanding with
  | error refusal => exact .inl ⟨refusal, rfl⟩
  | ok request => exact .inr ⟨request, rfl⟩

/-- A whole frame ends a connection only as a `shutdown` of the main loop. -/
theorem stops_body {state : State E} {place : Place} {body : String} {world : World E}
    (hread : state.received env = some (place, .ok body, world)) :
    (state.stops (heardRead env state.outstanding (.ok body)) = none ∨
        state.stops (heardRead env state.outstanding (.ok body)) = some .shutdownRequested) ∧
      (state.stops (heardRead env state.outstanding (.ok body)) = some .shutdownRequested ↔
        place = .main ∧ ∃ request,
          (heardRead env state.outstanding (.ok body)).asked = some request ∧
          request.operation = .shutdown) := by
  have hplace := congrArg (Option.map Prod.fst) hread
  cases state with
  | ended how slot before => cases hread
  | main slot outstanding before =>
    have hplace : place = .main := (Option.some.inj hplace).symm
    rcases heardRead_body env outstanding body with ⟨refusal, h⟩ | ⟨request, h⟩
    · simp [State.outstanding, h, State.stops, Heard.asked]
    · by_cases hop : request.operation = .shutdown
      · simp [State.outstanding, h, State.stops, Heard.asked, hplace, hop]
      · simp [State.outstanding, h, State.stops, Heard.asked, hop]
  | region region outstanding before =>
    have hplace : place = .region := (Option.some.inj hplace).symm
    rcases heardRead_body env region.outstanding body with ⟨refusal, h⟩ | ⟨request, h⟩
    · simp [State.outstanding, h, State.stops, hplace]
    · simp [State.outstanding, h, State.stops, hplace]

/-! ## What the bytes decide -/

/-- What a connection that could send every reply has come to, by the
bytes it was sent. -/
structure Reached (env : Env E) (bytes : List UInt8) (state : State E) : Prop where
  refused : OpeningRefused env bytes ↔ state.how = some .handshakeRefused
  shutdown : ShutdownDecoded state.world.log ↔ state.how = some .shutdownRequested
  framed : state.how = none →
    Framed env.limits.maxFrameBytes bytes (content state.world.stream.incoming)
  closed : state.how = some .clientClosed → EndsOnBoundary env.limits.maxFrameBytes bytes
  broken : state.how = some .transportFailed → Breaks env.limits.maxFrameBytes bytes

/-- Where a connection stands in its input, over a transport that takes
every write. -/
structure Going (env : Env E) (bytes : List UInt8) (state : State E) : Prop where
  delivers : Delivers state.world.stream.incoming
  accepting : Accepting state.world.stream
  read : ∃ read, bytes = read ++ content state.world.stream.incoming
  reached : (∀ value ∈ replies state.world.log, SendFits env value) → Reached env bytes state

/-- What is left behind a read is a rear part of what there was. -/
theorem front_rear (maximum : UInt32) (bytes : List UInt8) :
    ∃ read, bytes = read ++ (front maximum bytes).2 := by
  have hall : ∃ n, (front maximum bytes).2 = bytes.drop n := by
    unfold front
    split
    · exact ⟨bytes.length, by rw [List.drop_length]⟩
    · split
      · exact ⟨bytes.length, by rw [List.drop_length]⟩
      · simp only
        split
        · exact ⟨_, rfl⟩
        · split
          · exact ⟨bytes.length, by rw [List.drop_length]⟩
          · split <;> exact ⟨_, List.drop_drop⟩
  obtain ⟨n, hn⟩ := hall
  exact ⟨bytes.take n, by rw [hn, List.take_append_drop]⟩

/-- A connection that ends at a failed read ends as the bytes do. -/
theorem Reached.failed {bytes rest : List UInt8} {state : State E} {error : FrameError}
    (hnever : ¬ OpeningRefused env bytes) (hnone : ¬ ShutdownDecoded state.world.log)
    (hframed : Framed env.limits.maxFrameBytes bytes rest)
    (hfront : (front env.limits.maxFrameBytes rest).1 = .error error)
    (hhow : state.how = some (if error = .closed then .clientClosed else .transportFailed)) :
    Reached env bytes state := by
  by_cases hclosed : error = .closed
  · rw [if_pos hclosed] at hhow
    refine ⟨iff_of_false hnever ?_, iff_of_false hnone ?_, ?_, fun _ => ?_, ?_⟩
    case refine_4 =>
      rw [hclosed] at hfront
      rw [front_closed hfront] at hframed
      exact hframed
    all_goals
      rw [hhow]
      intro hnot
      cases hnot
  · rw [if_neg hclosed] at hhow
    refine ⟨iff_of_false hnever ?_, iff_of_false hnone ?_, ?_, ?_,
      fun _ => ⟨rest, error, hframed, hfront, hclosed⟩⟩
    all_goals
      rw [hhow]
      intro hnot
      cases hnot

/-- What the step's frame does to what was reached. -/
theorem Reached.step {bytes : List UInt8} {state : State E} {place : Place}
    {result : Except FrameError String} {world : World E} (h : Reached env bytes state)
    (hread : state.received env = some (place, result, world))
    (hresult : result = (front env.limits.maxFrameBytes (content state.world.stream.incoming)).1)
    (hcontent : content world.stream.incoming
      = (front env.limits.maxFrameBytes (content state.world.stream.incoming)).2)
    (hhow : (NostdbServer.step env version state).how
      = state.stops (heardRead env state.outstanding result)) :
    Reached env bytes (NostdbServer.step env version state) := by
  have hgoing : state.how = none := by
    cases state with
    | ended how slot world => cases hread
    | _ => rfl
  have hframed := h.framed hgoing
  have hnever : ¬ OpeningRefused env bytes := fun hrefused => by
    rw [h.refused.mp hrefused] at hgoing
    cases hgoing
  have hnone : ¬ ShutdownDecoded state.world.log := fun hshutdown => by
    rw [h.shutdown.mp hshutdown] at hgoing
    cases hgoing
  have hincoming := step_incoming env version hread
  have hshutdown : ShutdownDecoded (NostdbServer.step env version state).world.log ↔
      place = .main ∧ ∃ request, (heardRead env state.outstanding result).asked = some request ∧
        request.operation = .shutdown := by
    constructor
    · rintro ⟨request, hmem, hop⟩
      rcases (decoded_step hread .main request).mp hmem with hmem | ⟨hplace, hasked⟩
      · exact absurd ⟨request, hmem, hop⟩ hnone
      · exact ⟨hplace.symm, request, hasked, hop⟩
    · rintro ⟨rfl, request, hasked, hop⟩
      exact ⟨request, (decoded_step hread .main request).mpr (.inr ⟨rfl, hasked⟩), hop⟩
  cases result with
  | error error =>
    have hends : (NostdbServer.step env version state).how
        = some (if error = .closed then .clientClosed else .transportFailed) := by
      rw [hhow]
      cases state with
      | ended how slot world => cases hread
      | _ => cases error <;> rfl
    have hnoShutdown : ¬ ShutdownDecoded (NostdbServer.step env version state).world.log := by
      rw [hshutdown]
      rintro ⟨-, request, hasked, -⟩
      cases hasked
    exact .failed hnever hnoShutdown hframed hresult.symm hends
  | ok body =>
    obtain ⟨hfits, hbytes⟩ := front_ok hresult.symm
    have hmore : Framed env.limits.maxFrameBytes bytes
        (content (NostdbServer.step env version state).world.stream.incoming) := by
      rw [hincoming, hcontent]
      exact hframed.snoc hfits hbytes
    obtain ⟨hends, hiff⟩ := stops_body hread
    rw [← hhow] at hends hiff
    have hiff := hshutdown.trans hiff.symm
    refine ⟨iff_of_false hnever ?_, hiff, fun _ => hmore, ?_, ?_⟩
    all_goals
      rcases hends with hends | hends <;> rw [hends] <;> intro hnot <;> cases hnot

/-- **The step lemma of endings.** -/
theorem Going.step {bytes : List UInt8} {state : State E} (h : Going env bytes state) :
    Going env bytes (NostdbServer.step env version state) := by
  cases hread : state.received env with
  | none =>
    rw [step_of_received_none version hread]
    exact h
  | some read =>
    obtain ⟨place, result, world⟩ := read
    have hframe := State.received_read env hread
    have hsame := readFrame_output state.world.stream env.limits.maxFrameBytes
    obtain ⟨hresult, hcontent, hdelivers⟩ :=
      readFrame_front env.limits.maxFrameBytes h.delivers
    rw [hframe] at hsame hresult hcontent hdelivers
    have hincoming := step_incoming env version hread
    have haccepting : Accepting world.stream := h.accepting.of_sameOutput hsame
    obtain ⟨before, hbefore⟩ := h.read
    refine ⟨hincoming ▸ hdelivers, ?_, ?_, fun hfits => ?_⟩
    · refine @step_world E env version (fun w => Accepting w.stream) _ _ _ _ hread
        (fun hquiet h => hquiet.2 ▸ h) (fun exchange _ h => ?_) haccepting
      exact (h.writeFrame (env.host.toString exchange.value) env.limits.maxFrameBytes).2
    · obtain ⟨taken, htaken⟩ := front_rear env.limits.maxFrameBytes
        (content state.world.stream.incoming)
      refine ⟨before ++ taken, ?_⟩
      rw [hincoming, hcontent, List.append_assoc, ← htaken]
      exact hbefore
    · have hreached := h.reached (fun value hmem => hfits value (replies_step hmem))
      exact hreached.step hread hresult hcontent (step_stops hread haccepting hfits)

end

/-- The handshake leaves the input as its read does, the transport taking
every write, and decodes nothing. -/
theorem start_world (env : Env E) {stream : Stream} (haccepting : Accepting stream) :
    let world := (start env stream).2.world
    world.stream.incoming = (readFrame stream env.limits.maxFrameBytes).2.incoming ∧
      Accepting world.stream ∧ ¬ ShutdownDecoded world.log := by
  have haccepting' : Accepting (receive env .opening ({ stream } : World E)).2.stream :=
    haccepting.of_sameOutput (readFrame_output stream env.limits.maxFrameBytes)
  have hlog : (receive env .opening ({ stream } : World E)).2.log
      = [.read .opening (readFrame stream env.limits.maxFrameBytes).1] := rfl
  have hhandshake : (start env stream).2.world = (handshake env ({ stream } : World E)).2 := by
    rcases start_cases env stream with ⟨how, h⟩ | h <;> rw [h] <;> rfl
  simp only [hhandshake]
  rcases handshake_world env ({ stream } : World E) with h | ⟨value, h⟩ <;> rw [h]
  · refine ⟨rfl, haccepting', ?_⟩
    rintro ⟨request, hmem, -⟩
    simp [hlog] at hmem
  · refine ⟨incoming_writeFrame _ _ _, (haccepting'.writeFrame _ _).2, ?_⟩
    rintro ⟨request, hmem, -⟩
    simp [log_send, hlog] at hmem

/-- How the opening frame leaves a connection that can send its reply. -/
theorem start_how (env : Env E) {stream : Stream} (haccepting : Accepting stream)
    (hfits : ∀ value ∈ replies (start env stream).2.world.log, SendFits env value) :
    (start env stream).2.how = match (readFrame stream env.limits.maxFrameBytes).1 with
      | .error error => some (if error = .closed then .clientClosed else .transportFailed)
      | .ok opening =>
          match (Message.decodeHello env.host opening).bind Message.negotiate with
          | .error _ => some .handshakeRefused
          | .ok _ => none := by
  have haccepting' : Accepting (receive env .opening ({ stream } : World E)).2.stream :=
    haccepting.of_sameOutput (readFrame_output stream env.limits.maxFrameBytes)
  have hresult : (receive env .opening ({ stream } : World E)).1
      = (readFrame stream env.limits.maxFrameBytes).1 := rfl
  rw [← hresult]
  unfold start handshake at hfits ⊢
  generalize receive env .opening ({ stream } : World E) = out at haccepting' hfits ⊢
  obtain ⟨result, world⟩ := out
  cases result with
  | error error => cases error <;> rfl
  | ok opening =>
    cases hoffer : (Message.decodeHello env.host opening).bind Message.negotiate with
    | error refusal =>
      simp only [hoffer]
      rfl
    | ok version =>
      simp only [hoffer] at hfits ⊢
      -- the welcome is among the replies, so it fits and is sent
      have hwelcome : SendFits env (Message.welcome version env.endpoint) := by
        apply hfits
        cases hsend : send env world (Message.welcome version env.endpoint) with
        | mk sent world' =>
          have hlog := log_send env world (Message.welcome version env.endpoint)
          rw [hsend] at hlog
          have hmem : Message.welcome version env.endpoint ∈ replies world'.log := by
            rw [hlog, replies, List.filterMap_append]
            exact List.mem_append_right _ List.mem_cons_self
          cases sent <;> exact hmem
      obtain ⟨stream', hsend, -⟩ := send_fits env haccepting' hwelcome
      rw [hsend]
      rfl

/-- **Behind the handshake** the opening frame is taken, and it decided how
the connection goes on. -/
theorem going_start (env : Env E) {stream : Stream} (hdelivers : Delivers stream.incoming)
    (haccepting : Accepting stream) :
    Going env (content stream.incoming) (start env stream).2 := by
  obtain ⟨hresult, hcontent, hdelivers'⟩ := readFrame_front env.limits.maxFrameBytes hdelivers
  obtain ⟨hincoming, haccepts, hnone⟩ := start_world env haccepting
  obtain ⟨taken, htaken⟩ := front_rear env.limits.maxFrameBytes (content stream.incoming)
  refine ⟨hincoming ▸ hdelivers', haccepts, ⟨taken, by rw [hincoming, hcontent, ← htaken]⟩,
    fun hfits => ?_⟩
  have hhow := start_how env haccepting hfits
  rw [hresult] at hhow
  cases hfront : (front env.limits.maxFrameBytes (content stream.incoming)).1 with
  | error error =>
    rw [hfront] at hhow
    have hnever : ¬ OpeningRefused env (content stream.incoming) := by
      rintro ⟨body, hbody, -⟩
      rw [hfront] at hbody
      cases hbody
    exact .failed hnever hnone (Framed.refl _ _) hfront hhow
  | ok opening =>
    rw [hfront] at hhow
    obtain ⟨hopening, hbytes⟩ := front_ok hfront
    cases hoffer : (Message.decodeHello env.host opening).bind Message.negotiate with
    | error refusal =>
      have hrefused : OpeningRefused env (content stream.incoming) := by
        refine ⟨opening, hfront, fun hone => ?_⟩
        rw [negotiate_decodeHello.mpr ⟨rfl, hone⟩] at hoffer
        cases hoffer
      simp only [hoffer] at hhow
      refine ⟨iff_of_true hrefused hhow, iff_of_false hnone ?_, ?_, ?_, ?_⟩
      all_goals
        rw [hhow]
        intro hnot
        cases hnot
    | ok version =>
      have hnever : ¬ OpeningRefused env (content stream.incoming) := by
        rintro ⟨body, hbody, hnot⟩
        rw [hfront] at hbody
        cases hbody
        exact hnot (negotiate_decodeHello.mp hoffer).2
      simp only [hoffer] at hhow
      have hframed : Framed env.limits.maxFrameBytes (content stream.incoming)
          (content (start env stream).2.world.stream.incoming) := by
        rw [hincoming, hcontent]
        exact (Framed.refl _ _).snoc hopening hbytes
      refine ⟨iff_of_false hnever ?_, iff_of_false hnone ?_, fun _ => hframed, ?_, ?_⟩
      all_goals
        rw [hhow]
        intro hnot
        cases hnot

/-- Wherever a connection stands it is going through its input. -/
theorem going_connection (env : Env E) {stream : Stream} (hdelivers : Delivers stream.incoming)
    (haccepting : Accepting stream) (n : Nat) :
    Going env (content stream.incoming) (connection env stream n) :=
  connection_invariant (fun _ h => h.step) (going_start env hdelivers haccepting) n

/-! ## A connection ends -/

/-- A handshake that goes through adds nothing to the input. -/
theorem handshake_remaining {env : Env E} {stream : Stream} {version : UInt64} {world : World E}
    (h : handshake env { stream } = (.ok version, world)) :
    remaining world.stream.incoming ≤ remaining stream.incoming := by
  unfold handshake at h
  have hread : readFrame stream env.limits.maxFrameBytes
      = ((receive env .opening ({ stream } : World E)).1,
        (receive env .opening ({ stream } : World E)).2.stream) := rfl
  generalize receive env .opening ({ stream } : World E) = received at h hread
  obtain ⟨result, opened⟩ := received
  cases result with
  | error error => cases error <;> cases h
  | ok opening =>
    have htaken := readFrame_remaining hread
    simp only at h
    cases hoffer : (Message.decodeHello env.host opening).bind Message.negotiate with
    | error refusal => simp [hoffer] at h
    | ok offered =>
      have hleft : (send env opened (Message.welcome offered env.endpoint)).2.stream.incoming
          = opened.stream.incoming := incoming_writeFrame _ _ _
      simp only [hoffer] at h
      generalize send env opened (Message.welcome offered env.endpoint) = sent at h hleft
      obtain ⟨result, world'⟩ := sent
      cases result with
      | error error => cases h
      | ok =>
        cases h
        have hleft := congrArg remaining hleft
        simp only at hleft htaken
        omega

/-- **Every connection ends**, whatever the transport does: its loops go
round no more often than the input has frames, and once. -/
theorem serveConnection_ends (env : Env E) (stream : Stream) (fuel : Nat)
    (hfuel : remaining stream.incoming < PREFIX_BYTES * fuel) :
    ∃ how slot world, serveConnection env fuel stream = .ended how slot world := by
  unfold serveConnection
  cases hhandshake : handshake env ({ stream } : World E) with
  | mk result world =>
    cases result with
    | error how => exact ⟨how, Slot.new, world, rfl⟩
    | ok version =>
      have hleft := handshake_remaining hhandshake
      exact mainLoop_ends env version fuel Slot.new ∅ world (hleft.trans_lt hfuel)

/-- A region's step ends no connection with a shutdown. -/
theorem step_region_how (env : Env E) (version : UInt64) (region : Region E)
    (outstanding : Finset String) (world : World E) :
    (step env version (.region region outstanding world)).how ≠ some .shutdownRequested := by
  simp only [step]
  cases regionTurn env version region world with
  | next region' world' => simp [State.ofRegion, State.how]
  | finish how slot world' => cases how <;> simp [State.ofRegion, State.how]

/-- **A connection ends, and its frames say how.** Over reads that only
deliver and writes that succeed, `serve_connection` returns behind no more
iterations than the input holds prefixes, and one, and has read a front of
the input. Where every reply it built is within the maximum, the end is
that of the bytes. -/
theorem connection_ends (env : Env E) (stream : Stream) (hdelivers : Delivers stream.incoming)
    (haccepting : Accepting stream) :
    (∀ version (state : State E), (step env version state).isEnded = true ∨
      remaining (step env version state).world.stream.incoming + 4
        ≤ remaining state.world.stream.incoming) ∧
    (∀ fuel, (content stream.incoming).length < 4 * fuel → ∃ how slot world,
      serveConnection env fuel stream = .ended how slot world ∧
      (∃ read, content stream.incoming = read ++ content world.stream.incoming) ∧
      ((∀ value ∈ replies world.log, SendFits env value) →
        (how = .handshakeRefused ↔ OpeningRefused env (content stream.incoming)) ∧
        (how = .shutdownRequested ↔ ShutdownDecoded world.log) ∧
        (how ≠ .handshakeRefused → how ≠ .shutdownRequested →
          (how = .clientClosed ↔
            EndsOnBoundary env.limits.maxFrameBytes (content stream.incoming)) ∧
          (how = .transportFailed ↔
            Breaks env.limits.maxFrameBytes (content stream.incoming))))) ∧
    ∀ version (region : Region E) outstanding world,
      (step env version (.region region outstanding world)).how ≠ some .shutdownRequested := by
  refine ⟨step_consumes env, fun fuel hfuel => ?_, step_region_how env⟩
  rw [content_length] at hfuel
  obtain ⟨how, slot, world, hserve⟩ := serveConnection_ends env stream fuel hfuel
  obtain ⟨n, hconnection⟩ := serveConnection_eq_connection env fuel stream
  have hgoing := going_connection env hdelivers haccepting n
  rw [← hconnection, hserve] at hgoing
  refine ⟨how, slot, world, hserve, hgoing.read, fun hfits => ?_⟩
  have hreached := hgoing.reached hfits
  have hhow (how' : Ended) : (State.ended how slot world : State E).how = some how' ↔ how = how' :=
    Option.some_inj
  refine ⟨(hreached.refused.trans (hhow _)).symm, (hreached.shutdown.trans (hhow _)).symm,
    fun hrefused hshutdown => ?_⟩
  have hclosed (h : how = .clientClosed) := hreached.closed ((hhow _).mpr h)
  have hbroken (h : how = .transportFailed) := hreached.broken ((hhow _).mpr h)
  -- bytes that end on a boundary do not break, and one of the two ends is left
  cases how with
  | handshakeRefused => exact absurd rfl hrefused
  | shutdownRequested => exact absurd rfl hshutdown
  | clientClosed =>
    have hends := hclosed rfl
    exact ⟨iff_of_true rfl hends, iff_of_false (by simp) hends.not_breaks⟩
  | transportFailed =>
    have hbreaks := hbroken rfl
    exact ⟨iff_of_false (by simp) (fun hends => hends.not_breaks hbreaks), iff_of_true rfl hbreaks⟩

/-- A client that is cut off inside the prefix of its first request. -/
def cutOff : Stream where
  incoming := [.data (encode sayHello.write), .data [0, 0]]

/-- A daemon that reads its opening, under the default limits. -/
def cutOffEnv : Env Engine.journal := Env.conversing Limits.default workCatalog [sayHello]

/-- The cut is told from a close. -/
theorem connection_ends_cutOff : ∃ slot world,
    serveConnection cutOffEnv 30 cutOff = .ended .transportFailed slot world := by
  have hdelivers : Delivers cutOff.incoming := by
    intro event hevent
    rcases List.mem_pair.mp hevent with rfl | rfl
    · exact .inr ⟨_, by decide +kernel, rfl⟩
    · exact .inr ⟨_, by decide, rfl⟩
  have haccepting : Accepting cutOff := ⟨by simp [Accepts, cutOff], by simp [cutOff]⟩
  obtain ⟨-, hends, -⟩ := connection_ends cutOffEnv cutOff hdelivers haccepting
  obtain ⟨how, slot, world, hserve, -, hexact⟩ := hends 30 (by decide +kernel)
  have hworld : (serveConnection cutOffEnv 30 cutOff).world = world := by rw [hserve]; rfl
  have hfits : ∀ value ∈ replies (serveConnection cutOffEnv 30 cutOff).world.log,
      SendFits cutOffEnv value := by
    decide +kernel
  have hnone : ∀ event ∈ (serveConnection cutOffEnv 30 cutOff).world.log,
      event.request.isNone = true := by
    decide +kernel
  rw [hworld] at hfits hnone
  obtain ⟨hrefused, hshutdown, hrest⟩ := hexact hfits
  have hopening : (front 8388608 (content cutOff.incoming)).1 = .ok sayHello.write := by
    decide +kernel
  have hoffer : (Message.decodeHello cutOffEnv.host sayHello.write).bind Message.negotiate
      = .ok 1 := by
    decide +kernel
  have hnotRefused : how ≠ .handshakeRefused := by
    intro hhow
    obtain ⟨body, hbody, hnot⟩ := hrefused.mp hhow
    cases hopening.symm.trans hbody
    exact hnot (negotiate_decodeHello.mp hoffer).2
  have hnotShutdown : how ≠ .shutdownRequested := by
    intro hhow
    obtain ⟨request, hmem, -⟩ := hshutdown.mp hhow
    cases hnone _ hmem
  have hbreaks : Breaks cutOffEnv.limits.maxFrameBytes (content cutOff.incoming) :=
    ⟨[0, 0], .truncated, ⟨[sayHello.write], by decide +kernel, by decide +kernel⟩, rfl, by simp⟩
  obtain rfl := (hrest hnotRefused hnotShutdown).2.mpr hbreaks
  exact ⟨slot, world, hserve⟩

end NostdbServer
