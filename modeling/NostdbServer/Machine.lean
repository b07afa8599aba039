import NostdbServer.Lib.Run
import NostdbServer.Serve

/-!
# Machine — the nested loops as one flat machine

`step` handles one frame: a turn of the main loop (entering the region
where `begin` was accepted) or a turn of the region's loop. The nested
loops are runs of it (`serveConnection_eq_connection`), so a property that
every step keeps holds wherever `serveConnection` stands, at each read of
either loop and at its end.

What the log says of the state (`State.world`) and of the client's side
(`replies`) is here too.
-/

namespace NostdbServer

variable {E : Engine}

/-! ## Reading a state -/

def State.world : State E → World E
  | .main _ _ world => world
  | .region _ _ world => world
  | .ended _ _ world => world

def RegionTurn.world : RegionTurn E → World E
  | .next _ world => world
  | .finish _ _ world => world

def MainTurn.world : MainTurn E → World E
  | .next _ _ world => world
  | .transaction _ _ _ world => world
  | .finish _ _ world => world

/-- The reply an event put out. -/
def Event.reply : Event E → Option Value
  | .sent value _ => some value
  | _ => none

/-- The replies put out, in order, whether or not they could be sent. -/
def replies (log : List (Event E)) : List Value := log.filterMap Event.reply

def Event.isRead : Event E → Bool
  | .read _ _ => true
  | _ => false

/-- The events before the next read. -/
def untilRead (log : List (Event E)) : List (Event E) := log.takeWhile (fun e => !e.isRead)

/-! ## The flat machine -/

section

variable (env : Env E) (version : UInt64)

/-- Handles one frame. An ended connection stays. -/
def step : State E → State E
  | .main slot outstanding world =>
      match mainTurn env version slot outstanding world with
      | .next slot outstanding world => .main slot outstanding world
      | .transaction begin slot outstanding world =>
          State.ofRegion outstanding (enterRegion env version slot begin world)
      | .finish how slot world => .ended how slot world
  | .region region outstanding world =>
      State.ofRegion outstanding (regionTurn env version region world)
  | .ended how slot world => .ended how slot world

/-! ## What a step is made of -/

/-- The state with another world. -/
def State.withWorld (world : World E) : State E → State E
  | .main slot outstanding _ => .main slot outstanding world
  | .region inner outstanding _ => .region inner outstanding world
  | .ended how slot _ => .ended how slot world

/-- What the state's loop reads, and the world behind the read. -/
def State.received : State E → Option (Place × Except FrameError String × World E)
  | .main _ _ world => some (.main, receive env .main world)
  | .region _ _ world => some (.region, receive env .region world)
  | .ended _ _ _ => none

/-- The committed database of a region's session is replaced. -/
def Region.slotWith (region : Region E) (database : E.Database) : Slot E.Database :=
  { region with session := { region.session with database } : Region E }.slot

/-- A relation between states that holds of each thing a connection does
behind a read. -/
structure Walk (R : State E → State E → Prop) : Prop where
  refl : ∀ state, R state state
  trans : ∀ {s t u : State E}, R s t → R t u → R s u
  sent : ∀ (state : State E) value,
    R state (state.withWorld (send env state.world value).2)
  outstanding : ∀ slot outstanding outstanding' world,
    R (.main slot outstanding world) (.main slot outstanding' world)
  dispatched : ∀ request slot outstanding world,
    let out := dispatch env version request slot (world.logging [.decoded .main request])
    R (.main slot outstanding world) (.main out.2.1 outstanding out.2.2)
  ended : ∀ how slot outstanding world,
    R (.main slot outstanding world) (.ended how slot world)
  closed : ∀ how slot outstanding world,
    R (.main slot outstanding world) (.ended how slot.close.2 (world.logging [.closed]))
  began : ∀ {request : Request} {slot session transaction} outstanding world,
    slot.resolve request.sessionId = .ok session → E.begin session.database = .ok transaction →
    R (.main slot outstanding world)
      (.region ⟨session, slot.next, transaction, E.baseGeneration transaction, ∅⟩ outstanding
        (world.logging [.began session.database]))
  decoded : ∀ {request : Request} region outstanding world, request.operation ≠ .commit →
    R (.region region outstanding world)
      (.region { region with outstanding := insert request.requestId region.outstanding }
        outstanding (world.logging [.decoded .region request]))
  answered : ∀ (request : Request) region outstanding world,
    R (.region region outstanding world)
      (.region { region with outstanding := region.outstanding.erase request.requestId }
        outstanding world)
  ran : ∀ request statement region outstanding world,
    let out := region.run env version request statement world
    R (.region region outstanding world)
      (.region { region with transaction := out.2.1 } outstanding out.2.2)
  committed : ∀ {request : Request} region outstanding world, request.operation = .commit →
    let out := E.commit region.transaction region.session.database
    R (.region region outstanding world)
      (.main (region.slotWith out.2) outstanding
        ((world.logging [.decoded .region request]).logging
          [.committed request region.session.database out.1 out.2]))
  rolledBack : ∀ region outstanding world,
    let database := E.rollback region.transaction region.session.database
    R (.region region outstanding world)
      (.main (region.slotWith database) outstanding (world.logging [.rolledBack database]))

namespace Walk

variable {env version} {R : State E → State E → Prop} (h : Walk env version R)

include h

/-- Where a region ended, seen from the slot it gave back. -/
theorem finish (how : RegionEnd) (slot : Slot E.Database) (outstanding : Finset String)
    (world : World E) :
    R (.main slot outstanding world) (State.ofRegion outstanding (.finish how slot world)) := by
  cases how with
  | «continue» => exact h.refl _
  | clientClosed => exact h.closed _ _ _ _
  | transportFailed => exact h.ended _ _ _ _

theorem rollback (region : Region E) (how : RegionEnd) (outstanding : Finset String)
    (world : World E) :
    R (.region region outstanding world)
      (State.ofRegion outstanding (region.rollback how world)) :=
  h.trans (h.rolledBack region outstanding world) (h.finish how _ outstanding _)

/-- A reply whose failed send rolls the region back. -/
theorem sentOrRolledBack (value : Value) (region : Region E) (outstanding : Finset String)
    (world : World E) :
    R (.region region outstanding world) (State.ofRegion outstanding
      (match send env world value with
      | (.error _, world) => region.rollback .transportFailed world
      | (.ok (), world) => .next region world)) := by
  have hsend := h.sent (.region region outstanding world) value
  simp only [State.withWorld, State.world] at hsend
  split
  · rename_i hsent
    rw [hsent] at hsend
    exact h.trans hsend (h.rollback region .transportFailed outstanding _)
  · rename_i hsent
    rw [hsent] at hsend
    exact hsend

theorem answer (request : Request) (value : Value) (region : Region E)
    (outstanding : Finset String) (world : World E) :
    R (.region region outstanding world)
      (State.ofRegion outstanding (region.answer env request value world)) :=
  h.trans (h.answered request region outstanding world)
    (h.sentOrRolledBack value _ outstanding world)

/-- One decoded request inside a region, its decoding included. -/
theorem handle (request : Request) (region : Region E) (outstanding : Finset String)
    (world : World E) :
    R (.region region outstanding world) (State.ofRegion outstanding
      (region.handle env version request (world.logging [.decoded .region request]))) := by
  have hdecoded (hop : request.operation ≠ .commit) := h.decoded region outstanding world hop
  unfold Region.handle
  simp only
  split
  · rename_i hop
    exact h.trans (h.committed region outstanding world hop) (h.sent (.main _ outstanding _) _)
  · rename_i hop
    exact h.trans (hdecoded (by simp [hop])) (h.trans (h.rolledBack _ outstanding _)
      (h.sent (.main _ outstanding _) _))
  · rename_i hop
    refine h.trans (hdecoded (by simp [hop])) ?_
    unfold Region.query
    split
    · exact h.sent (.region _ outstanding _) _
    · exact h.trans (h.ran request _ _ outstanding _) (h.answer request _ _ outstanding _)
  all_goals
    rename_i hop
    exact h.trans (hdecoded (by simp [hop])) (h.answer request _ _ outstanding _)

/-- A `begin` that was dispatched: refused, failed, or a region. -/
theorem enterRegion (slot : Slot E.Database) (begin : Request) (outstanding : Finset String)
    (world : World E) :
    R (.main slot outstanding world)
      (State.ofRegion outstanding (enterRegion env version slot begin world)) := by
  unfold NostdbServer.enterRegion
  split
  · exact h.sent (.main slot outstanding world) _
  · rename_i session hresolve
    split
    · exact h.sent (.main slot outstanding world) _
    · rename_i transaction hbegin
      exact h.trans (h.began outstanding world hresolve hbegin)
        (h.sentOrRolledBack _ _ outstanding _)

/-- What a turn of the main loop does behind its read. -/
theorem mainStep {slot : Slot E.Database} {outstanding : Finset String} {before world : World E}
    {result : Except FrameError String} (hread : receive env .main before = (result, world)) :
    R (.main slot outstanding world) (step env version (.main slot outstanding before)) := by
  simp only [step, mainTurn, hread]
  cases result with
  | error error =>
    cases error with
    | closed => exact h.closed _ _ _ _
    | tooLarge declared maximum =>
      exact h.trans (h.sent (.main slot outstanding world) _) (h.ended _ _ _ _)
    | _ => exact h.ended _ _ _ _
  | ok body =>
    cases hdecode : Message.decodeRequest env.host body outstanding with
    | error refusal =>
      simp only [hdecode]
      exact h.sent (.main slot outstanding world) _
    | ok request =>
      simp only [hdecode]
      have hdispatch := h.trans (h.dispatched request slot outstanding world)
        (h.outstanding _ _ ((insert request.requestId outstanding).erase request.requestId) _)
      generalize dispatch env version request slot (world.logging [.decoded .main request]) = out
        at hdispatch
      obtain ⟨reply, slot', world'⟩ := out
      cases reply with
      | send value =>
        have hsend := h.trans hdispatch (h.sent (.main slot' _ world') value)
        simp only [State.withWorld, State.world] at hsend ⊢
        cases hsent : NostdbServer.send env world' value with
        | mk result world'' =>
          rw [hsent] at hsend
          rcases result with error | ⟨⟩
          · exact h.trans hsend (h.ended _ _ _ _)
          · exact hsend
      | transaction => exact h.trans hdispatch (h.enterRegion slot' request _ world')
      | shutdown value =>
        exact h.trans (h.trans hdispatch (h.sent (.main slot' _ world') value)) (h.closed _ _ _ _)

/-- What a turn of the region's loop does behind its read. -/
theorem regionStep {region : Region E} {outstanding : Finset String} {before world : World E}
    {result : Except FrameError String} (hread : receive env .region before = (result, world)) :
    R (.region region outstanding world)
      (step env version (.region region outstanding before)) := by
  simp only [step, regionTurn, hread]
  cases result with
  | error error => cases error <;> exact h.rollback region _ outstanding world
  | ok body =>
    cases hdecode : Message.decodeRequest env.host body region.outstanding with
    | error refusal =>
      simp only [hdecode]
      exact h.sentOrRolledBack _ region outstanding world
    | ok request =>
      simp only [hdecode]
      exact h.handle request region outstanding world

/-- **The step rule**: behind its read, a step is in the relation. -/
theorem step {state : State E} {place : Place} {result : Except FrameError String}
    {world : World E} (hread : state.received env = some (place, result, world)) :
    R (state.withWorld world) (step env version state) := by
  cases state with
  | main slot outstanding before =>
    exact h.mainStep (by simpa [State.received] using congrArg (Option.map Prod.snd) hread)
  | region region outstanding before =>
    exact h.regionStep (by simpa [State.received] using congrArg (Option.map Prod.snd) hread)
  | ended how slot world => cases hread

end Walk

theorem State.received_log {env : Env E} {state : State E} {place : Place}
    {result : Except FrameError String} {world : World E}
    (h : state.received env = some (place, result, world)) :
    world.log = state.world.log ++ [.read place result] := by
  cases state <;> cases h <;> rfl

/-- A state that reads nothing has ended, and stays. -/
theorem step_of_received_none {env : Env E} {state : State E} (h : state.received env = none) :
    step env version state = state := by
  cases state with
  | ended how slot world => rfl
  | _ => cases h

/-! ## The nested loops -/

/-- The region's loop is a run of the machine. -/
theorem regionLoop_eq_iterate (fuel : Nat) (region : Region E) (outstanding : Finset String)
    (world : World E) : ∃ n,
      State.ofRegion outstanding (regionLoop env version fuel region world)
        = (step env version)^[n] (.region region outstanding world) := by
  induction fuel generalizing region world with
  | zero => exact ⟨0, rfl⟩
  | succ fuel ih =>
    simp only [regionLoop]
    cases hturn : regionTurn env version region world with
    | next region' world' =>
      obtain ⟨n, hn⟩ := ih region' world'
      have hstep : step env version (.region region outstanding world)
          = .region region' outstanding world' := by
        simp only [step, hturn, State.ofRegion]
      exact ⟨n + 1, by rw [Function.iterate_succ_apply, hstep, hn]⟩
    | finish how slot world' =>
      refine ⟨1, ?_⟩
      simp only [Function.iterate_one, step, hturn]

/-- A region from `begin` to its end is a run of the machine. -/
theorem runTransactionRegion_eq_iterate (fuel : Nat) (slot : Slot E.Database) (begin : Request)
    (outstanding : Finset String) (world : World E) : ∃ n,
      State.ofRegion outstanding (runTransactionRegion env version fuel slot begin world)
        = (step env version)^[n]
            (State.ofRegion outstanding (enterRegion env version slot begin world)) := by
  simp only [runTransactionRegion]
  cases hturn : enterRegion env version slot begin world with
  | next region world' => exact regionLoop_eq_iterate env version fuel region outstanding world'
  | finish how slot' world' => exact ⟨0, rfl⟩

/-- The main loop is a run of the machine. -/
theorem mainLoop_eq_iterate (fuel : Nat) (slot : Slot E.Database) (outstanding : Finset String)
    (world : World E) : ∃ n,
      mainLoop env version fuel slot outstanding world
        = (step env version)^[n] (.main slot outstanding world) := by
  induction fuel generalizing slot outstanding world with
  | zero => exact ⟨0, rfl⟩
  | succ fuel ih =>
    simp only [mainLoop]
    cases hturn : mainTurn env version slot outstanding world with
    | next slot' outstanding' world' =>
      obtain ⟨n, hn⟩ := ih slot' outstanding' world'
      refine ⟨n + 1, ?_⟩
      simp only [hn, Function.iterate_succ_apply, step, hturn]
    | finish how slot' world' =>
      refine ⟨1, ?_⟩
      simp only [Function.iterate_one, step, hturn]
    | transaction begin slot' outstanding' world' =>
      -- one step enters the region, `m` more are the region's loop
      obtain ⟨m, hm⟩ := runTransactionRegion_eq_iterate env version fuel slot' begin outstanding'
        world'
      have hstep : (step env version)^[m + 1] (.main slot outstanding world)
          = State.ofRegion outstanding'
              (runTransactionRegion env version fuel slot' begin world') := by
        rw [hm, Function.iterate_succ_apply]
        simp only [step, hturn]
      cases hregion : State.ofRegion outstanding'
          (runTransactionRegion env version fuel slot' begin world') with
      | main slot'' outstanding'' world'' =>
        obtain ⟨n, hn⟩ := ih slot'' outstanding'' world''
        refine ⟨n + (m + 1), ?_⟩
        simp only [hn, Function.iterate_add_apply, hstep, hregion]
      | region inner outstanding'' world'' =>
        refine ⟨m + 1, ?_⟩
        simp only [hstep, hregion]
      | ended how slot'' world'' =>
        refine ⟨m + 1, ?_⟩
        simp only [hstep, hregion]

end

/-- The state a connection is in once the handshake is over, with the
version agreed on. -/
def start (env : Env E) (stream : Stream) : UInt64 × State E :=
  match handshake env { stream } with
  | (.error how, world) => (0, .ended how Slot.new world)
  | (.ok version, world) => (version, .main Slot.new ∅ world)

/-- The state of a connection behind the handshake and `n` frames. -/
def connection (env : Env E) (stream : Stream) (n : Nat) : State E :=
  (step env (start env stream).1)^[n] (start env stream).2

theorem connection_succ (env : Env E) (stream : Stream) (n : Nat) :
    connection env stream (n + 1) = step env (start env stream).1 (connection env stream n) :=
  Function.iterate_succ_apply' _ _ _

/-- The handshake reads once, and sends at most once. -/
theorem handshake_world (env : Env E) (world : World E) :
    (handshake env world).2 = (receive env .opening world).2 ∨
      ∃ value, (handshake env world).2 = (send env (receive env .opening world).2 value).2 := by
  unfold handshake
  split
  · rename_i hread
    exact .inl (by rw [hread])
  · rename_i hread
    exact .inl (by rw [hread])
  · rename_i opening world' hread
    rw [hread]
    split
    · exact .inr ⟨_, rfl⟩
    · rename_i version _
      refine .inr ⟨Message.welcome version env.endpoint, ?_⟩
      split <;> rename_i hsent <;> rw [hsent]

/-- Behind the handshake no session is open. -/
theorem start_cases (env : Env E) (stream : Stream) :
    (∃ how, (start env stream).2 = .ended how Slot.new (handshake env { stream }).2) ∨
      (start env stream).2 = .main Slot.new ∅ (handshake env { stream }).2 := by
  unfold start
  cases handshake env { stream } with
  | mk result world =>
    cases result with
    | error how => exact .inl ⟨how, rfl⟩
    | ok version => exact .inr rfl

/-- What the handshake establishes and every step keeps holds wherever a
connection stands. -/
theorem connection_invariant {env : Env E} {stream : Stream} {inv : State E → Prop}
    (hstep : ∀ state, inv state → inv (step env (start env stream).1 state))
    (hstart : inv (start env stream).2) (n : Nat) : inv (connection env stream n) :=
  Run.invariant_iterate hstep n hstart

/-- **The nested loops are runs of the flat machine**: wherever
`serveConnection` stands, the connection stands behind some number of
frames. -/
theorem serveConnection_eq_connection (env : Env E) (fuel : Nat) (stream : Stream) : ∃ n,
    serveConnection env fuel stream = connection env stream n := by
  unfold connection serveConnection start
  cases handshake env { stream } with
  | mk result world =>
    cases result with
    | error how => exact ⟨0, rfl⟩
    | ok version => exact mainLoop_eq_iterate env version fuel Slot.new ∅ world

end NostdbServer
