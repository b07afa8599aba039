import NostdbServer.Ending
import NostdbServer.Endpoint
import NostdbServer.WakeUp

/-!
# Daemon — the binary, and what stops it

`src/main.rs`, over what `start` and `accept_until_shutdown` came to. A
connection ends as a requested shutdown exactly where it decoded `shutdown`
outside a transaction, whatever its transport does (`shutdown_iff_decoded`);
the flag is stored for such a connection alone; and the loop returns `Ok`
only with the flag set. So a daemon that could accept and spawn stops only
when a client asked it to, and exits with success then and only then
(`stops_only_when_asked`).
-/

namespace NostdbServer

variable {E : Engine}

/-! ## The binary -/

/-- An exit status, `ExitCode`. -/
inductive ExitCode where
  | success
  | failure
  /-- The command is unknown, `ExitCode::from(2)`. -/
  | usage
  deriving DecidableEq, Repr

/-- What a process printed, and how it exited. -/
structure Exited where
  stdout : List String := []
  stderr : List String := []
  code : ExitCode
  deriving DecidableEq, Repr

/-- What `start` came to, `Started`. -/
inductive Started where
  | running (address : Path)
  | alreadyRunning (address : Path) (code : Code)
  deriving DecidableEq, Repr

namespace Main

def USAGE : String :=
  "nostdb-server — the NostDB per-user local daemon\n\nUsage:\n" ++
  "  nostdb-server [run]      Acquire the single-instance lock and bind the endpoint\n" ++
  "  nostdb-server status     Report whether a daemon is running for this user\n" ++
  "  nostdb-server help       Show this text\n\n" ++
  "The user-facing surface is \x60nostdb server ...\x60, which starts this process.\n"

/-- An error is reported on the standard error. -/
def fails (error : String) : Exited :=
  { stderr := ["nostdb-server: " ++ error], code := .failure }

/-- `run`, over what `start` and `Catalog::default_path` give and what
`accept_until_shutdown` comes to. -/
def run (start : Except String Started) (catalogPath : Except String Path)
    (accept : Path → Path → Except String Unit) : Exited :=
  match start with
  | .ok (.running address) =>
      let listening := "listening on " ++ address.display
      match catalogPath with
      | .error error => { fails error with stdout := [listening] }
      | .ok catalogPath =>
          match accept address catalogPath with
          | .ok () => { stdout := [listening], code := .success }
          | .error error => { fails error with stdout := [listening] }
  | .ok (.alreadyRunning address code) =>
      { stdout := [code.asStr ++ ": already listening on " ++ address.display], code := .success }
  | .error error => fails error

/-- `status`, over what `is_running` gives. -/
def status : Except String Bool → Exited
  | .ok true => { stdout := ["running"], code := .success }
  | .ok false => { stdout := ["not running"], code := .success }
  | .error error => fails error

/-- `main`, with the arguments behind the program's name. -/
def main (arguments : List String) (run status : Exited) : Exited :=
  match arguments.head?.getD "run" with
  | "run" => run
  | "status" => status
  | "--help" | "-h" | "help" => { stdout := [USAGE], code := .success }
  | other => { stderr := ["nostdb-server: unknown command " ++ other ++ "\n\n" ++ USAGE],
               code := .usage }

end Main

/-! ## A shutdown is asked for -/

/-- A reply whose send fails ends the connection as a shutdown only where
the reply is to one. -/
def Course.LosesAs (stops : Option Ended) : Course E → Prop
  | .silent _ => True
  | .reply exchange => ∀ world,
      (exchange.lost world).how = some .shutdownRequested ↔ stops = some .shutdownRequested

section

variable (env : Env E) (version : UInt64)

theorem Region.losesAs_reply (value : Value) (region : Region E) (outstanding : Finset String)
    (world : World E) : (region.reply value outstanding world).LosesAs none :=
  fun _ => by simp [Region.fail, Region.rollback, State.ofRegion, State.how]

theorem losesAs_begin (begin : Request) (slot : Slot E.Database) (outstanding : Finset String)
    (world : World E) : (beginCourse version begin slot outstanding world).LosesAs none := by
  unfold beginCourse
  split
  · exact fun _ => by simp [Exchange.unchecked, State.how]
  · split
    · exact fun _ => by simp [Exchange.unchecked, State.how]
    · exact Region.losesAs_reply _ _ outstanding _

theorem losesAs_mainCourseOf (request : Request) (slot : Slot E.Database)
    (outstanding : Finset String) (world : World E) :
    (mainCourseOf env version request slot outstanding world).LosesAs
      (if request.operation = .shutdown then some .shutdownRequested else none) := by
  have hshutdown := dispatch_shutdown_iff env version request slot world
  simp only [mainCourseOf]
  generalize dispatch env version request slot world = out at hshutdown ⊢
  obtain ⟨reply, slot', world'⟩ := out
  cases reply with
  | shutdown value =>
    rw [if_pos (hshutdown.mp ⟨value, _, rfl⟩)]
    exact fun _ => iff_of_true rfl rfl
  | send value =>
    rw [if_neg (fun h => by simpa using hshutdown.mpr h)]
    exact fun _ => by simp [State.how]
  | transaction =>
    rw [if_neg (fun h => by simpa using hshutdown.mpr h)]
    exact losesAs_begin version request slot' _ world'

theorem losesAs_courseOf (request : Request) (region : Region E) (outstanding : Finset String)
    (world : World E) :
    (region.courseOf env version request outstanding world).LosesAs none := by
  unfold Region.courseOf
  simp only
  split
  · exact fun _ => by simp [Exchange.unchecked, State.how]
  · exact fun _ => by simp [Exchange.unchecked, State.how]
  · split
    · exact fun _ => by simp [Exchange.unchecked, State.how]
    · exact Region.losesAs_reply _ _ outstanding _
  all_goals exact Region.losesAs_reply _ _ outstanding _

theorem State.course_loses (state : State E) (heard : Heard) (world : World E) :
    (state.course env version heard world).LosesAs (state.stops heard) := by
  cases state with
  | main slot outstanding before =>
    simp only [State.course, mainCourse, State.stops]
    cases heard with
    | failed error =>
      cases error with
      | tooLarge declared maximum => exact fun _ => by simp [Exchange.unchecked, State.how]
      | _ => trivial
    | refused refusal => exact fun _ => by simp [Exchange.unchecked, State.how]
    | request request => exact losesAs_mainCourseOf env version request slot outstanding _
  | region region outstanding before =>
    simp only [State.course, Region.course, State.stops]
    cases heard with
    | failed error => cases error <;> trivial
    | refused refusal => exact Region.losesAs_reply _ region outstanding world
    | request request => exact losesAs_courseOf env version request region outstanding _
  | ended how slot before => trivial

end

/-- A step ends a connection as a shutdown exactly where it heard one,
whether or not the reply was sent. -/
theorem step_shutdown_iff (env : Env E) (version : UInt64) {state : State E} {place : Place}
    {result : Except FrameError String} {world : World E}
    (hread : state.received env = some (place, result, world)) :
    (step env version state).how = some .shutdownRequested ↔
      state.stops (heardRead env state.outstanding result) = some .shutdownRequested := by
  have hstops := state.course_stops env version (heardRead env state.outstanding result) world
  have hloses := state.course_loses env version (heardRead env state.outstanding result) world
  rw [step_eq_settle env version hread]
  generalize state.course env version (heardRead env state.outstanding result) world = course
    at hstops hloses ⊢
  cases course with
  | silent state' => exact iff_of_eq (congrArg (· = some Ended.shutdownRequested) hstops)
  | reply exchange =>
    exact exchange.settle env
      (P := fun state' => state'.how = some .shutdownRequested ↔ _)
      (iff_of_eq (congrArg (· = some Ended.shutdownRequested) (hstops _))) (hloses _)

/-- The handshake ends no connection as a shutdown. -/
theorem start_how_ne (env : Env E) (stream : Stream) :
    (start env stream).2.how ≠ some .shutdownRequested := by
  have hhandshake : (handshake env ({ stream } : World E)).1 ≠ .error .shutdownRequested := by
    unfold handshake
    split
    · simp
    · simp
    · split
      · simp
      · split <;> simp
  unfold start
  generalize handshake env ({ stream } : World E) = out at hhandshake
  obtain ⟨how | version, world⟩ := out
  · intro hhow
    exact hhandshake (congrArg Except.error (Option.some.inj hhow))
  · simp [State.how]

/-- **A connection ends as a requested shutdown exactly where it decoded
one** outside a transaction: whatever the transport does, and whether or
not the reply to it was sent. -/
theorem shutdown_iff_decoded (env : Env E) (stream : Stream) (n : Nat) :
    (connection env stream n).how = some .shutdownRequested ↔
      ShutdownDecoded (connection env stream n).world.log := by
  have hstep (state : State E)
      (h : state.how = some .shutdownRequested ↔ ShutdownDecoded state.world.log) :
      (step env (start env stream).1 state).how = some .shutdownRequested ↔
        ShutdownDecoded (step env (start env stream).1 state).world.log := by
    cases hread : state.received env with
    | none => rwa [step_of_received_none _ hread]
    | some read =>
      obtain ⟨place, result, world⟩ := read
      have hgoing : state.how ≠ some .shutdownRequested := by
        cases state with
        | ended how slot world => cases hread
        | _ => simp [State.how]
      have hnone : ¬ ShutdownDecoded state.world.log := fun hdecoded => hgoing (h.mpr hdecoded)
      have hdecoded : ShutdownDecoded (step env (start env stream).1 state).world.log ↔
          ∃ request, place = .main ∧
            (heardRead env state.outstanding result).asked = some request ∧
            request.operation = .shutdown := by
        constructor
        · rintro ⟨request, hmem, hop⟩
          rcases (decoded_step hread .main request).mp hmem with hmem | ⟨hplace, hasked⟩
          · exact absurd ⟨request, hmem, hop⟩ hnone
          · exact ⟨request, hplace.symm, hasked, hop⟩
        · rintro ⟨request, hplace, hasked, hop⟩
          exact ⟨request, (decoded_step hread .main request).mpr (.inr ⟨hplace.symm, hasked⟩), hop⟩
      rw [step_shutdown_iff env _ hread, hdecoded]
      cases result with
      | ok body =>
        rw [(stops_body hread).2]
        simp only [exists_and_left]
      | error error =>
        -- a read that failed ends the connection otherwise, and nothing is decoded of it
        refine iff_of_false ?_ (by simp [heardRead, Heard.asked])
        cases state with
        | ended how slot world => cases hread
        | _ => cases error <;> simp [heardRead, State.stops]
  have hstart : (start env stream).2.how = some .shutdownRequested ↔
      ShutdownDecoded (start env stream).2.world.log := by
    refine iff_of_false (start_how_ne env stream) ?_
    rintro ⟨request, hmem, -⟩
    have hworld : (start env stream).2.world = (handshake env ({ stream } : World E)).2 := by
      rcases start_cases env stream with ⟨how, h⟩ | h <;> rw [h] <;> rfl
    rw [hworld] at hmem
    rcases handshake_world env ({ stream } : World E) with h | ⟨value, h⟩ <;> rw [h] at hmem
    · simp [receive] at hmem
    · simp [receive, log_send] at hmem
  exact connection_invariant hstep hstart n

/-! ## The daemon stops only when asked -/

namespace AcceptLoop

open Run

variable {env : Nat → Env E} {stream : Nat → Stream}

/-- The client of a connection asked the daemon to stop: in the run, its
thread has served it to its end as a shutdown, with the `shutdown` it
decoded behind it. -/
def Asked (env : Nat → Env E) (stream : Nat → Stream) (acts : List Act) (c : Nat) : Prop :=
  Passes (step env stream) (fun s => ∃ state, s.thread c = .serving state ∧
    state.how = some .shutdownRequested ∧ ShutdownDecoded state.world.log) acts {}

/-- The thread of a connection is about to store the flag. -/
def Stops (c : Nat) (s : Server E) : Prop := s.thread c = .stopping

/-- A thread that returns from `serve_connection` to stop the daemon served
a connection that ended as a shutdown. -/
theorem shutdown_of_serve {env : Env E} {stream : Stream} {act : Serve} {thread : Thread E}
    (h : thread.serve env stream act = some .stopping) :
    ∃ state, thread = .serving state ∧ state.how = some .shutdownRequested := by
  cases thread with
  | serving state =>
    cases act with
    | leave =>
      cases state with
      | ended how slot world =>
        refine ⟨_, rfl, ?_⟩
        by_cases hhow : how = .shutdownRequested
        · exact congrArg some hhow
        · simp [Thread.serve, hhow] at h
      | _ => cases h
    | read => cases state <;> cases h
    | _ => cases h
  | _ => cases act <;> cases h

/-- **The cause of a stopping thread**: it has served a connection that
ended as a shutdown. -/
theorem stops_of_step {c : Nat} (s : Server E) (a : Act) (t : Server E)
    (hstep : step env stream a s = some t) (hstops : Stops c t) :
    Stops c s ∨ ∃ state, s.thread c = .serving state ∧ state.how = some .shutdownRequested := by
  have hmoved {d : Nat} {thread : Thread E} (hd : (s.moved d thread).thread c = .stopping)
      (hthread : thread ≠ .stopping) : Stops c s := by
    by_cases hcd : c = d
    · subst hcd
      rw [Server.moved_self] at hd
      exact absurd hd hthread
    · rwa [Server.moved_ne _ _ hcd] at hd
  cases outcome_of_step hstep with
  | connected | accepted | acceptFailed | checked | spawnPanicked => exact .inl hstops
  | spawned hloop => exact .inl (hmoved hstops (by simp))
  | @served d act thread hserve =>
    by_cases hcd : c = d
    · subst hcd
      obtain rfl : thread = .stopping := (Server.moved_self s c thread).symm.trans hstops
      exact .inr (shutdown_of_serve hserve)
    · exact .inl ((Server.moved_ne s thread hcd).symm.trans hstops)
  | stored hthread => exact .inl (hmoved hstops (by simp))
  | woke hthread => exact .inl (hmoved hstops (by simp))

/-- **The cause of the flag**: a thread was about to store it. -/
theorem stopping_of_step (s : Server E) (a : Act) (t : Server E)
    (hstep : step env stream a s = some t) (hstopping : t.stopping = true) :
    s.stopping = true ∨ ∃ c, Stops c s := by
  cases outcome_of_step hstep with
  | @stored c hthread => exact .inr ⟨c, hthread⟩
  | _ => exact .inl hstopping

/-- The loop returns `Ok` with the flag set. -/
theorem returned_of_step (s : Server E) (a : Act) (t : Server E)
    (h : s.loop = .returned .ok → s.stopping = true) (hstep : step env stream a s = some t) :
    t.loop = .returned .ok → t.stopping = true := by
  cases outcome_of_step hstep with
  | connected | served | woke => exact h
  | stored => exact fun _ => rfl
  | checked hloop => exact Server.stopping_of_checked
  | accepted | acceptFailed | spawned | spawnPanicked => simp

/-- Connections are only added. -/
theorem opened_mono {acts : List Act} {s t : Server E}
    (hrun : after (step env stream) acts s = some t) : s.opened ≤ t.opened := by
  have hadded : ∀ u a v, s.opened ≤ u.opened → step env stream a u = some v →
      s.opened ≤ v.opened := by
    intro u a v hu hstep
    cases outcome_of_step hstep with
    | connected | woke => exact Nat.le_succ_of_le hu
    | _ => exact hu
  exact invariant hadded (Nat.le_refl _) hrun

/-- A thread about to store the flag was asked to, by the client of a
connection that is open. -/
theorem asked_of_stops {acts : List Act} {s : Server E} {c : Nat} (hruns : Runs env stream acts s)
    (hstops : Stops c s) : c < s.opened ∧ Asked env stream acts c := by
  constructor
  · by_contra hlate
    have hunopened := (placed_of_runs hruns).unopened c (Nat.le_of_not_lt hlate)
    cases hunopened.symm.trans hstops
  · obtain ⟨front, behind, u, rfl, hu, state, hstate, hhow⟩ :=
      passes_of_step (q := Stops c) (fun s a t => stops_of_step s a t) (by simp [Stops]) hruns
        hstops
    refine ⟨front, behind, u, rfl, hu, state, hstate, hhow, ?_⟩
    obtain ⟨n, rfl⟩ := (placed_of_runs hu).connection c state (.inl hstate)
    exact (shutdown_iff_decoded (env c) (stream c) n).mp hhow

/-- **The flag is set for a client that asked.** -/
theorem asked_of_stopping {acts : List Act} {s : Server E} (hruns : Runs env stream acts s)
    (hstopping : s.stopping = true) : ∃ c < s.opened, Asked env stream acts c := by
  obtain ⟨front, behind, u, rfl, hu, c, hstops⟩ :=
    passes_of_step (fun s a t => stopping_of_step s a t) (by simp) hruns hstopping
  obtain ⟨v, hv, hrest⟩ := after_append.mp hruns
  obtain rfl : v = u := Option.some.inj (hv.symm.trans hu)
  obtain ⟨hopened, hasked⟩ := asked_of_stops hu hstops
  exact ⟨c, Nat.lt_of_lt_of_le hopened (opened_mono hrest), hasked.append behind⟩

/-- The loop has not failed. -/
def Works (s : Server E) : Prop :=
  s.loop ≠ .accepted none ∧ s.loop ≠ .returned .error ∧ s.loop ≠ .returned .panicked

theorem Works.step {a : Act} {s t : Server E} (h : Works s)
    (ha : a ≠ .acceptFails ∧ a ≠ .spawnPanics) (hstep : step env stream a s = some t) :
    Works t := by
  cases outcome_of_step hstep with
  | acceptFailed => exact absurd rfl ha.1
  | spawnPanicked => exact absurd rfl ha.2
  | accepted | spawned => simp [Works]
  | @checked incoming hloop =>
    cases incoming with
    | none => exact absurd hloop h.1
    | some c =>
      unfold Works
      simp only [Server.checked]
      split <;> simp
  | connected | served | stored | woke => exact h

/-- What `accept_until_shutdown` comes to, where it has returned. -/
def Loop.result (error : String) : Loop → Option (Except String Unit)
  | .returned .ok => some (.ok ())
  | .returned .error => some (.error error)
  | _ => none

/-- **The daemon stops only when asked**: in every run, whatever the
clients send and whichever threads panic, the flag is set and `run` exits
with success only where a client asked with a `shutdown` outside a
transaction; and where `accept` does not fail and every thread can be
spawned, the loop ends no other way. -/
theorem stops_only_when_asked {acts : List Act} {s : Server E} (hruns : Runs env stream acts s) :
    (s.stopping = true → ∃ c < s.opened, Asked env stream acts c) ∧
    (∀ error result address catalogPath, s.loop.result error = some result →
      ((Main.run (.ok (.running address)) (.ok catalogPath) (fun _ _ => result)).code = .success ↔
        s.loop = .returned .ok) ∧
      (s.loop = .returned .ok → ∃ c < s.opened, Asked env stream acts c)) ∧
    (.acceptFails ∉ acts → .spawnPanics ∉ acts → s.loop.Ended → s.loop = .returned .ok) := by
  have hreturned : s.loop = .returned .ok → s.stopping = true :=
    invariant (fun s a t => returned_of_step s a t) (fun h => by cases h) hruns
  refine ⟨asked_of_stopping hruns, fun error result address catalogPath hresult => ⟨?_, fun hok =>
    asked_of_stopping hruns (hreturned hok)⟩, fun haccept hspawn hended => ?_⟩
  · cases hloop : s.loop with
    | returned how =>
      rw [hloop] at hresult
      cases how <;> cases hresult <;> simp [Main.run, Main.fails]
    | _ =>
      rw [hloop] at hresult
      cases hresult
  · have hmem (a : Act) (ha : a ∈ acts) : a ≠ .acceptFails ∧ a ≠ .spawnPanics := by
      constructor <;> rintro rfl
      · exact haccept ha
      · exact hspawn ha
    have hworks : Works s := invariant_under (fun _ _ _ h ha hstep => h.step ha hstep)
      (by simp [Works]) (Under.of_mem hmem {}) hruns
    cases hloop : s.loop with
    | returned how =>
      cases how with
      | ok => rfl
      | error => exact absurd hloop hworks.2.1
      | panicked => exact absurd hloop hworks.2.2
    | _ =>
      rw [hloop] at hended
      exact hended.elim

/-- One client transacts and leaves, another one asks, and the daemon
stops. -/
theorem stops_only_when_asked_inTurn :
    ∃ s, Runs bothEnv bothStream (inTurn ++ stops 1) s ∧ s.loop = .returned .ok ∧
      ∃ c < s.opened, Asked bothEnv bothStream (inTurn ++ stops 1) c := by
  obtain ⟨-, s, hruns, hok, hstopping⟩ := inTurn_returned
  exact ⟨s, hruns, hok, (stops_only_when_asked hruns).1 hstopping⟩

end AcceptLoop

end NostdbServer
