import Mathlib.Logic.Function.Basic
import NostdbServer.Lib.Run
import NostdbServer.SessionHistory

/-!
# AcceptLoop — the accept loop and the threads it spawns

`accept_until_shutdown` with any number of connections, one detached
thread each, in any interleaving. A connection is the number of the
`connect` that made it. The operating system's part is the listen queue:
a `connect` puts a connection at its end and `accept` takes the first.

A thread runs `serve_connection` in steps of one frame, the read apart
from what is made of it, each connection with a stream and an
environment of its own. What a thread serves is the flat machine of that
connection (`Placed.connection`). The steps outside `serve_connection`
are the loop's `accept`, its look at the flag and its spawning, and a
thread's storing of the flag and its wake-up connect.
-/

namespace NostdbServer.AcceptLoop

variable {E : Engine}

/-! ## The parties -/

/-- How `accept_until_shutdown` ended. -/
inductive Returned where
  | ok
  | error
  /-- `thread::spawn` panicked. -/
  | panicked
  deriving DecidableEq, Repr

/-- Where the accept loop stands. -/
inductive Loop where
  /-- Inside `accept`. -/
  | accepting
  /-- `accept` came back, without a connection where it failed, and the
  flag is still to be looked at. -/
  | accepted (incoming : Option Nat)
  /-- The flag was clear, and the connection's thread is to be spawned. -/
  | spawning (connection : Nat)
  | returned (how : Returned)
  deriving DecidableEq, Repr

/-- Whether `accept_until_shutdown` is over. -/
def Loop.Ended : Loop → Prop
  | .returned _ => True
  | _ => False

/-- Where the thread of a connection stands. -/
inductive Thread (E : Engine) where
  | unspawned
  /-- `serve_connection` is before the handshake. -/
  | opening
  /-- `serve_connection` is before a read, or before its return. -/
  | serving (state : State E)
  /-- `serve_connection` has read, and is before its answer. -/
  | handling (state : State E)
  /-- The client asked for a shutdown, and the flag is to be stored. -/
  | stopping
  /-- The flag is stored, and the wake-up connect is to be made. -/
  | waking
  | ended

/-- The shared flag, the connects made so far, the listen queue, and where
everyone stands. -/
structure Server (E : Engine) where
  stopping : Bool := false
  opened : Nat := 0
  queue : List Nat := []
  loop : Loop := .accepting
  thread : Nat → Thread E := fun _ => .unspawned

/-- A step inside `serve_connection`. -/
inductive Serve where
  | handshake
  | read
  | handle
  /-- `serve_connection` returns. -/
  | leave
  | panic
  deriving DecidableEq, Repr

inductive Act where
  /-- A client connects. -/
  | connect
  | accept
  | acceptFails
  /-- The loop looks at the flag, and then at what `accept` gave. -/
  | check
  | spawn
  | spawnPanics
  | serve (connection : Nat) (act : Serve)
  /-- `stopping.store(true)`. -/
  | store (connection : Nat)
  /-- The wake-up connect. -/
  | wake (connection : Nat)
  deriving DecidableEq, Repr

/-! ## The steps -/

/-- A step of `serve_connection`, and what its thread does with the
result. -/
def Thread.serve (env : Env E) (stream : Stream) : Serve → Thread E → Option (Thread E)
  | .handshake, .opening => some (.serving (start env stream).2)
  | .read, .serving (.ended _ _ _) => none
  | .read, .serving state => some (.handling state)
  | .handle, .handling state => some (.serving (step env (start env stream).1 state))
  | .leave, .serving (.ended how _ _) =>
      some (if how = .shutdownRequested then .stopping else .ended)
  | .panic, .opening => some .ended
  | .panic, .serving _ => some .ended
  | .panic, .handling _ => some .ended
  | _, _ => none

namespace Server

def moved (s : Server E) (c : Nat) (thread : Thread E) : Server E :=
  { s with thread := Function.update s.thread c thread }

/-- The server with one more connection in the queue. -/
def connected (s : Server E) : Server E :=
  { s with opened := s.opened + 1, queue := s.queue ++ [s.opened] }

/-- What the loop does behind `accept`: the flag before the connection. -/
def checked (s : Server E) (incoming : Option Nat) : Loop :=
  if s.stopping then .returned .ok
  else
    match incoming with
    | some c => .spawning c
    | none => .returned .error

end Server

/-- The server after a step, `none` where it cannot be taken. -/
def step (env : Nat → Env E) (stream : Nat → Stream) : Act → Server E → Option (Server E)
  | .connect, s => some s.connected
  | .accept, s =>
      match s.loop, s.queue with
      | .accepting, c :: queue => some { s with loop := .accepted (some c), queue }
      | _, _ => none
  | .acceptFails, s =>
      match s.loop with
      | .accepting => some { s with loop := .accepted none }
      | _ => none
  | .check, s =>
      match s.loop with
      | .accepted incoming => some { s with loop := s.checked incoming }
      | _ => none
  | .spawn, s =>
      match s.loop with
      | .spawning c => some { s.moved c .opening with loop := .accepting }
      | _ => none
  | .spawnPanics, s =>
      match s.loop with
      | .spawning _ => some { s with loop := .returned .panicked }
      | _ => none
  | .serve c act, s => ((s.thread c).serve (env c) (stream c) act).map (s.moved c)
  | .store c, s =>
      match s.thread c with
      | .stopping => some { s.moved c .waking with stopping := true }
      | _ => none
  | .wake c, s =>
      match s.thread c with
      | .waking => some (s.moved c .ended).connected
      | _ => none

/-! ## What a step can do -/

/-- Whether a thread is inside `serve_connection`. -/
def Thread.Serving : Thread E → Prop
  | .opening | .serving _ | .handling _ => True
  | _ => False

/-- A step of `serve_connection` stays in it or returns from it. -/
theorem Thread.serving_of_serve {env : Env E} {stream : Stream} {act : Serve}
    {thread thread' : Thread E} (h : thread.serve env stream act = some thread') :
    thread.Serving ∧ (thread'.Serving ∨ thread' = .stopping ∨ thread' = .ended) := by
  unfold Thread.serve at h
  split at h
  · cases h
    exact ⟨trivial, .inl trivial⟩
  · cases h
  · cases h
    exact ⟨trivial, .inl trivial⟩
  · cases h
    exact ⟨trivial, .inl trivial⟩
  · rename_i how _ _
    cases h
    by_cases hhow : how = .shutdownRequested
    · exact ⟨trivial, .inr (.inl (if_pos hhow))⟩
    · exact ⟨trivial, .inr (.inr (if_neg hhow))⟩
  · cases h
    exact ⟨trivial, .inr (.inr rfl)⟩
  · cases h
    exact ⟨trivial, .inr (.inr rfl)⟩
  · cases h
    exact ⟨trivial, .inr (.inr rfl)⟩
  · cases h

/-- Every outcome of a step. -/
inductive Outcome (env : Nat → Env E) (stream : Nat → Stream) (s : Server E) :
    Act → Server E → Prop where
  | connected : Outcome env stream s .connect s.connected
  | accepted {c queue} (hloop : s.loop = .accepting) (hqueue : s.queue = c :: queue) :
      Outcome env stream s .accept { s with loop := .accepted (some c), queue }
  | acceptFailed (hloop : s.loop = .accepting) :
      Outcome env stream s .acceptFails { s with loop := .accepted none }
  | checked {incoming} (hloop : s.loop = .accepted incoming) :
      Outcome env stream s .check { s with loop := s.checked incoming }
  | spawned {c} (hloop : s.loop = .spawning c) :
      Outcome env stream s .spawn { s.moved c .opening with loop := .accepting }
  | spawnPanicked {c} (hloop : s.loop = .spawning c) :
      Outcome env stream s .spawnPanics { s with loop := .returned .panicked }
  | served {c act thread}
      (hserve : (s.thread c).serve (env c) (stream c) act = some thread) :
      Outcome env stream s (.serve c act) (s.moved c thread)
  | stored {c} (hthread : s.thread c = .stopping) :
      Outcome env stream s (.store c) { s.moved c .waking with stopping := true }
  | woke {c} (hthread : s.thread c = .waking) :
      Outcome env stream s (.wake c) (s.moved c .ended).connected

variable {env : Nat → Env E} {stream : Nat → Stream}

/-- **What a step does** is one of the outcomes. -/
theorem outcome_of_step {a : Act} {s t : Server E} (h : step env stream a s = some t) :
    Outcome env stream s a t := by
  cases a with
  | connect =>
    cases h
    exact .connected
  | accept =>
    simp only [step] at h
    split at h
    · rename_i hloop hqueue
      cases h
      exact .accepted hloop hqueue
    · cases h
  | acceptFails =>
    simp only [step] at h
    split at h
    · rename_i hloop
      cases h
      exact .acceptFailed hloop
    · cases h
  | check =>
    simp only [step] at h
    split at h
    · rename_i hloop
      cases h
      exact .checked hloop
    · cases h
  | spawn =>
    simp only [step] at h
    split at h
    · rename_i hloop
      cases h
      exact .spawned hloop
    · cases h
  | spawnPanics =>
    simp only [step] at h
    split at h
    · rename_i hloop
      cases h
      exact .spawnPanicked hloop
    · cases h
  | serve c act =>
    simp only [step] at h
    obtain ⟨thread, hserve, rfl⟩ := Option.map_eq_some_iff.mp h
    exact .served hserve
  | store c =>
    simp only [step] at h
    split at h
    · rename_i hthread
      cases h
      exact .stored hthread
    · cases h
  | wake c =>
    simp only [step] at h
    split at h
    · rename_i hthread
      cases h
      exact .woke hthread
    · cases h

/-! ## Small facts -/

namespace Server

@[simp] theorem moved_self (s : Server E) (c : Nat) (thread : Thread E) :
    (s.moved c thread).thread c = thread := Function.update_self _ _ _

theorem moved_ne (s : Server E) {c d : Nat} (thread : Thread E) (h : d ≠ c) :
    (s.moved c thread).thread d = s.thread d := Function.update_of_ne h _ _

theorem checked_of_stopping {s : Server E} (h : s.stopping = true) (incoming : Option Nat) :
    s.checked incoming = .returned .ok := if_pos h

/-- The loop returns `Ok` only where the flag is set. -/
theorem stopping_of_checked {s : Server E} {incoming : Option Nat}
    (h : s.checked incoming = .returned .ok) : s.stopping = true := by
  unfold checked at h
  split at h
  · assumption
  · cases incoming <;> cases h

/-- The loop goes on to spawn the connection it accepted, and only where
the flag is clear. -/
theorem eq_of_checked {s : Server E} {incoming : Option Nat} {c : Nat}
    (h : s.checked incoming = .spawning c) : s.stopping = false ∧ incoming = some c := by
  unfold checked at h
  split at h
  · cases h
  · rename_i hclear
    cases incoming with
    | none => cases h
    | some d =>
      cases h
      exact ⟨by simpa using hclear, rfl⟩

end Server

/-! ## One place for each connection -/

/-- **Every connection is in one place**: in the queue, with the loop or
with its thread, and what its thread serves is a state of its own
connection. -/
structure Placed (env : Nat → Env E) (stream : Nat → Stream) (s : Server E) : Prop where
  nodup : s.queue.Nodup
  queue : ∀ c ∈ s.queue, c < s.opened ∧ s.thread c = .unspawned
  loop : ∀ c, s.loop = .accepted (some c) ∨ s.loop = .spawning c →
    c < s.opened ∧ s.thread c = .unspawned ∧ c ∉ s.queue
  unopened : ∀ c, s.opened ≤ c → s.thread c = .unspawned
  connection : ∀ c state, s.thread c = .serving state ∨ s.thread c = .handling state →
    ∃ n, state = NostdbServer.connection (env c) (stream c) n

theorem Placed.start : Placed env stream ({} : Server E) where
  nodup := List.nodup_nil
  queue _ h := by cases h
  loop _ h := by rcases h with h | h <;> cases h
  unopened _ _ := rfl
  connection _ _ h := by rcases h with h | h <;> cases h

/-- What a thread comes to serve is a state of its connection. -/
theorem connection_of_serve {c : Nat} {act : Serve} {thread thread' : Thread E}
    (hconnection : ∀ state, thread = .serving state ∨ thread = .handling state →
      ∃ n, state = NostdbServer.connection (env c) (stream c) n)
    (h : thread.serve (env c) (stream c) act = some thread') (state : State E)
    (hstate : thread' = .serving state ∨ thread' = .handling state) :
    ∃ n, state = NostdbServer.connection (env c) (stream c) n := by
  unfold Thread.serve at h
  split at h
  · cases h
    rcases hstate with hstate | hstate <;> cases hstate
    exact ⟨0, rfl⟩
  · cases h
  · cases h
    rcases hstate with hstate | hstate <;> cases hstate
    exact hconnection _ (.inl rfl)
  · rename_i before
    cases h
    obtain ⟨n, hn⟩ := hconnection before (.inr rfl)
    rcases hstate with hstate | hstate <;> cases hstate
    exact ⟨n + 1, by rw [NostdbServer.connection_succ, ← hn]⟩
  · cases h
    split at hstate <;> rcases hstate with hstate | hstate <;> cases hstate
  all_goals
    cases h
    try rcases hstate with hstate | hstate <;> cases hstate

namespace Placed

variable {s t : Server E}

theorem connected (h : Placed env stream s) : Placed env stream s.connected where
  nodup := by
    refine List.nodup_append.mpr ⟨h.nodup, List.nodup_singleton _, fun c hc d hd heq => ?_⟩
    have hlt := (h.queue c hc).1
    rw [heq, List.mem_singleton.mp hd] at hlt
    omega
  queue c hc := by
    rcases List.mem_append.mp hc with hc | hc
    · exact ⟨Nat.lt_succ_of_lt (h.queue c hc).1, (h.queue c hc).2⟩
    · rw [List.mem_singleton.mp hc]
      exact ⟨Nat.lt_succ_self _, h.unopened _ (Nat.le_refl _)⟩
  loop c hc := by
    obtain ⟨hlt, hthread, hqueue⟩ := h.loop c hc
    refine ⟨Nat.lt_succ_of_lt hlt, hthread, ?_⟩
    simp only [Server.connected, List.mem_append, List.mem_singleton, not_or]
    exact ⟨hqueue, Nat.ne_of_lt hlt⟩
  unopened c hc := h.unopened c (Nat.le_of_succ_le hc)
  connection := h.connection

/-- A thread that was spawned moves on. -/
theorem moved {c : Nat} {thread : Thread E} (h : Placed env stream s)
    (hspawned : s.thread c ≠ .unspawned)
    (hconnection : ∀ state, thread = .serving state ∨ thread = .handling state →
      ∃ n, state = NostdbServer.connection (env c) (stream c) n) :
    Placed env stream (s.moved c thread) := by
  have hkeeps {d : Nat} (hd : s.thread d = .unspawned) :
      (s.moved c thread).thread d = .unspawned := by
    have hne : d ≠ c := fun heq => hspawned (heq ▸ hd)
    rw [Server.moved_ne _ _ hne, hd]
  refine ⟨h.nodup, fun d hd => ?_, fun d hd => ?_, fun d hd => hkeeps (h.unopened d hd),
    fun d state hstate => ?_⟩
  · exact ⟨(h.queue d hd).1, hkeeps (h.queue d hd).2⟩
  · obtain ⟨hlt, hthread, hqueue⟩ := h.loop d hd
    exact ⟨hlt, hkeeps hthread, hqueue⟩
  · by_cases hne : d = c
    · subst hne
      rw [Server.moved_self] at hstate
      exact hconnection state hstate
    · rw [Server.moved_ne _ _ hne] at hstate
      exact h.connection d state hstate

/-- The loop lets go of its connection. -/
theorem dropped {loop : Loop} (h : Placed env stream s)
    (hloop : ∀ c, loop ≠ .accepted (some c) ∧ loop ≠ .spawning c) :
    Placed env stream { s with loop } where
  nodup := h.nodup
  queue := h.queue
  loop c hc := by
    rcases hc with hc | hc
    · exact absurd hc (hloop c).1
    · exact absurd hc (hloop c).2
  unopened := h.unopened
  connection := h.connection

theorem step {a : Act} (h : Placed env stream s) (hstep : step env stream a s = some t) :
    Placed env stream t := by
  cases outcome_of_step hstep with
  | connected => exact h.connected
  | @accepted c queue hloop hqueue =>
    have hnodup := h.nodup
    have hqueued := h.queue
    rw [hqueue, List.nodup_cons] at hnodup
    simp only [hqueue, List.mem_cons] at hqueued
    refine ⟨hnodup.2, fun d hd => hqueued d (.inr hd), fun d hd => ?_, h.unopened, h.connection⟩
    rcases hd with hd | hd <;> cases hd
    exact ⟨(hqueued c (.inl rfl)).1, (hqueued c (.inl rfl)).2, hnodup.1⟩
  | acceptFailed hloop => exact h.dropped (by simp)
  | @checked incoming hloop =>
    refine ⟨h.nodup, h.queue, fun c hc => ?_, h.unopened, h.connection⟩
    rcases hc with hc | hc
    · simp only [Server.checked] at hc
      split at hc
      · cases hc
      · cases incoming <;> cases hc
    · exact h.loop c (.inl (hloop.trans (congrArg Loop.accepted (Server.eq_of_checked hc).2)))
  | @spawned c hloop =>
    -- the loop gives the connection to a thread, and holds it no more
    obtain ⟨hlt, hthread, hqueue⟩ := h.loop c (.inr hloop)
    refine ⟨h.nodup, fun d hd => ?_, fun d hd => ?_, fun d hd => ?_, fun d state hstate => ?_⟩
    · have hne : d ≠ c := fun heq => hqueue (heq ▸ hd)
      exact ⟨(h.queue d hd).1, (Server.moved_ne _ _ hne).trans (h.queue d hd).2⟩
    · rcases hd with hd | hd <;> cases hd
    · have hd : s.opened ≤ d := hd
      have hne : d ≠ c := by omega
      exact (Server.moved_ne _ _ hne).trans (h.unopened d hd)
    · have hstate : (s.moved c .opening).thread d = .serving state ∨
          (s.moved c .opening).thread d = .handling state := hstate
      by_cases hne : d = c
      · subst hne
        rw [Server.moved_self] at hstate
        rcases hstate with hstate | hstate <;> cases hstate
      · rw [Server.moved_ne _ _ hne] at hstate
        exact h.connection d state hstate
  | spawnPanicked hloop => exact h.dropped (by simp)
  | @served c act thread hserve =>
    have hserving := (Thread.serving_of_serve hserve).1
    refine h.moved (fun hthread => ?_) (connection_of_serve (h.connection c) hserve)
    rw [hthread] at hserving
    exact hserving
  | @stored c hthread =>
    have hmoved : Placed env stream (s.moved c .waking) := h.moved (by simp [hthread]) (by simp)
    exact ⟨hmoved.nodup, hmoved.queue, hmoved.loop, hmoved.unopened, hmoved.connection⟩
  | @woke c hthread =>
    have hmoved : Placed env stream (s.moved c .ended) := h.moved (by simp [hthread]) (by simp)
    exact hmoved.connected

end Placed

/-- The steps of a run from the start. -/
abbrev Runs (env : Nat → Env E) (stream : Nat → Stream) (acts : List Act) (s : Server E) : Prop :=
  Run.after (step env stream) acts {} = some s

theorem placed_of_runs {acts : List Act} {s : Server E} (h : Runs env stream acts s) :
    Placed env stream s :=
  Run.invariant (fun _ _ _ hs hstep => hs.step hstep) Placed.start h

end NostdbServer.AcceptLoop
