import Mathlib.Data.Fintype.Basic
import Mathlib.Logic.Function.Basic
import NostdbServer.Lib.Run

/-!
# Lifecycle — the single-instance lock and the endpoint

`start`, `is_running` and `main::run`, with `lock::acquire`,
`endpoint::bind` and the two drops, for any number of processes in any
interleaving. Each step is one call that another process can see: the
attempt on the lock, the unlinking and the binding of the socket file, and
the closing of the lock file. Any call may fail where the source lets it,
and a process may crash between any two.

The lock file is never removed, so it is one lock. The operating system's
part is in `released`: closing the lock file, or dying, releases the
lock where the closer holds it and nowhere else.
-/

namespace NostdbServer.Lifecycle

/-- Where a process stands that runs `start` and then serves. -/
inductive Daemon where
  | idle
  /-- The lock file is open. -/
  | opened
  /-- The lock is acquired, and `bind` begins. -/
  | locked
  /-- `bind` has removed what was at the address. -/
  | unlinked
  /-- `bind` has bound the socket, and restricts it. -/
  | bound
  /-- `start` returned `Running`: listener and guard are alive. -/
  | running
  /-- The listener is dropped, the guard is not. -/
  | closing
  /-- `bind` failed, and the guard is still to be dropped. -/
  | failing
  | exited
  /-- `start` returned `AlreadyRunning`. -/
  | alreadyRunning
  | crashed
  deriving DecidableEq, Repr

/-- Where a call of `is_running` stands. -/
inductive Query where
  | idle
  | opened
  /-- The lock is acquired, and released when the guard is dropped. -/
  | holding
  | answered (running : Bool)
  | failed
  | crashed
  deriving DecidableEq, Repr

/-- Whether a process holds its guard. -/
def Daemon.Guarding : Daemon → Prop
  | .locked | .unlinked | .bound | .running | .closing | .failing => True
  | _ => False

instance (daemon : Daemon) : Decidable daemon.Guarding := by
  cases daemon <;> unfold Daemon.Guarding <;> infer_instance

/-- Who holds the lock. -/
inductive Holder (ι κ : Type) where
  | daemon (i : ι)
  | query (k : κ)
  deriving DecidableEq

/-- What is at the address. -/
inductive Socket (ι : Type) where
  | absent
  | leftover
  | boundBy (i : ι)
  deriving DecidableEq

/-- The lock, the address, and where everyone stands: processes `ι` that
run `start`, and calls `κ` of `is_running`, by any process. -/
structure State (ι κ : Type) where
  lock : Option (Holder ι κ)
  socket : Socket ι
  daemon : ι → Daemon
  query : κ → Query

variable {ι κ : Type}

/-- Nobody has begun; the address may hold a leftover. -/
def State.start (socket : Socket ι) : State ι κ where
  lock := none
  socket := socket
  daemon _ := .idle
  query _ := .idle

inductive Step (ι κ : Type) where
  | openLock (i : ι)
  /-- `try_lock` in `start`. -/
  | tryLock (i : ι)
  | removeLeftover (i : ι)
  | bind (i : ι)
  | restrict (i : ι)
  /-- `Listener::drop`: the file at the address is removed, if it can be. -/
  | dropListener (i : ι) (removed : Bool)
  | dropGuard (i : ι)
  /-- A call of `start` fails. -/
  | fails (i : ι)
  | crashes (i : ι)
  | queryOpens (k : κ)
  /-- `try_lock` in `is_running`. -/
  | queryTries (k : κ)
  | queryDrops (k : κ)
  | queryFails (k : κ)
  | queryCrashes (k : κ)

/-- The lock behind the closing of a file: free where its holder closed
it. -/
def released {η : Type} [DecidableEq η] (lock : Option η) (closer : η) : Option η :=
  if lock = some closer then none else lock

theorem released_ne {η : Type} [DecidableEq η] (lock : Option η) (closer : η) :
    released lock closer ≠ some closer := by
  unfold released
  by_cases h : lock = some closer
  · simp [h]
  · rwa [if_neg h]

theorem released_eq_iff {η : Type} [DecidableEq η] {lock : Option η} {closer other : η}
    (h : other ≠ closer) : released lock closer = some other ↔ lock = some other := by
  unfold released
  by_cases hheld : lock = some closer
  · simp [hheld, h.symm]
  · rw [if_neg hheld]

variable [DecidableEq ι] [DecidableEq κ]

namespace State

def moved (s : State ι κ) (i : ι) (daemon : Daemon) : State ι κ :=
  { s with daemon := Function.update s.daemon i daemon }

def asked (s : State ι κ) (k : κ) (query : Query) : State ι κ :=
  { s with query := Function.update s.query k query }

/-- The lock behind the closing of a holder's file, or its death. -/
def closed (s : State ι κ) (holder : Holder ι κ) : State ι κ :=
  { s with lock := released s.lock holder }

end State

/-- The state after a step, `none` where it cannot be taken. -/
def step : Step ι κ → State ι κ → Option (State ι κ)
  | .openLock i, s =>
      match s.daemon i with
      | .idle => some (s.moved i .opened)
      | _ => none
  | .tryLock i, s =>
      match s.daemon i with
      | .opened =>
          match s.lock with
          | none => some { s.moved i .locked with lock := some (.daemon i) }
          | some _ => some (s.moved i .alreadyRunning)
      | _ => none
  | .removeLeftover i, s =>
      match s.daemon i with
      | .locked => some { s.moved i .unlinked with socket := .absent }
      | _ => none
  | .bind i, s =>
      match s.daemon i, s.socket with
      | .unlinked, .absent => some { s.moved i .bound with socket := .boundBy i }
      | _, _ => none
  | .restrict i, s =>
      match s.daemon i with
      | .bound => some (s.moved i .running)
      | _ => none
  | .dropListener i removed, s =>
      match s.daemon i with
      | .running =>
          some { s.moved i .closing with socket := if removed then .absent else s.socket }
      | _ => none
  | .dropGuard i, s =>
      match s.daemon i with
      | .closing | .failing => some ((s.moved i .exited).closed (.daemon i))
      | _ => none
  | .fails i, s =>
      match s.daemon i with
      | .idle | .opened => some (s.moved i .exited)
      -- a socket that was bound stays at the address: no `Listener` was made
      | .locked | .unlinked | .bound => some (s.moved i .failing)
      | _ => none
  | .crashes i, s => some ((s.moved i .crashed).closed (.daemon i))
  | .queryOpens k, s =>
      match s.query k with
      | .idle => some (s.asked k .opened)
      | _ => none
  | .queryTries k, s =>
      match s.query k with
      | .opened =>
          match s.lock with
          | none => some { s.asked k .holding with lock := some (.query k) }
          | some _ => some (s.asked k (.answered true))
      | _ => none
  | .queryDrops k, s =>
      match s.query k with
      | .holding => some ((s.asked k (.answered false)).closed (.query k))
      | _ => none
  | .queryFails k, s =>
      match s.query k with
      | .idle | .opened => some (s.asked k .failed)
      | _ => none
  | .queryCrashes k, s => some ((s.asked k .crashed).closed (.query k))

/-! ## What a step can do -/

/-- Every outcome of a step, told by what it does to the lock and to the
address. -/
inductive Outcome (s : State ι κ) : State ι κ → Prop where
  /-- Neither is touched. -/
  | moved {i daemon} (hguarding : (s.daemon i).Guarding ↔ daemon.Guarding)
      (hbound : daemon ≠ .bound) (hrunning : daemon = .running → s.daemon i = .bound) :
      Outcome s (s.moved i daemon)
  | locked {i} (hdaemon : s.daemon i = .opened) (hfree : s.lock = none) :
      Outcome s { s.moved i .locked with lock := some (.daemon i) }
  | unlinked {i} (hdaemon : s.daemon i = .locked) :
      Outcome s { s.moved i .unlinked with socket := .absent }
  | bound {i} (hdaemon : s.daemon i = .unlinked) :
      Outcome s { s.moved i .bound with socket := .boundBy i }
  | dropped {i socket} (hdaemon : s.daemon i = .running) :
      Outcome s { s.moved i .closing with socket }
  | closed {i daemon} (hguarding : ¬ daemon.Guarding) :
      Outcome s ((s.moved i daemon).closed (.daemon i))
  | asked {k query} (hbefore : s.query k ≠ .holding) (hafter : query ≠ .holding) :
      Outcome s (s.asked k query)
  | acquired {k} (hquery : s.query k = .opened) (hfree : s.lock = none) :
      Outcome s { s.asked k .holding with lock := some (.query k) }
  | released {k query} (hafter : query ≠ .holding) :
      Outcome s ((s.asked k query).closed (.query k))

/-- **What a step does** is one of the outcomes. -/
theorem outcome_of_step {a : Step ι κ} {s t : State ι κ} (h : step a s = some t) :
    Outcome s t := by
  cases a with
  | openLock i =>
    simp only [step] at h
    split at h
    · rename_i hdaemon
      cases h
      exact .moved (by simp [hdaemon, Daemon.Guarding]) (by simp) (by simp)
    · cases h
  | tryLock i =>
    simp only [step] at h
    split at h
    · rename_i hdaemon
      split at h
      · rename_i hfree
        cases h
        exact .locked hdaemon hfree
      · cases h
        exact .moved (by simp [hdaemon, Daemon.Guarding]) (by simp) (by simp)
    · cases h
  | removeLeftover i =>
    simp only [step] at h
    split at h
    · rename_i hdaemon
      cases h
      exact .unlinked hdaemon
    · cases h
  | bind i =>
    simp only [step] at h
    split at h
    · rename_i hdaemon hsocket
      cases h
      exact .bound hdaemon
    · cases h
  | restrict i =>
    simp only [step] at h
    split at h
    · rename_i hdaemon
      cases h
      exact .moved (by simp [hdaemon, Daemon.Guarding]) (by simp) (fun _ => hdaemon)
    · cases h
  | dropListener i removed =>
    simp only [step] at h
    split at h
    · rename_i hdaemon
      cases h
      exact .dropped hdaemon
    · cases h
  | dropGuard i =>
    simp only [step] at h
    split at h
    · cases h
      exact .closed id
    · cases h
      exact .closed id
    · cases h
  | fails i =>
    simp only [step] at h
    split at h <;> first
      | cases h; done
      | (rename_i hdaemon; cases h
         exact .moved (by simp [hdaemon, Daemon.Guarding]) (by simp) (by simp))
  | crashes i =>
    cases h
    exact .closed id
  | queryOpens k =>
    simp only [step] at h
    split at h
    · rename_i hquery
      cases h
      exact .asked (by simp [hquery]) (by simp)
    · cases h
  | queryTries k =>
    simp only [step] at h
    split at h
    · rename_i hquery
      split at h
      · rename_i hfree
        cases h
        exact .acquired hquery hfree
      · cases h
        exact .asked (by simp [hquery]) (by simp)
    · cases h
  | queryDrops k =>
    simp only [step] at h
    split at h
    · cases h
      exact .released (by simp)
    · cases h
  | queryFails k =>
    simp only [step] at h
    split at h
    · rename_i hquery
      cases h
      exact .asked (by simp [hquery]) (by simp)
    · rename_i hquery
      cases h
      exact .asked (by simp [hquery]) (by simp)
    · cases h
  | queryCrashes k =>
    cases h
    exact .released (by simp)

/-! ## The lock -/

/-- The lock is held by the party that holds a guard, and by no other. -/
structure Consistent (s : State ι κ) : Prop where
  daemon : ∀ i, (s.daemon i).Guarding ↔ s.lock = some (.daemon i)
  query : ∀ k, s.query k = .holding ↔ s.lock = some (.query k)

omit [DecidableEq ι] [DecidableEq κ] in
theorem consistent_start (socket : Socket ι) : Consistent (State.start socket : State ι κ) where
  daemon _ := iff_of_false id (by simp [State.start])
  query _ := iff_of_false (by simp [State.start]) (by simp [State.start])

namespace Consistent

variable {s t : State ι κ} {i : ι} {k : κ}

omit [DecidableEq κ] in
/-- A process that keeps its guard, or has none still. -/
theorem moved (h : Consistent s) {daemon : Daemon}
    (hguarding : (s.daemon i).Guarding ↔ daemon.Guarding) : Consistent (s.moved i daemon) where
  daemon j := by
    by_cases hj : j = i
    · subst hj
      simp only [State.moved, Function.update_self]
      exact hguarding.symm.trans (h.daemon j)
    · simp only [State.moved, Function.update_of_ne hj]
      exact h.daemon j
  query := h.query

omit [DecidableEq κ] in
theorem locked (h : Consistent s) (hfree : s.lock = none) :
    Consistent { s.moved i .locked with lock := some (.daemon i) } where
  daemon j := by
    by_cases hj : j = i
    · subst hj
      simp only [State.moved, Function.update_self]
      exact iff_of_true trivial trivial
    · have hnot : ¬ (s.daemon j).Guarding := by simp [h.daemon j, hfree]
      simp only [State.moved, Function.update_of_ne hj]
      exact iff_of_false hnot (by simpa using Ne.symm hj)
  query k := iff_of_false (by simp [State.moved, h.query k, hfree]) (by simp)

theorem closed (h : Consistent s) {daemon : Daemon} (hguarding : ¬ daemon.Guarding) :
    Consistent ((s.moved i daemon).closed (.daemon i)) where
  daemon j := by
    by_cases hj : j = i
    · subst hj
      simp only [State.closed, State.moved, Function.update_self]
      exact iff_of_false hguarding (released_ne _ _)
    · simp only [State.closed, State.moved, Function.update_of_ne hj]
      exact (h.daemon j).trans (released_eq_iff (by simpa using hj)).symm
  query k := (h.query k).trans (released_eq_iff (by simp)).symm

omit [DecidableEq ι] in
theorem asked (h : Consistent s) {query : Query} (hbefore : s.query k ≠ .holding)
    (hafter : query ≠ .holding) : Consistent (s.asked k query) where
  daemon := h.daemon
  query l := by
    by_cases hl : l = k
    · subst hl
      simp only [State.asked, Function.update_self]
      exact iff_of_false hafter (fun heq => hbefore ((h.query l).mpr heq))
    · simp only [State.asked, Function.update_of_ne hl]
      exact h.query l

omit [DecidableEq ι] in
theorem acquired (h : Consistent s) (hfree : s.lock = none) :
    Consistent { s.asked k .holding with lock := some (.query k) } where
  daemon i := iff_of_false (by simp [State.asked, h.daemon i, hfree]) (by simp)
  query l := by
    by_cases hl : l = k
    · subst hl
      simp only [State.asked, Function.update_self]
    · have hnot : s.query l ≠ .holding := by simp [h.query l, hfree]
      simp only [State.asked, Function.update_of_ne hl]
      exact iff_of_false hnot (by simpa using Ne.symm hl)

theorem released (h : Consistent s) {query : Query} (hafter : query ≠ .holding) :
    Consistent ((s.asked k query).closed (.query k)) where
  daemon i := (h.daemon i).trans (released_eq_iff (by simp)).symm
  query l := by
    by_cases hl : l = k
    · subst hl
      simp only [State.closed, State.asked, Function.update_self]
      exact iff_of_false hafter (released_ne _ _)
    · simp only [State.closed, State.asked, Function.update_of_ne hl]
      exact (h.query l).trans (released_eq_iff (by simpa using hl)).symm

/-- **The lock's step lemma**: the lock and the guards keep together. -/
theorem step {a : Step ι κ} (h : Consistent s) (hstep : Lifecycle.step a s = some t) :
    Consistent t := by
  -- a step that changes the address as well keeps them together as one that does not
  have haddress {s : State ι κ} (h : Consistent s) (socket : Socket ι) :
      Consistent { s with socket } := ⟨h.daemon, h.query⟩
  cases outcome_of_step hstep with
  | moved hguarding => exact h.moved hguarding
  | locked hdaemon hfree => exact h.locked hfree
  | unlinked hdaemon =>
    exact haddress (h.moved (by simp [hdaemon, Daemon.Guarding])) _
  | bound hdaemon =>
    exact haddress (h.moved (by simp [hdaemon, Daemon.Guarding])) _
  | dropped hdaemon =>
    exact haddress (h.moved (by simp [hdaemon, Daemon.Guarding])) _
  | closed hguarding => exact h.closed hguarding
  | asked hbefore hafter => exact h.asked hbefore hafter
  | acquired hquery hfree => exact h.acquired hfree
  | released hafter => exact h.released hafter

omit [DecidableEq ι] [DecidableEq κ] in
/-- Two processes that hold guards are one. -/
theorem guarding_unique (h : Consistent s) {j : ι} (hi : (s.daemon i).Guarding)
    (hj : (s.daemon j).Guarding) : i = j := by
  have heq := ((h.daemon i).mp hi).symm.trans ((h.daemon j).mp hj)
  exact Holder.daemon.inj (Option.some.inj heq)

end Consistent

/-! ## The address -/

/-- The invariant: lock and guards keep together, and what a process has
bound stays at the address while its listener is alive. -/
structure Sole (s : State ι κ) : Prop where
  consistent : Consistent s
  address : ∀ i, s.daemon i = .bound ∨ s.daemon i = .running → s.socket = .boundBy i

omit [DecidableEq ι] [DecidableEq κ] in
theorem sole_start (socket : Socket ι) : Sole (State.start socket : State ι κ) where
  consistent := consistent_start socket
  address i h := by simp [State.start] at h

omit [DecidableEq ι] [DecidableEq κ] in
/-- A process with a live listener holds its guard. -/
theorem guarding_of_live {s : State ι κ} {i : ι}
    (h : s.daemon i = .bound ∨ s.daemon i = .running) : (s.daemon i).Guarding := by
  rcases h with h | h <;> rw [h] <;> trivial

/-- **The step lemma**: whoever touches the address holds the guard, so no
other process has anything there to lose. -/
theorem Sole.step {a : Step ι κ} {s t : State ι κ} (h : Sole s)
    (hstep : Lifecycle.step a s = some t) : Sole t := by
  refine ⟨h.consistent.step hstep, ?_⟩
  have hself {i : ι} {daemon : Daemon} : (s.moved i daemon).daemon i = daemon :=
    Function.update_self _ _ _
  have hothers {i j : ι} {daemon : Daemon} (hji : j ≠ i) :
      (s.moved i daemon).daemon j = s.daemon j := Function.update_of_ne hji _ _
  -- no other process is live where one that holds its guard moves on
  have halone {i j : ι} {daemon : Daemon} (hguarding : (s.daemon i).Guarding) (hji : j ≠ i)
      (hj : (s.moved i daemon).daemon j = .bound ∨ (s.moved i daemon).daemon j = .running) :
      False := by
    rw [hothers hji] at hj
    exact hji (h.consistent.guarding_unique (guarding_of_live hj) hguarding)
  cases outcome_of_step hstep with
  | @moved i daemon hguarding hbound hrunning =>
    intro j hj
    by_cases hji : j = i
    · subst hji
      rw [hself] at hj
      rcases hj with hj | hj
      · exact absurd hj hbound
      · exact h.address j (.inl (hrunning hj))
    · rw [hothers hji] at hj
      exact h.address j hj
  | @locked i hdaemon hfree =>
    intro j hj
    by_cases hji : j = i
    · subst hji
      simp [hself] at hj
    · simp only [hothers hji] at hj
      exact h.address j hj
  | @unlinked i hdaemon =>
    intro j hj
    by_cases hji : j = i
    · subst hji
      simp [hself] at hj
    · exact (halone (by simp [hdaemon, Daemon.Guarding]) hji hj).elim
  | @bound i hdaemon =>
    intro j hj
    by_cases hji : j = i
    · exact hji ▸ rfl
    · exact (halone (by simp [hdaemon, Daemon.Guarding]) hji hj).elim
  | @dropped i socket hdaemon =>
    intro j hj
    by_cases hji : j = i
    · subst hji
      simp [hself] at hj
    · exact (halone (by simp [hdaemon, Daemon.Guarding]) hji hj).elim
  | @closed i daemon hguarding =>
    intro j hj
    by_cases hji : j = i
    · subst hji
      have hnow : ((s.moved j daemon).closed (.daemon j)).daemon j = daemon := hself
      exact absurd (hnow ▸ guarding_of_live hj) hguarding
    · have hthen : ((s.moved i daemon).closed (.daemon i)).daemon j = s.daemon j := hothers hji
      rw [hthen] at hj
      exact h.address j hj
  | asked hbefore hafter => exact h.address
  | acquired hquery hfree => exact h.address
  | released hafter => exact h.address

/-! ## At most one daemon -/

/-- Whether a party holds a guard, for as long as it does. -/
def HoldsGuard (s : State ι κ) : Holder ι κ → Prop
  | .daemon i => (s.daemon i).Guarding
  | .query k => s.query k = .holding

/-- The steps that remove the file at the address. -/
def Step.Unlinks : Step ι κ → ι → Prop
  | .removeLeftover i, j => i = j
  | .dropListener i removed, j => removed = true ∧ i = j
  | _, _ => False

theorem Step.Unlinks.guarding {a : Step ι κ} {s t : State ι κ} {i : ι} (h : a.Unlinks i)
    (hstep : Lifecycle.step a s = some t) : (s.daemon i).Guarding := by
  cases a with
  | removeLeftover j =>
    obtain rfl : j = i := h
    simp only [Lifecycle.step] at hstep
    split at hstep
    · rename_i hdaemon
      rw [hdaemon]
      trivial
    · cases hstep
  | dropListener j removed =>
    obtain ⟨-, rfl⟩ := h
    simp only [Lifecycle.step] at hstep
    split at hstep
    · rename_i hdaemon
      rw [hdaemon]
      trivial
    · cases hstep
  | _ => exact h.elim

/-- **At most one daemon**: in every state that processes can reach, one
party at most holds the guard, a process that is running has its own
socket at the address, and a step that removes a file there removes none
that another live process bound. -/
theorem single_instance {socket : Socket ι} {steps : List (Step ι κ)} {s : State ι κ}
    (hrun : Run.after step steps (State.start socket) = some s) :
    (∀ a b, HoldsGuard s a → HoldsGuard s b → a = b) ∧
    (∀ i, s.daemon i = .running → s.socket = .boundBy i) ∧
    (∀ a i t, a.Unlinks i → step a s = some t →
      ∀ j, s.socket = .boundBy j → (s.daemon j).Guarding → i = j) := by
  have hsole : Sole s := Run.invariant (fun _ _ _ h hstep => h.step hstep) (sole_start socket) hrun
  have hlock {a : Holder ι κ} (ha : HoldsGuard s a) : s.lock = some a := by
    cases a with
    | daemon i => exact (hsole.consistent.daemon i).mp ha
    | query k => exact (hsole.consistent.query k).mp ha
  refine ⟨fun a b ha hb => ?_, fun i hi => hsole.address i (.inr hi), ?_⟩
  · exact Option.some.inj ((hlock ha).symm.trans (hlock hb))
  · intro a i t hunlinks hstep j _ hj
    exact hsole.consistent.guarding_unique (hunlinks.guarding hstep) hj

/-- One daemon crashes with its socket bound, the second takes over, and
the third finds it running. -/
def takeover : List (Step (Fin 3) Unit) :=
  [.openLock 0, .tryLock 0, .removeLeftover 0, .bind 0, .restrict 0, .crashes 0,
    .openLock 1, .tryLock 1, .openLock 2, .tryLock 2, .queryOpens (), .removeLeftover 1,
    .queryTries (), .bind 1, .restrict 1]

theorem takeover_isSome : (Run.after step takeover (State.start .leftover)).isSome := by decide

/-- The one that took over runs, has its own socket at the address, and
is the only one that holds the guard. -/
theorem single_instance_takeover :
    let s := (Run.after step takeover (State.start .leftover)).get takeover_isSome
    s.daemon 1 = .running ∧ s.socket = .boundBy 1 ∧
      ∀ p, HoldsGuard s p → p = .daemon 1 := by
  intro s
  have hrunning : s.daemon 1 = .running := by decide
  have hguarding : HoldsGuard s (.daemon 1) := by
    show (s.daemon 1).Guarding
    rw [hrunning]
    trivial
  obtain ⟨hsole, haddress, -⟩ := single_instance (Option.some_get takeover_isSome).symm
  exact ⟨hrunning, haddress 1 hrunning, fun p hp => hsole p _ hp hguarding⟩

/-! ## What is reported

`start` and `is_running` learn from a failed attempt on the lock that it is
held, and not by whom. -/

/-- An attempt on the lock. -/
def Step.Attempts (s : State ι κ) : Step ι κ → Prop
  | .tryLock i => s.daemon i = .opened
  | .queryTries k => s.query k = .opened
  | _ => False

/-- A failed attempt: `AlreadyRunning` from `start`, true from
`is_running`. -/
def Step.SaysRunning (t : State ι κ) : Step ι κ → Prop
  | .tryLock i => t.daemon i = .alreadyRunning
  | .queryTries k => t.query k = .answered true
  | _ => False

/-- A process that acquired the lock in `start` holds it, another one than
the caller where the caller is in `start` itself. -/
def Step.DaemonHolds (s : State ι κ) : Step ι κ → Prop
  | .tryLock i => ∃ j, j ≠ i ∧ s.lock = some (.daemon j) ∧ (s.daemon j).Guarding
  | _ => ∃ j, s.lock = some (.daemon j) ∧ (s.daemon j).Guarding

/-- What the step reports is so at that moment. -/
def Truthful (s : State ι κ) (a : Step ι κ) : Prop :=
  ∀ t, step a s = some t → a.SaysRunning t → a.DaemonHolds s

/-- No status query holds the lock where an attempt is made. -/
def Undisturbed (s : State ι κ) (a : Step ι κ) : Prop :=
  a.Attempts s → ∀ k, s.query k ≠ .holding

omit [DecidableEq ι] [DecidableEq κ] in
/-- A held lock that no query holds is a daemon's. -/
theorem Consistent.held_by_daemon {s : State ι κ} (h : Consistent s) {holder : Holder ι κ}
    (hheld : s.lock = some holder) (hquery : ∀ k, s.query k ≠ .holding) :
    ∃ j, s.lock = some (.daemon j) ∧ (s.daemon j).Guarding := by
  cases holder with
  | daemon j => exact ⟨j, hheld, (h.daemon j).mpr hheld⟩
  | query k => exact absurd ((h.query k).mpr hheld) (hquery k)

omit [DecidableEq ι] [DecidableEq κ] in
/-- A lock that a query holds is no daemon's. -/
theorem Consistent.not_held_by_daemon {s : State ι κ} (h : Consistent s) {k : κ}
    (hk : s.query k = .holding) (j : ι) : s.lock ≠ some (.daemon j) := by
  rw [(h.query k).mp hk]
  simp

theorem truthful_iff {s : State ι κ} (h : Consistent s) (a : Step ι κ) :
    Truthful s a ↔ Undisturbed s a := by
  cases a with
  | tryLock i =>
    constructor
    · intro htruthful hattempt k hk
      have hattempt : s.daemon i = .opened := hattempt
      have hstep : Lifecycle.step (.tryLock i) s = some (s.moved i .alreadyRunning) := by
        simp only [Lifecycle.step, hattempt, (h.query k).mp hk]
      obtain ⟨j, -, hheld, -⟩ := htruthful _ hstep (Function.update_self _ _ _)
      exact h.not_held_by_daemon hk j hheld
    · intro hundisturbed t hstep hsays
      simp only [Lifecycle.step] at hstep
      split at hstep
      · rename_i hattempt
        split at hstep
        · cases hstep
          have hnow : (s.moved i .locked).daemon i = .locked := Function.update_self _ _ _
          exact Daemon.noConfusion (hnow.symm.trans hsays)
        · rename_i holder hheld
          obtain ⟨j, hj, hguarding⟩ := h.held_by_daemon hheld (hundisturbed hattempt)
          refine ⟨j, ?_, hj, hguarding⟩
          rintro rfl
          rw [hattempt] at hguarding
          exact hguarding
      · cases hstep
  | queryTries k =>
    constructor
    · intro htruthful hattempt l hl
      have hattempt : s.query k = .opened := hattempt
      have hstep : Lifecycle.step (.queryTries k) s = some (s.asked k (.answered true)) := by
        simp only [Lifecycle.step, hattempt, (h.query l).mp hl]
      obtain ⟨j, hheld, -⟩ := htruthful _ hstep (Function.update_self _ _ _)
      exact h.not_held_by_daemon hl j hheld
    · intro hundisturbed t hstep hsays
      simp only [Lifecycle.step] at hstep
      split at hstep
      · rename_i hattempt
        split at hstep
        · cases hstep
          have hnow : (s.asked k .holding).query k = .holding := Function.update_self _ _ _
          exact Query.noConfusion (hnow.symm.trans hsays)
        · rename_i holder hheld
          exact h.held_by_daemon hheld (hundisturbed hattempt)
      · cases hstep
  | _ => exact iff_of_true (fun _ _ hsays => hsays.elim) (fun hattempt => hattempt.elim)

/-- **A report of a running daemon is right exactly when no status query
holds the lock**: in a run from any state, what every failed attempt
reports is so if and only if no attempt is made while a call of
`is_running` holds the lock. -/
theorem reports_true_iff {s : State ι κ} (h : Consistent s) (steps : List (Step ι κ)) :
    Run.Under step Truthful steps s ↔ Run.Under step Undisturbed steps s :=
  Run.Under.congr (fun _ _ _ h hstep => h.step hstep) (fun _ a h => truthful_iff h a) h

instance [Fintype κ] (s : State ι κ) (a : Step ι κ) : Decidable (Undisturbed s a) := by
  cases a <;> unfold Undisturbed Step.Attempts <;> infer_instance

/-- No status query holds the lock while the second process and the query
of `takeover` find the daemon running. -/
theorem reports_true_iff_takeover :
    Run.Under step Truthful takeover (State.start .leftover) :=
  (reports_true_iff (consistent_start .leftover) takeover).mpr (by decide)

/-- A status query asks while a process starts. -/
def asking : List (Step Unit Unit) := [.queryOpens (), .openLock (), .queryTries (), .tryLock ()]

/-- A status query that holds the lock makes `start` report a daemon where
there is none. -/
theorem status_query_reported :
    ¬ ∀ (s : State Unit Unit) steps, Consistent s → Run.Under step Truthful steps s := by
  intro h
  obtain ⟨-, h₁⟩ := h (State.start .absent) asking (consistent_start .absent)
  obtain ⟨-, h₂⟩ := h₁ _ rfl
  obtain ⟨-, h₃⟩ := h₂ _ rfl
  obtain ⟨htruthful, -⟩ := h₃ _ rfl
  -- there is no other process that could be the daemon
  obtain ⟨j, hj, -⟩ := htruthful _ rfl rfl
  exact hj rfl

end NostdbServer.Lifecycle
