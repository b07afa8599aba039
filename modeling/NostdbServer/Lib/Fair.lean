import NostdbServer.Lib.Run

/-!
# Fair — infinite runs, fairness and what leads to what

A `Behaviour` of a system of guarded actions is an infinite run in which a
turn may also pass without an action, so that nothing obliges anybody to
act. What does is `Fair`: a set of actions of which one is enabled from
some turn on is not passed over for good. The one rule that draws progress
from it is `leadsTo_of_fair`; the others put its instances together.

A finite run followed by turns without an action is a behaviour
(`Behaviour.of_run`), and a fair one where it stops at a state that
enables nothing the fairness is about (`Fair.of_stops`).
-/

namespace Run

variable {σ : Type*} {α : Type*} {step : α → σ → Option σ}

/-- An infinite run. -/
structure Behaviour (step : α → σ → Option σ) where
  state : Nat → σ
  action : Nat → Option α
  idle : ∀ n, action n = none → state (n + 1) = state n
  acts : ∀ n a, action n = some a → step a (state n) = some (state (n + 1))

namespace Behaviour

variable (b : Behaviour step)

/-- Weak fairness: where one of the actions is enabled from some turn on,
one of them is taken behind it. -/
def Fair (among : α → Prop) : Prop :=
  ∀ n, (∀ m, n ≤ m → ∃ a, among a ∧ (step a (b.state m)).isSome) →
    ∃ m a, n ≤ m ∧ among a ∧ b.action m = some a

/-- Wherever `p` holds, `q` holds there or later. -/
def LeadsTo (p q : σ → Prop) : Prop := ∀ n, p (b.state n) → ∃ m, n ≤ m ∧ q (b.state m)

variable {b}

/-- A turn is a step, or nothing happens in it. -/
theorem state_succ (n : Nat) :
    b.state (n + 1) = b.state n ∨ ∃ a, step a (b.state n) = some (b.state (n + 1)) := by
  cases haction : b.action n with
  | none => exact .inl (b.idle n haction)
  | some a => exact .inr ⟨a, b.acts n a haction⟩

/-- Every state of a behaviour is the end of a finite run. -/
theorem exists_run (n : Nat) : ∃ as, after step as (b.state 0) = some (b.state n) := by
  induction n with
  | zero => exact ⟨[], rfl⟩
  | succ n ih =>
    obtain ⟨as, has⟩ := ih
    rcases b.state_succ n with hsame | ⟨a, ha⟩
    · exact ⟨as, hsame ▸ has⟩
    · refine ⟨as ++ [a], after_append.mpr ⟨_, has, ?_⟩⟩
      simp only [after, ha, Option.bind_some]

/-- What every step keeps holds from any turn on. -/
theorem keeps {p : σ → Prop} (hstep : ∀ s a t, p s → step a s = some t → p t) {n m : Nat}
    (hp : p (b.state n)) (hm : n ≤ m) : p (b.state m) := by
  induction hm with
  | refl => exact hp
  | @step m hm ih =>
    rcases b.state_succ m with hsame | ⟨a, ha⟩
    · rwa [hsame]
    · exact hstep _ a _ ih ha

namespace LeadsTo

variable {p q r : σ → Prop}

/-- What holds at once. -/
theorem of_imp (h : ∀ n, p (b.state n) → q (b.state n)) : b.LeadsTo p q :=
  fun n hp => ⟨n, Nat.le_refl n, h n hp⟩

theorem trans (hpq : b.LeadsTo p q) (hqr : b.LeadsTo q r) : b.LeadsTo p r := by
  intro n hp
  obtain ⟨m, hm, hq⟩ := hpq n hp
  obtain ⟨k, hk, hr⟩ := hqr m hq
  exact ⟨k, Nat.le_trans hm hk, hr⟩

theorem or (hpr : b.LeadsTo p r) (hqr : b.LeadsTo q r) : b.LeadsTo (fun s => p s ∨ q s) r := by
  rintro n (hp | hq)
  · exact hpr n hp
  · exact hqr n hq

theorem of_exists {ι : Type*} {p : ι → σ → Prop} (h : ∀ i, b.LeadsTo (p i) q) :
    b.LeadsTo (fun s => ∃ i, p i s) q := by
  rintro n ⟨i, hp⟩
  exact h i n hp

/-- **The measure rule**: what leads to `q` or to less of a measure leads
to `q`. -/
theorem of_measure (measure : σ → Nat)
    (h : ∀ k, b.LeadsTo (fun s => p s ∧ measure s = k) (fun s => q s ∨ (p s ∧ measure s < k))) :
    b.LeadsTo p q := by
  intro n hp
  generalize hk : measure (b.state n) = k
  induction k using Nat.strongRecOn generalizing n with
  | ind k ih =>
    obtain ⟨m, hm, hq | ⟨hp', hless⟩⟩ := h k n ⟨hp, hk⟩
    · exact ⟨m, hm, hq⟩
    · obtain ⟨m', hm', hq⟩ := ih _ hless m hp' rfl
      exact ⟨m', Nat.le_trans hm hm', hq⟩

end LeadsTo

/-- **The rule of fair progress**: where `p` lasts until `q`, enables one
of the actions all along, and each of them taken in it leads to `q`, then
`p` leads to `q`. -/
theorem leadsTo_of_fair {among : α → Prop} {p q : σ → Prop} (hfair : b.Fair among)
    (hlasts : ∀ s a t, p s → step a s = some t → p t ∨ q t)
    (henabled : ∀ s, p s → ∃ a, among a ∧ (step a s).isSome)
    (hacts : ∀ s a t, p s → among a → step a s = some t → q t) : b.LeadsTo p q := by
  intro n hp
  by_contra hnever
  have hnot (m : Nat) (hm : n ≤ m) : ¬ q (b.state m) := fun hq => hnever ⟨m, hm, hq⟩
  have hlong (m : Nat) (hm : n ≤ m) : p (b.state m) := by
    induction hm with
    | refl => exact hp
    | @step m hm ih =>
      rcases b.state_succ m with hsame | ⟨a, ha⟩
      · rwa [hsame]
      · exact (hlasts _ a _ ih ha).resolve_right (hnot (m + 1) (Nat.le_succ_of_le hm))
  obtain ⟨m, a, hm, hamong, haction⟩ := hfair n (fun m hm => henabled _ (hlong m hm))
  exact hnot (m + 1) (Nat.le_succ_of_le hm) (hacts _ a _ (hlong m hm) hamong (b.acts m a haction))

/-- **The rule of fair progress with a measure**: where `p` lasts until `q`
with no more of the measure, one of the actions is enabled all along, and
each of them taken leads to `q` or to less, then `p` leads to `q`. -/
theorem leadsTo_of_measure {among : α → Prop} {p q : σ → Prop} (measure : σ → Nat)
    (hfair : b.Fair among)
    (hlasts : ∀ s a t, p s → step a s = some t → q t ∨ (p t ∧ measure t ≤ measure s))
    (henabled : ∀ s, p s → ∃ a, among a ∧ (step a s).isSome)
    (hacts : ∀ s a t, p s → among a → step a s = some t → q t ∨ (p t ∧ measure t < measure s)) :
    b.LeadsTo p q := by
  refine .of_measure measure (fun k => ?_)
  refine leadsTo_of_fair hfair ?_ (fun s hs => henabled s hs.1) ?_
  · rintro s a t ⟨hp, rfl⟩ hstep
    rcases hlasts s a t hp hstep with hq | ⟨hp', hle⟩
    · exact .inr (.inl hq)
    · rcases Nat.lt_or_eq_of_le hle with hless | heq
      · exact .inr (.inr ⟨hp', hless⟩)
      · exact .inl ⟨hp', heq⟩
  · rintro s a t ⟨hp, rfl⟩ hamong hstep
    exact hacts s a t hp hamong hstep

/-! ## Behaviours that stop -/

/-- Nothing happens. -/
def rest (step : α → σ → Option σ) (s : σ) : Behaviour step where
  state _ := s
  action _ := none
  idle _ _ := rfl
  acts _ _ h := by cases h

/-- One action first. -/
def cons (a : α) (s : σ) (b : Behaviour step) (h : step a s = some (b.state 0)) :
    Behaviour step where
  state
    | 0 => s
    | n + 1 => b.state n
  action
    | 0 => some a
    | n + 1 => b.action n
  idle n hidle := by
    cases n with
    | zero => cases hidle
    | succ n => exact b.idle n hidle
  acts n a' hacts := by
    cases n with
    | zero =>
      cases hacts
      exact h
    | succ n => exact b.acts n a' hacts

/-- A finite run, and then nothing: the behaviour passes the states the
run passes, and stays where it ends. -/
theorem of_run {as : List α} {s t : σ} (h : after step as s = some t) :
    ∃ b : Behaviour step, (∀ n, after step (as.take n) s = some (b.state n)) ∧
      ∀ n, as.length ≤ n → b.state n = t ∧ b.action n = none := by
  induction as generalizing s with
  | nil =>
    cases h
    exact ⟨rest step t, fun n => by rw [List.take_nil]; rfl, fun n _ => ⟨rfl, rfl⟩⟩
  | cons a as ih =>
    obtain ⟨s', hs', ht⟩ := after_cons_iff.mp h
    obtain ⟨b, hpasses, hstops⟩ := ih ht
    have hstart : b.state 0 = s' := Option.some.inj (hpasses 0).symm
    refine ⟨cons a s b (hstart ▸ hs'), fun n => ?_, fun n hn => ?_⟩
    · cases n with
      | zero => rfl
      | succ n => exact after_cons_iff.mpr ⟨s', hs', hpasses n⟩
    · cases n with
      | zero => simp at hn
      | succ n => exact hstops n (by simpa using hn)

/-- A behaviour that stops where none of the actions is enabled is fair to
them. -/
theorem Fair.of_stops {among : α → Prop} {t : σ} {k : Nat} (hstops : ∀ n, k ≤ n → b.state n = t)
    (hdisabled : ∀ a, among a → step a t = none) : b.Fair among := by
  intro n henabled
  obtain ⟨a, hamong, hsome⟩ := henabled (max n k) (Nat.le_max_left n k)
  rw [hstops _ (Nat.le_max_right n k), hdisabled a hamong] at hsome
  cases hsome

end Behaviour

end Run
