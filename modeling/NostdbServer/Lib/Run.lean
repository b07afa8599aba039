import Mathlib.Logic.Function.Iterate

/-!
# Run — finite runs of a system of guarded actions

A system is its partial step function: `step a s` is the state after the
action `a`, or `none` where `a` is not enabled. Any number of parties is
one action type that names the party, so a run is one interleaving and a
statement about every run is a statement about every schedule.

`Under ok` is the run's own condition: each action was taken in a state
that met `ok`. The two invariant rules carry a step lemma to whole runs,
without and with such a condition. `Passes` is what a run has come
through, told from where it ends by the rule of the cause.
-/

namespace Run

variable {σ : Type*} {α : Type*}

/-- The state after the listed actions, `none` where one is not enabled. -/
def after (step : α → σ → Option σ) : List α → σ → Option σ
  | [], s => some s
  | a :: as, s => (step a s).bind (after step as)

/-- Each action of the run met `ok` in the state it was taken in. -/
def Under (step : α → σ → Option σ) (ok : σ → α → Prop) : List α → σ → Prop
  | [], _ => True
  | a :: as, s => ok s a ∧ ∀ s', step a s = some s' → Under step ok as s'

variable {step : α → σ → Option σ}

theorem after_cons_iff {a : α} {as : List α} {s t : σ} :
    after step (a :: as) s = some t ↔ ∃ s', step a s = some s' ∧ after step as s' = some t :=
  Option.bind_eq_some_iff

/-- A run splits at any point: every state passed through is itself the
end of a run. -/
theorem after_append {as bs : List α} {s t : σ} :
    after step (as ++ bs) s = some t
      ↔ ∃ u, after step as s = some u ∧ after step bs u = some t := by
  induction as generalizing s with
  | nil => simp [after]
  | cons a as ih =>
    simp only [List.cons_append, after_cons_iff, ih]
    constructor
    · rintro ⟨s', hs, u, hu, ht⟩
      exact ⟨u, ⟨s', hs, hu⟩, ht⟩
    · rintro ⟨u, ⟨s', hs, hu⟩, ht⟩
      exact ⟨s', hs, u, hu, ht⟩

/-- A run that is checked to come to a state of which `p` holds. -/
theorem exists_of_any {p : σ → Prop} [DecidablePred p] {as : List α} {s : σ}
    (h : (after step as s).any (fun t => decide (p t)) = true) :
    ∃ t, after step as s = some t ∧ p t := by
  obtain ⟨t, ht, hp⟩ := (Option.any_eq_true _ _).mp h
  exact ⟨t, ht, of_decide_eq_true hp⟩

/-- **The invariant rule under a condition**: what every step that meets
`ok` keeps, every run whose steps all meet `ok` keeps. -/
theorem invariant_under {ok : σ → α → Prop} {inv : σ → Prop}
    (hstep : ∀ s a t, inv s → ok s a → step a s = some t → inv t)
    {as : List α} {s t : σ} (hs : inv s) (hok : Under step ok as s)
    (hrun : after step as s = some t) : inv t := by
  induction as generalizing s with
  | nil =>
    cases hrun
    exact hs
  | cons a as ih =>
    obtain ⟨s', hs', ht⟩ := after_cons_iff.mp hrun
    exact ih (hstep s a s' hs hok.1 hs') (hok.2 s' hs') ht

/-- **The invariant rule**: what every step keeps, every run keeps. -/
theorem invariant {inv : σ → Prop}
    (hstep : ∀ s a t, inv s → step a s = some t → inv t)
    {as : List α} {s t : σ} (hs : inv s) (hrun : after step as s = some t) : inv t := by
  induction as generalizing s with
  | nil =>
    cases hrun
    exact hs
  | cons a as ih =>
    obtain ⟨s', hs', ht⟩ := after_cons_iff.mp hrun
    exact ih (hstep s a s' hs hs') ht

/-- The run passes a state of which `p` holds. -/
def Passes (step : α → σ → Option σ) (p : σ → Prop) (as : List α) (s : σ) : Prop :=
  ∃ before behind u, as = before ++ behind ∧ after step before s = some u ∧ p u

/-- What a run passes before the end of a longer one, that one passes. -/
theorem Passes.append {p : σ → Prop} {as : List α} {s : σ} (h : Passes step p as s)
    (bs : List α) : Passes step p (as ++ bs) s := by
  obtain ⟨before, behind, u, rfl, hu, hp⟩ := h
  exact ⟨before, behind ++ bs, u, List.append_assoc _ _ _, hu, hp⟩

/-- **The rule of the cause**: where `q` comes about only behind a state of
which `p` holds, a run that comes to `q` has passed one. -/
theorem passes_of_step {p q : σ → Prop}
    (hstep : ∀ s a t, step a s = some t → q t → q s ∨ p s) {as : List α} {s t : σ} (hs : ¬q s)
    (hrun : after step as s = some t) (hq : q t) : Passes step p as s := by
  induction as generalizing s with
  | nil =>
    cases hrun
    exact absurd hq hs
  | cons a as ih =>
    obtain ⟨s', hs', ht⟩ := after_cons_iff.mp hrun
    by_cases hq' : q s'
    · exact ⟨[], a :: as, s, rfl, rfl, (hstep s a s' hs' hq').resolve_left hs⟩
    · obtain ⟨before, behind, u, rfl, hu, hp⟩ := ih hq' ht
      exact ⟨a :: before, behind, u, rfl, after_cons_iff.mpr ⟨s', hs', hu⟩, hp⟩

/-- **The refinement rule**: where each step is, between the states it is
seen as, a step of another system, or none, each run is a run of the other
system, of the steps that are seen. -/
theorem after_filterMap {τ : Type*} {β : Type*} {step' : β → τ → Option τ} {seen : σ → τ}
    {label : α → Option β}
    (hsilent : ∀ a s t, label a = none → step a s = some t → seen t = seen s)
    (hstep : ∀ a b s t, label a = some b → step a s = some t → step' b (seen s) = some (seen t))
    {as : List α} {s t : σ} (hrun : after step as s = some t) :
    after step' (as.filterMap label) (seen s) = some (seen t) := by
  induction as generalizing s with
  | nil =>
    cases hrun
    rfl
  | cons a as ih =>
    obtain ⟨u, hu, hrest⟩ := after_cons_iff.mp hrun
    cases hlabel : label a with
    | none =>
      rw [List.filterMap_cons_none hlabel, ← hsilent a s u hlabel hu]
      exact ih hrest
    | some b =>
      rw [List.filterMap_cons_some hlabel]
      exact after_cons_iff.mpr ⟨seen u, hstep a b s u hlabel hu, ih hrest⟩

/-- What is seen of a run: the label of each action in the state it was
taken in, where it has one. -/
def labels {β : Type*} (step : α → σ → Option σ) (label : α → σ → Option β) :
    List α → σ → List β
  | [], _ => []
  | a :: as, s =>
      match step a s with
      | none => []
      | some s' => (label a s).toList ++ labels step label as s'

/-- **The history rule**: what every step keeps of the labels so far and
the state, every run keeps. -/
theorem history_under {β : Type*} {ok : σ → α → Prop} {label : α → σ → Option β}
    {inv : List β → σ → Prop}
    (hstep : ∀ bs s a t, inv bs s → ok s a → step a s = some t → inv (bs ++ (label a s).toList) t)
    {as : List α} {bs : List β} {s t : σ} (hs : inv bs s) (hok : Under step ok as s)
    (hrun : after step as s = some t) : inv (bs ++ labels step label as s) t := by
  induction as generalizing bs s with
  | nil =>
    cases hrun
    rwa [labels, List.append_nil]
  | cons a as ih =>
    obtain ⟨s', hs', ht⟩ := after_cons_iff.mp hrun
    have hrest := ih (hstep bs s a s' hs hok.1 hs') (hok.2 s' hs') ht
    rw [List.append_assoc] at hrest
    simpa only [labels, hs'] using hrest

/-- Two conditions that agree wherever an invariant holds are met by the
same runs. -/
theorem Under.congr {ok ok' : σ → α → Prop} {inv : σ → Prop}
    (hstep : ∀ s a t, inv s → step a s = some t → inv t)
    (hagree : ∀ s a, inv s → (ok s a ↔ ok' s a)) {as : List α} {s : σ} (hs : inv s) :
    Under step ok as s ↔ Under step ok' as s := by
  induction as generalizing s with
  | nil => exact Iff.rfl
  | cons a as ih =>
    refine and_congr (hagree s a hs) (forall_congr' (fun s' => ?_))
    exact imp_congr_right (fun hs' => ih (hstep s a s' hs hs'))

/-- A condition that computes may be checked along a run. -/
instance Under.decidable {ok : σ → α → Prop} [∀ s a, Decidable (ok s a)] :
    ∀ (as : List α) (s : σ), Decidable (Under step ok as s)
  | [], _ => isTrue trivial
  | a :: as, s =>
      match hstep : step a s with
      | none => decidable_of_iff (ok s a) (by simp [Under, hstep])
      | some s' =>
          have : Decidable (Under step ok as s') := Under.decidable as s'
          decidable_of_iff (ok s a ∧ Under step ok as s') (by simp [Under, hstep])

/-- A condition that no action can miss is met by every run. -/
theorem Under.of_forall {ok : σ → α → Prop} (h : ∀ s a, ok s a) (as : List α) (s : σ) :
    Under step ok as s := by
  induction as generalizing s with
  | nil => trivial
  | cons a as ih => exact ⟨h s a, fun s' _ => ih s'⟩

/-- A condition on the actions alone is met where each of them meets it. -/
theorem Under.of_mem {ok : α → Prop} {as : List α} (h : ∀ a ∈ as, ok a) (s : σ) :
    Under step (fun _ a => ok a) as s := by
  induction as generalizing s with
  | nil => trivial
  | cons a as ih =>
    exact ⟨h a List.mem_cons_self, fun s' _ => ih (fun b hb => h b (List.mem_cons_of_mem _ hb)) s'⟩

/-- A deterministic system iterated: what every step keeps, every iterate
keeps. -/
theorem invariant_iterate {f : σ → σ} {inv : σ → Prop} (hstep : ∀ s, inv s → inv (f s))
    (n : Nat) {s : σ} (hs : inv s) : inv (f^[n] s) := by
  induction n generalizing s with
  | zero => exact hs
  | succ n ih => exact ih (hstep s hs)

/-! ## Labelled runs of a relation -/

/-- A run of a relation, with the labels of its steps in order. -/
inductive Path (next : σ → α → σ → Prop) : σ → List α → σ → Prop
  | nil (s : σ) : Path next s [] s
  | snoc {s t u : σ} {as : List α} {a : α} : Path next s as t → next t a u →
      Path next s (as ++ [a]) u

/-- What is said of the labels so far and the state, along a run. -/
theorem Path.invariant {next : σ → α → σ → Prop} {inv : List α → σ → Prop}
    (hstep : ∀ as s a t, inv as s → next s a t → inv (as ++ [a]) t) {as : List α} {s t : σ}
    (hs : inv [] s) (hpath : Path next s as t) : inv as t := by
  induction hpath with
  | nil => exact hs
  | snoc _ hnext ih => exact hstep _ _ _ _ ih hnext

/-- **The simulation rule**: where each step of a deterministic system is
a step of the relation, or none, between the states it is seen as, its
iteration is a run of the relation. -/
theorem Path.of_iterate {τ : Type*} {next : σ → α → σ → Prop} {f : τ → τ} {seen : τ → σ}
    {label : τ → Option α} (hsilent : ∀ x, label x = none → seen (f x) = seen x)
    (hstep : ∀ x a, label x = some a → next (seen x) a (seen (f x))) {s : σ} {as : List α} {x : τ}
    (hstart : Path next s as (seen x)) (n : Nat) :
    Path next s (as ++ (List.range n).filterMap (fun k => label (f^[k] x))) (seen (f^[n] x)) := by
  induction n with
  | zero => simpa using hstart
  | succ n ih =>
    rw [List.range_succ, List.filterMap_append, ← List.append_assoc, Function.iterate_succ_apply']
    cases hlabel : label (f^[n] x) with
    | none =>
      rw [hsilent _ hlabel]
      simpa [hlabel] using ih
    | some a => simpa [hlabel] using ih.snoc (hstep _ a hlabel)

end Run
