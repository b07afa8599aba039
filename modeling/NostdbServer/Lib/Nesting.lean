import Mathlib.Data.List.Infix
import Mathlib.Data.Int.Order.Basic

/-!
# Nesting — brackets, string literals, and texts cut off

A text of brackets and string literals is read from left to right; where
the reader stands is the depth of the brackets and whether it is inside a
literal. A `Balanced` text comes back to where it began and never goes
below. A bracketed text that is cut off leaves its bracket open
(`Balanced.cut`), so a reader that wants everything closed refuses it.

What opens, closes, quotes and escapes is a parameter.
-/

namespace Nesting

/-- What a text is delimited with. -/
structure Delimiters (α : Type*) where
  opens : α → Bool
  closes : α → Bool
  quote : α
  escape : α
  closes_of_opens : ∀ a, opens a = true → closes a = false
  opens_quote : opens quote = false
  closes_quote : closes quote = false

/-- Where a reader stands: between tokens, in a literal, or behind an
escape in one. -/
inductive Mode where
  | plain
  | quoted
  | escaped
  deriving DecidableEq, Repr

/-- Where a reader stands, and how deep. -/
structure Place where
  depth : Int
  mode : Mode
  deriving DecidableEq, Repr

variable {α : Type*} [DecidableEq α] (D : Delimiters α)

/-- One more character is read. -/
def next (place : Place) (c : α) : Place :=
  match place.mode with
  | .plain =>
      if D.opens c then ⟨place.depth + 1, .plain⟩
      else if D.closes c then ⟨place.depth - 1, .plain⟩
      else if c = D.quote then ⟨place.depth, .quoted⟩
      else place
  | .quoted =>
      if c = D.escape then ⟨place.depth, .escaped⟩
      else if c = D.quote then ⟨place.depth, .plain⟩
      else place
  | .escaped => ⟨place.depth, .quoted⟩

/-- A text is read. -/
def after (place : Place) (text : List α) : Place := text.foldl (next D) place

/-- Every bracket and every literal of the text is closed again. -/
def Closed (text : List α) : Prop := after D ⟨0, .plain⟩ text = ⟨0, .plain⟩

instance (text : List α) : Decidable (Closed D text) := inferInstanceAs (Decidable (_ = _))

@[simp] theorem after_nil (place : Place) : after D place [] = place := rfl

@[simp] theorem after_cons (place : Place) (c : α) (text : List α) :
    after D place (c :: text) = after D (next D place c) text := rfl

@[simp] theorem after_append (place : Place) (s t : List α) :
    after D place (s ++ t) = after D (after D place s) t := List.foldl_append

/-- A text that a reader leaves at the depth it came with, and that never
takes it below. -/
structure Balanced (text : List α) : Prop where
  ends : ∀ depth, after D ⟨depth, .plain⟩ text = ⟨depth, .plain⟩
  above : ∀ depth before, before <+: text → depth ≤ (after D ⟨depth, .plain⟩ before).depth

/-- What may stand inside a literal. -/
structure Quotable (text : List α) : Prop where
  ends : ∀ depth, after D ⟨depth, .quoted⟩ text = ⟨depth, .quoted⟩
  level : ∀ depth before, before <+: text → (after D ⟨depth, .quoted⟩ before).depth = depth

omit [DecidableEq α] in
/-- A prefix of two texts ends in the first, or has all of it. -/
theorem prefix_of_two {s t before : List α} (h : before <+: s ++ t) :
    before <+: s ∨ ∃ rest, rest <+: t ∧ before = s ++ rest := by
  obtain ⟨behind, heq⟩ := h
  rcases List.append_eq_append_iff.mp heq with ⟨more, rfl, -⟩ | ⟨more, rfl, rfl⟩
  · exact .inl (List.prefix_append before more)
  · exact .inr ⟨more, List.prefix_append more behind, rfl⟩

/-- A character that delimits nothing. -/
def Bare (c : α) : Prop := D.opens c = false ∧ D.closes c = false ∧ c ≠ D.quote

instance (c : α) : Decidable (Bare D c) := inferInstanceAs (Decidable (_ ∧ _ ∧ _))

variable {D} {s t : List α}

/-! ## Balanced texts -/

theorem Balanced.nil : Balanced D ([] : List α) where
  ends depth := rfl
  above depth before h := by
    rw [List.prefix_nil.mp h]
    exact le_refl depth

theorem Balanced.append (hs : Balanced D s) (ht : Balanced D t) : Balanced D (s ++ t) where
  ends depth := by rw [after_append, hs.ends, ht.ends]
  above := by
    intro depth before h
    rcases prefix_of_two h with hfirst | ⟨rest, hrest, rfl⟩
    · exact hs.above depth before hfirst
    · rw [after_append, hs.ends]
      exact ht.above depth rest hrest

theorem next_bare {c : α} (h : Bare D c) (depth : Int) :
    next D ⟨depth, .plain⟩ c = ⟨depth, .plain⟩ := by
  obtain ⟨hopens, hcloses, hquote⟩ := h
  simp [next, hopens, hcloses, hquote]

theorem Balanced.bare (h : ∀ c ∈ s, Bare D c) : Balanced D s := by
  induction s with
  | nil => exact .nil
  | cons c s ih =>
    have hc := next_bare (h c List.mem_cons_self)
    have hs := ih (fun c' hc' => h c' (List.mem_cons_of_mem c hc'))
    constructor
    · intro depth
      rw [after_cons, hc, hs.ends]
    · intro depth before hbefore
      rcases List.prefix_cons_iff.mp hbefore with rfl | ⟨rest, rfl, hrest⟩
      · exact le_refl depth
      · rw [after_cons, hc]
        exact hs.above depth rest hrest

theorem next_opens {a : α} (h : D.opens a = true) (depth : Int) :
    next D ⟨depth, .plain⟩ a = ⟨depth + 1, .plain⟩ := by
  simp [next, h]

theorem next_closes {b : α} (h : D.closes b = true) (depth : Int) :
    next D ⟨depth, .plain⟩ b = ⟨depth - 1, .plain⟩ := by
  have hopens : D.opens b = false := by
    by_contra hopens
    rw [D.closes_of_opens b (by simpa using hopens)] at h
    cases h
  simp [next, hopens, h]

/-- **A bracketed text that is cut off** leaves its bracket open. -/
theorem Balanced.cut (h : Balanced D s) {a b : α} (ha : D.opens a = true) {before : List α}
    (hbefore : before <+: a :: s ++ [b]) (hne : before ≠ []) (hcut : before ≠ a :: s ++ [b])
    (depth : Int) : depth < (after D ⟨depth, .plain⟩ before).depth := by
  rcases prefix_of_two hbefore with hinside | ⟨rest, hrest, rfl⟩
  · rcases List.prefix_cons_iff.mp hinside with rfl | ⟨rest, rfl, hrest⟩
    · exact absurd rfl hne
    · rw [after_cons, next_opens ha]
      have := h.above (depth + 1) rest hrest
      omega
  · -- what is behind the text is the closing bracket, and that is cut off
    rcases List.prefix_cons_iff.mp hrest with rfl | ⟨rest', rfl, hrest'⟩
    · rw [List.append_nil, after_cons, next_opens ha, h.ends]
      show depth < depth + 1
      omega
    · rw [List.prefix_nil.mp hrest'] at hcut
      exact absurd rfl hcut

theorem Balanced.bracketed (h : Balanced D s) {a b : α} (ha : D.opens a = true)
    (hb : D.closes b = true) : Balanced D (a :: s ++ [b]) := by
  have hwhole (depth : Int) : after D ⟨depth, .plain⟩ (a :: s ++ [b]) = ⟨depth, .plain⟩ := by
    rw [after_append, after_cons D _ a s, next_opens ha, h.ends, after_cons, next_closes hb,
      after_nil]
    show (⟨depth + 1 - 1, .plain⟩ : Place) = ⟨depth, .plain⟩
    rw [Int.add_sub_cancel]
  refine ⟨hwhole, ?_⟩
  intro depth before hbefore
  by_cases hne : before = []
  · subst hne
    exact le_refl depth
  · by_cases hall : before = a :: s ++ [b]
    · rw [hall, hwhole]
    · exact le_of_lt (h.cut ha hbefore hne hall depth)

/-- A text that is all closed is not one that was cut off. -/
theorem Balanced.not_closed (h : Balanced D s) {a b : α} (ha : D.opens a = true) {before : List α}
    (hbefore : before <+: a :: s ++ [b]) (hne : before ≠ []) (hcut : before ≠ a :: s ++ [b]) :
    ¬ Closed D before := by
  intro hclosed
  have hdepth := h.cut ha hbefore hne hcut 0
  rw [hclosed] at hdepth
  exact absurd hdepth (lt_irrefl 0)

/-! ## Literals -/

theorem Quotable.nil : Quotable D ([] : List α) where
  ends depth := rfl
  level depth before h := by
    rw [List.prefix_nil.mp h]
    rfl

theorem Quotable.append (hs : Quotable D s) (ht : Quotable D t) : Quotable D (s ++ t) where
  ends depth := by rw [after_append, hs.ends, ht.ends]
  level := by
    intro depth before h
    rcases prefix_of_two h with hfirst | ⟨rest, hrest, rfl⟩
    · exact hs.level depth before hfirst
    · rw [after_append, hs.ends]
      exact ht.level depth rest hrest

/-- A character that stands for itself. -/
theorem Quotable.single {c : α} (hescape : c ≠ D.escape) (hquote : c ≠ D.quote) :
    Quotable D [c] := by
  have hc (depth : Int) : next D ⟨depth, .quoted⟩ c = ⟨depth, .quoted⟩ := by
    simp [next, hescape, hquote]
  refine ⟨fun depth => hc depth, ?_⟩
  intro depth before h
  rcases List.prefix_cons_iff.mp h with rfl | ⟨rest, rfl, hrest⟩
  · rfl
  · rw [List.prefix_nil.mp hrest, after_cons, hc]
    rfl

/-- An escaped character, whichever it is. -/
theorem Quotable.escaped (c : α) : Quotable D [D.escape, c] := by
  have he (depth : Int) : next D ⟨depth, .quoted⟩ D.escape = ⟨depth, .escaped⟩ := by simp [next]
  refine ⟨fun depth => ?_, ?_⟩
  · rw [after_cons, he]
    rfl
  · intro depth before h
    rcases List.prefix_cons_iff.mp h with rfl | ⟨rest, rfl, hrest⟩
    · rfl
    · rw [after_cons, he]
      rcases List.prefix_cons_iff.mp hrest with rfl | ⟨rest', rfl, hrest'⟩
      · rfl
      · rw [List.prefix_nil.mp hrest']
        rfl

theorem Quotable.flatMap {β : Type*} {f : β → List α} {l : List β}
    (h : ∀ b ∈ l, Quotable D (f b)) : Quotable D (l.flatMap f) := by
  induction l with
  | nil => exact .nil
  | cons b l ih =>
    rw [List.flatMap_cons]
    exact (h b List.mem_cons_self).append
      (ih (fun b' hb' => h b' (List.mem_cons_of_mem b hb')))

/-- A literal is balanced, whatever brackets it has inside. -/
theorem Quotable.literal (h : Quotable D s) (hquote : D.quote ≠ D.escape) :
    Balanced D (D.quote :: s ++ [D.quote]) := by
  have hopening (depth : Int) : next D ⟨depth, .plain⟩ D.quote = ⟨depth, .quoted⟩ := by
    simp [next, D.opens_quote, D.closes_quote]
  have hclosing (depth : Int) : next D ⟨depth, .quoted⟩ D.quote = ⟨depth, .plain⟩ := by
    simp [next, hquote]
  constructor
  · intro depth
    rw [after_append, after_cons D _ D.quote s, hopening, h.ends, after_cons, hclosing]
    rfl
  · intro depth before hbefore
    rcases prefix_of_two hbefore with hinside | ⟨rest, hrest, rfl⟩
    · rcases List.prefix_cons_iff.mp hinside with rfl | ⟨rest, rfl, hrest⟩
      · exact le_refl depth
      · rw [after_cons, hopening, h.level depth rest hrest]
    · rw [after_append, after_cons, hopening, h.ends]
      rcases List.prefix_cons_iff.mp hrest with rfl | ⟨rest', rfl, hrest'⟩
      · exact le_refl depth
      · rw [List.prefix_nil.mp hrest', after_cons, hclosing]
        exact le_refl depth

end Nesting
