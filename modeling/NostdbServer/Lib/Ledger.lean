import Mathlib.Data.List.Basic

/-!
# Ledger — the transactions on one store, posted in order

A ledger follows one store that holds at most one transaction at a time:
what the store holds, and what it held when the open transaction began. A
log of postings is accepted when each posting fits the ledger it meets.

What acceptance means is proved here for any log: the contents change
only by a publication (`Posts.contents_eq`), every publication and every
discard ends the transaction begun right before it and a discard finds
the contents of that beginning (`Posts.begin_inv`, `Posts.discard_inv`),
and nothing is open where a rest is posted (`Posts.rest_inv`).
-/

/-- What the attached store holds, and what it held when the open
transaction began. -/
structure Ledger (α : Type*) where
  contents : Option α
  active : Option α

namespace Ledger

variable {α : Type*}

/-- One posting. -/
inductive Posting (α : Type*) where
  | attach (contents : α)
  | detach
  | begin (contents : α)
  /-- A publication was attempted: what the store held and holds. -/
  | publish (before after : α)
  | discard (after : α)
  /-- A point at which no transaction may be open. -/
  | rest
  deriving DecidableEq

/-- A ledger with nothing attached. -/
def empty : Ledger α := ⟨none, none⟩

/-- Which posting fits which ledger, and the ledger it leaves. -/
inductive Post : Ledger α → Posting α → Ledger α → Prop where
  | attach (a : α) : Post ⟨none, none⟩ (.attach a) ⟨some a, none⟩
  | detach (c : Option α) : Post ⟨c, none⟩ .detach ⟨none, none⟩
  | begin (a : α) : Post ⟨some a, none⟩ (.begin a) ⟨some a, some a⟩
  | publish (a b : α) : Post ⟨some a, some a⟩ (.publish a b) ⟨some b, none⟩
  | discard (a : α) : Post ⟨some a, some a⟩ (.discard a) ⟨some a, none⟩
  | rest (c : Option α) : Post ⟨c, none⟩ .rest ⟨c, none⟩

/-- An accepted log. -/
inductive Posts : Ledger α → List (Posting α) → Ledger α → Prop where
  | nil (l : Ledger α) : Posts l [] l
  | cons {l m n : Ledger α} {p : Posting α} {ps : List (Posting α)} (h : Post l p m)
      (h' : Posts m ps n) : Posts l (p :: ps) n

theorem Posts.one {l m : Ledger α} {p : Posting α} (h : Post l p m) : Posts l [p] m :=
  .cons h (.nil m)

theorem posts_append {l n : Ledger α} {ps qs : List (Posting α)} :
    Posts l (ps ++ qs) n ↔ ∃ m, Posts l ps m ∧ Posts m qs n := by
  induction ps generalizing l with
  | nil =>
    constructor
    · intro h
      exact ⟨l, .nil l, h⟩
    · rintro ⟨m, h, h'⟩
      cases h
      exact h'
  | cons p ps ih =>
    constructor
    · intro h
      cases h with
      | cons hp hrest =>
        obtain ⟨m, hm, hn⟩ := ih.mp hrest
        exact ⟨m, .cons hp hm, hn⟩
    · rintro ⟨m, h, h'⟩
      cases h with
      | cons hp hrest => exact .cons hp (ih.mpr ⟨m, hrest, h'⟩)

/-- Two accepted logs, one behind the other. -/
theorem Posts.append {l m n : Ledger α} {ps qs : List (Posting α)} (h : Posts l ps m)
    (h' : Posts m qs n) : Posts l (ps ++ qs) n := posts_append.mpr ⟨m, h, h'⟩

/-- The contents as the attachments and the publications alone give them. -/
def contentsAfter : Option α → List (Posting α) → Option α
  | c, [] => c
  | _, .attach a :: ps => contentsAfter (some a) ps
  | _, .detach :: ps => contentsAfter none ps
  | _, .publish _ b :: ps => contentsAfter (some b) ps
  | c, _ :: ps => contentsAfter c ps

/-- **Only a publication changes what an attached store holds.** -/
theorem Posts.contents_eq {l m : Ledger α} {ps : List (Posting α)} (h : Posts l ps m) :
    m.contents = contentsAfter l.contents ps := by
  induction h with
  | nil => rfl
  | cons hp _ ih =>
    rw [ih]
    cases hp <;> rfl

/-- A transaction is open only right behind its beginning. -/
theorem Posts.active_inv {l m : Ledger α} {ps : List (Posting α)} {a : α} (h : Posts l ps m)
    (hl : l.active = none) (hm : m.active = some a) : ∃ qs, ps = qs ++ [.begin a] := by
  rcases List.eq_nil_or_concat ps with rfl | ⟨qs, p, rfl⟩
  · cases h
    rw [hl] at hm
    cases hm
  · rw [List.concat_eq_append] at h ⊢
    obtain ⟨n, -, hp⟩ := posts_append.mp h
    cases hp with
    | cons hp hnil =>
      cases hnil
      cases hp with
      | begin b =>
        cases hm
        exact ⟨qs, rfl⟩
      | _ => cases hm

variable {l m : Ledger α} {ps qs : List (Posting α)}

/-- A discard ends the transaction begun right before it, and the store
holds what it held at that beginning. -/
theorem Posts.discard_inv {a : α} (hl : l.active = none)
    (h : Posts l (ps ++ .discard a :: qs) m) : ∃ rs, ps = rs ++ [.begin a] := by
  obtain ⟨n, hn, hrest⟩ := posts_append.mp h
  cases hrest with
  | cons hp _ =>
    cases hp
    exact hn.active_inv hl rfl

/-- What follows a beginning is a publication or a discard of what it
found. -/
theorem Posts.begin_inv {a : α} {p : Posting α} (h : Posts l (ps ++ .begin a :: p :: qs) m) :
    p = .discard a ∨ ∃ b, p = .publish a b := by
  obtain ⟨n, -, hrest⟩ := posts_append.mp h
  cases hrest with
  | cons hbegin hrest =>
    cases hbegin
    cases hrest with
    | cons hp _ =>
      cases hp with
      | publish a b => exact .inr ⟨b, rfl⟩
      | discard a => exact .inl rfl

/-- No transaction is open at a rest. -/
theorem Posts.rest_inv (h : Posts l (ps ++ .rest :: qs) m) :
    ∃ c, Posts l ps ⟨c, none⟩ := by
  obtain ⟨n, hn, hrest⟩ := posts_append.mp h
  cases hrest with
  | cons hp _ =>
    cases hp
    exact ⟨_, hn⟩

end Ledger
