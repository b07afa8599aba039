import Mathlib.Logic.Function.Basic
import Mathlib.Data.List.Basic

/-!
# Register — histories of atomic registers

A register is a name and the value last put there. An operation puts a
value or gets one, at one moment, and a history lists them in the order of
those moments. It is `Legal` where every get got what was there: the value
of the last put before it, or the initial one.

An implementation is linearizable where the operations it did, each at a
moment between its begin and its end, are a legal history. Parties, names
and values are arbitrary types.
-/

namespace Register

/-- One operation of one party, with the value it put or got. -/
inductive Op (ι ν α : Type*) where
  | put (who : ι) (name : ν) (value : α)
  | get (who : ι) (name : ν) (value : α)

/-- Which operation of which party. -/
inductive Kind (ι : Type*) where
  | put (who : ι)
  | get (who : ι)
  deriving DecidableEq

variable {ι ν α : Type*} [DecidableEq ν]

def Op.kind : Op ι ν α → Kind ι
  | put who _ _ => .put who
  | get who _ _ => .get who

/-- The registers behind an operation. -/
def Op.apply : Op ι ν α → (ν → α) → ν → α
  | put _ name value, values => Function.update values name value
  | get _ _ _, values => values

/-- The operation got what is there. -/
def Op.Answered : Op ι ν α → (ν → α) → Prop
  | put _ _ _, _ => True
  | get _ name value, values => value = values name

/-- The registers behind a history. -/
def values (init : ν → α) (history : List (Op ι ν α)) : ν → α :=
  history.foldl (fun values op => op.apply values) init

/-- Every get of the history got what was there. -/
def Legal (init : ν → α) : List (Op ι ν α) → Prop
  | [] => True
  | op :: history => op.Answered init ∧ Legal (op.apply init) history

variable {init : ν → α} {history : List (Op ι ν α)}

@[simp] theorem values_nil : values init ([] : List (Op ι ν α)) = init := rfl

@[simp] theorem values_append (h h' : List (Op ι ν α)) :
    values init (h ++ h') = values (values init h) h' := List.foldl_append

@[simp] theorem values_cons (op : Op ι ν α) (h : List (Op ι ν α)) :
    values init (op :: h) = values (op.apply init) h := rfl

/-- A history goes on with an operation that got what is there. -/
theorem Legal.snoc {op : Op ι ν α} (h : Legal init history)
    (hop : op.Answered (values init history)) : Legal init (history ++ [op]) := by
  induction history generalizing init with
  | nil => exact ⟨hop, trivial⟩
  | cons first rest ih => exact ⟨h.1, ih h.2 hop⟩

end Register
