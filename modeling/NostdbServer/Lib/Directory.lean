import Mathlib.Logic.Function.Basic
import Mathlib.Data.List.Basic

/-!
# Directory — one directory, by name and by file

A name leads to a file and a file holds bytes, two maps: a file that was
opened stays what it is when its name is given to another file, and bytes
written through an open file reach whatever name it then has. `create`,
`write`, `rename` and `unlink` are the system calls of those names, each
one atomic. Names and files are arbitrary types; who allots a fresh file
is the caller's to say.
-/

/-- A directory: names `ν`, files `φ`, bytes `α`. -/
structure Directory (ν φ α : Type*) where
  entry : ν → Option φ
  data : φ → List α

namespace Directory

variable {ν φ α : Type*}

/-- The bytes under a name, if it is there. -/
def contents (d : Directory ν φ α) (name : ν) : Option (List α) := (d.entry name).map d.data

/-- `bytes` with `new` from `offset` on. A hole before it is filled. -/
def splice [Inhabited α] (bytes : List α) (offset : Nat) (new : List α) : List α :=
  bytes.take offset ++ List.replicate (offset - bytes.length) default ++ new
    ++ bytes.drop (offset + new.length)

/-- The bytes up to a point and the next piece are the bytes up to the end
of the piece. -/
theorem take_append_piece (bytes : List α) (offset n : Nat) :
    bytes.take offset ++ (bytes.drop offset).take n
      = bytes.take (offset + ((bytes.drop offset).take n).length) := by
  have hpiece : (bytes.drop offset).take ((bytes.drop offset).take n).length
      = (bytes.drop offset).take n := by
    rw [List.length_take, ← List.take_eq_take_min]
  rw [List.take_add, hpiece]

/-- Writing a text piece by piece: what is there so far, and one more
piece. -/
theorem splice_take [Inhabited α] {text : List α} {offset : Nat} (h : offset ≤ text.length)
    (n : Nat) : splice (text.take offset) offset ((text.drop offset).take n)
      = text.take (offset + ((text.drop offset).take n).length) := by
  have hlength : (text.take offset).length = offset := by
    rw [List.length_take, Nat.min_eq_left h]
  have hfront : (text.take offset).take offset = text.take offset := by
    rw [List.take_take, Nat.min_self]
  have hback : (text.take offset).drop (offset + ((text.drop offset).take n).length) = [] :=
    List.drop_eq_nil_of_le (by omega)
  rw [splice, hlength, hfront, hback, Nat.sub_self, List.replicate_zero, List.append_nil,
    List.append_nil, take_append_piece]

variable [DecidableEq ν] [DecidableEq φ]

/-- `open` for writing, with create and truncate: the file under the
name, or the fresh one, emptied. -/
def create (d : Directory ν φ α) (name : ν) (fresh : φ) : φ × Directory ν φ α :=
  let file := (d.entry name).getD fresh
  (file, ⟨Function.update d.entry name (some file), Function.update d.data file []⟩)

/-- `write` to an open file. -/
def write [Inhabited α] (d : Directory ν φ α) (file : φ) (offset : Nat) (new : List α) :
    Directory ν φ α :=
  { d with data := Function.update d.data file (splice (d.data file) offset new) }

/-- `rename`, `none` where there is no such name. Two names of one file
are left as they are. -/
def rename (d : Directory ν φ α) (old new : ν) : Option (Directory ν φ α) :=
  match d.entry old with
  | none => none
  | some file =>
      if d.entry new = some file then some d
      else some { d with
        entry := Function.update (Function.update d.entry old none) new (some file) }

/-- `unlink`. -/
def unlink (d : Directory ν φ α) (name : ν) : Directory ν φ α :=
  { d with entry := Function.update d.entry name none }

section

variable (d : Directory ν φ α)

theorem entry_create_self (name : ν) (fresh : φ) :
    (d.create name fresh).2.entry name = some (d.create name fresh).1 :=
  Function.update_self _ _ _

theorem entry_create_ne {name other : ν} (fresh : φ) (h : other ≠ name) :
    (d.create name fresh).2.entry other = d.entry other := Function.update_of_ne h _ _

theorem data_create_self (name : ν) (fresh : φ) :
    (d.create name fresh).2.data (d.create name fresh).1 = [] :=
  Function.update_self _ _ _

theorem data_create_ne {name : ν} {fresh file : φ} (h : file ≠ (d.create name fresh).1) :
    (d.create name fresh).2.data file = d.data file := Function.update_of_ne h _ _

/-- The file `create` opens is the one under the name, or the fresh one. -/
theorem create_file (name : ν) (fresh : φ) : d.entry name = some (d.create name fresh).1 ∨
    (d.entry name = none ∧ (d.create name fresh).1 = fresh) := by
  cases h : d.entry name with
  | none => exact .inr ⟨rfl, by simp [create, h]⟩
  | some file => exact .inl (by simp [create, h])

omit [DecidableEq ν] in
@[simp] theorem entry_write [Inhabited α] (file : φ) (offset : Nat) (new : List α) :
    (d.write file offset new).entry = d.entry := rfl

omit [DecidableEq ν] in
theorem data_write_self [Inhabited α] (file : φ) (offset : Nat) (new : List α) :
    (d.write file offset new).data file = splice (d.data file) offset new :=
  Function.update_self _ _ _

omit [DecidableEq ν] in
theorem data_write_ne [Inhabited α] {file other : φ} (h : other ≠ file) (offset : Nat)
    (new : List α) : (d.write file offset new).data other = d.data other :=
  Function.update_of_ne h _ _

omit [DecidableEq φ] in
@[simp] theorem data_unlink (name : ν) : (d.unlink name).data = d.data := rfl

omit [DecidableEq φ] in
theorem entry_unlink_self (name : ν) : (d.unlink name).entry name = none :=
  Function.update_self _ _ _

omit [DecidableEq φ] in
theorem entry_unlink_ne {name other : ν} (h : other ≠ name) :
    (d.unlink name).entry other = d.entry other := Function.update_of_ne h _ _

/-- What `rename` does to names that are of different files: the file
goes over to the new name, and no data changes. -/
theorem rename_inv {d d' : Directory ν φ α} {old new : ν} {file : φ}
    (hold : d.entry old = some file) (hnew : d.entry new ≠ some file)
    (h : d.rename old new = some d') :
    d'.data = d.data ∧ d'.entry new = some file ∧ d'.entry old = none ∧
      ∀ other, other ≠ old → other ≠ new → d'.entry other = d.entry other := by
  have hne : old ≠ new := fun heq => hnew (heq ▸ hold)
  simp only [rename, hold, if_neg hnew, Option.some.injEq] at h
  subst h
  refine ⟨rfl, Function.update_self _ _ _, ?_, ?_⟩
  · simp only [Function.update_of_ne hne, Function.update_self]
  · intro other holdne hnewne
    simp only [Function.update_of_ne hnewne, Function.update_of_ne holdne]

end

end Directory
