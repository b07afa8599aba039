import NostdbServer.Json

/-!
# JsonText — a JSON document as it is written

A `Value` is what `serde_json` keeps of a document. Two things it does
not keep: an integer literal beyond 64 bits is held as a float, and of
the members under one key only the last is held. A `Document` has both,
so that what is said of a text can be compared with what is made of its
value.

The reader itself is `serde_json`'s and is taken from outside
(`ReadsJson`): a text it refuses, for its own limits too, is no document.
-/

namespace NostdbServer

/-- A number as it is written: an integer, or a literal with a fraction
or an exponent. -/
inductive Literal where
  | integer (negative : Bool) (magnitude : Nat)
  | decimal (text : String)
  deriving DecidableEq, Repr

/-- A JSON document. -/
inductive Document where
  | null
  | bool (b : Bool)
  | number (literal : Literal)
  | string (s : String)
  | array (items : List Document)
  | object (members : List (String × Document))

/-- What a literal is held as, `round` giving the text of the float next
to it. Negative zero is a float. -/
def Literal.number (round : Literal → String) : Literal → Number
  | integer false n =>
      if n < 2 ^ 64 then .posInt (UInt64.ofNat n) else .float (round (integer false n))
  | integer true n =>
      if 0 < n ∧ n ≤ 2 ^ 63 then .negInt (Int64.ofInt (-n)) else .float (round (integer true n))
  | decimal text => .float (round (decimal text))

namespace Document

/-- What an object has under a key: the last member there. -/
def last (key : String) (members : List (String × Document)) : Option Document :=
  OrdMap.Entries.find key members.reverse

mutual

/-- What a document is held as. -/
def value (round : Literal → String) : Document → Value
  | null => .null
  | bool b => .bool b
  | number literal => .number (literal.number round)
  | string s => .string s
  | array items => .array (itemValues round items)
  | object members => Value.ofMap (OrdMap.ofList (memberValues round members))

def itemValues (round : Literal → String) : List Document → List Value
  | [] => []
  | d :: rest => value round d :: itemValues round rest

def memberValues (round : Literal → String) :
    List (String × Document) → List (String × Value)
  | [] => []
  | (key, d) :: rest => (key, value round d) :: memberValues round rest

end

/-- The object its members are held as. -/
def held (round : Literal → String) (members : List (String × Document)) : Map :=
  OrdMap.ofList (memberValues round members)

variable {round : Literal → String}

theorem memberValues_eq_map (members : List (String × Document)) :
    memberValues round members = members.map (fun p => (p.1, p.2.value round)) := by
  induction members with
  | nil => rfl
  | cons p rest ih =>
    obtain ⟨key, d⟩ := p
    rw [memberValues, ih]
    rfl

theorem get?_held (members : List (String × Document)) (key : String) :
    (held round members).get? key = (last key members).map (value round) := by
  rw [held, OrdMap.ofList, OrdMap.get?_insertAll_last, OrdMap.get?_empty, Option.or_none,
    memberValues_eq_map, ← List.map_reverse]
  exact OrdMap.find_map (fun _ d => value round d) key members.reverse

/-! ## What a value was written as -/

theorem value_eq_ofMap_iff {d : Document} {map : Map} :
    d.value round = Value.ofMap map ↔ ∃ members, d = object members ∧ map = held round members := by
  constructor
  · intro h
    cases d with
    | object members =>
      refine ⟨members, rfl, ?_⟩
      have hmap : (Value.ofMap (held round members)).asObject = (Value.ofMap map).asObject :=
        congrArg Value.asObject h
      rw [Value.asObject_ofMap, Value.asObject_ofMap] at hmap
      exact (Option.some.inj hmap).symm
    | _ => simp [value, Value.ofMap] at h
  · rintro ⟨members, rfl, rfl⟩
    rfl

theorem value_eq_string_iff {d : Document} {s : String} :
    d.value round = .string s ↔ d = string s := by
  constructor
  · intro h
    cases d with
    | string s' =>
      simp only [value, Value.string.injEq] at h
      rw [h]
    | _ => simp [value, Value.ofMap] at h
  · rintro rfl
    rfl

/-- A `u64` was written as the integer it is: no other literal is held
as one. -/
theorem value_eq_u64_iff {d : Document} {n : UInt64} :
    d.value round = Value.u64 n ↔ d = number (.integer false n.toNat) := by
  constructor
  · intro h
    cases d with
    | number literal =>
      simp only [value, Value.u64, Value.number.injEq] at h
      cases literal with
      | integer negative m =>
        cases negative with
        | false =>
          rw [Literal.number] at h
          split at h
          · rename_i hm
            injection h with hn
            rw [← hn, UInt64.toNat_ofNat_of_lt' hm]
          · cases h
        | true =>
          rw [Literal.number] at h
          split at h <;> cases h
      | decimal text => cases h
    | _ => simp [value, Value.ofMap, Value.u64] at h
  · rintro rfl
    rw [value, Literal.number, if_pos n.toNat_lt, UInt64.ofNat_toNat]
    rfl

/-! ## The same of a member -/

theorem get?_held_ofMap {members : List (String × Document)} {key : String} {map : Map} :
    (held round members).get? key = some (Value.ofMap map) ↔
      ∃ inner, last key members = some (object inner) ∧ map = held round inner := by
  rw [get?_held, Option.map_eq_some_iff]
  simp only [value_eq_ofMap_iff]
  constructor
  · rintro ⟨d, hd, inner, rfl, hmap⟩
    exact ⟨inner, hd, hmap⟩
  · rintro ⟨inner, hd, hmap⟩
    exact ⟨_, hd, inner, rfl, hmap⟩

theorem get?_held_string {members : List (String × Document)} {key s : String} :
    (held round members).get? key = some (.string s) ↔ last key members = some (string s) := by
  rw [get?_held, Option.map_eq_some_iff]
  simp only [value_eq_string_iff, exists_eq_right]

theorem get?_held_u64 {members : List (String × Document)} {key : String} {n : UInt64} :
    (held round members).get? key = some (Value.u64 n) ↔
      last key members = some (number (.integer false n.toNat)) := by
  rw [get?_held, Option.map_eq_some_iff]
  simp only [value_eq_u64_iff, exists_eq_right]

end Document

/-- `serde_json::from_str` reads the documents of `documentOf`, each as
the value it is held as. -/
structure ReadsJson (host : Host) (documentOf : String → Option Document)
    (round : Literal → String) : Prop where
  fromStr : ∀ text v, host.fromStr text = .ok v ↔
    ∃ document, documentOf text = some document ∧ document.value round = v

end NostdbServer
