import NostdbServer.Lib.OrdMap
import NostdbServer.Lib.Utf8

/-!
# Json — the values of `serde_json`

The daemon holds every message and the catalog document as a
`serde_json::Value`. Its `Map` is a `BTreeMap`, so an object is its
members in key order; `Value.object` holds that list and `asObject` reads
it as a `Map`, whose order is part of the type. A list out of order is
nothing `serde_json` can build, and `asObject` does not read one.

Numbers keep the three forms `serde_json` has without arbitrary
precision. A float is carried, never computed with, so it is its text.
-/

namespace NostdbServer

/-- A JSON number as `serde_json` holds it. -/
inductive Number where
  | posInt (n : UInt64)
  | negInt (i : Int64)
  | float (text : String)
  deriving DecidableEq, Repr

/-- A JSON value. -/
inductive Value where
  | null
  | bool (b : Bool)
  | number (n : Number)
  | string (s : String)
  | array (items : List Value)
  | object (members : List (String × Value))

/-- The members of an object. -/
abbrev Map := OrdMap String Value

namespace Value

/-- `Value::Object(map)`. -/
def ofMap (map : Map) : Value := .object map.entries

/-- `json!` on an object literal: its members inserted in turn. -/
def json (members : List (String × Value)) : Value := ofMap (OrdMap.ofList members)

/-- `Value::Number` of a `u64`. -/
def u64 (n : UInt64) : Value := .number (.posInt n)

def asObject : Value → Option Map
  | object members => if h : OrdMap.Entries.Sorted members then some ⟨members, h⟩ else none
  | _ => none

def asArray : Value → Option (List Value)
  | array items => some items
  | _ => none

def asStr : Value → Option String
  | string s => some s
  | _ => none

def asU64 : Value → Option UInt64
  | number (.posInt n) => some n
  | _ => none

@[simp] theorem asObject_ofMap (map : Map) : (ofMap map).asObject = some map :=
  dif_pos map.sorted

theorem eq_ofMap_of_asObject {v : Value} {map : Map} (h : v.asObject = some map) :
    v = ofMap map := by
  cases v with
  | object members =>
    simp only [asObject] at h
    split at h
    · cases h
      rfl
    · cases h
  | _ => cases h

theorem eq_string_of_asStr {v : Value} {s : String} (h : v.asStr = some s) : v = .string s := by
  cases v <;> first | cases h; rfl | cases h

theorem eq_u64_of_asU64 {v : Value} {n : UInt64} (h : v.asU64 = some n) : v = u64 n := by
  cases v with
  | number k =>
    cases k with
    | posInt m =>
      cases h
      rfl
    | _ => cases h
  | _ => cases h

/-- A member of an object; `none` where the value is no object or has no
such member. -/
def get (v : Value) (key : String) : Option Value := v.asObject.bind (·.get? key)

@[simp] theorem get_ofMap (map : Map) (key : String) : (ofMap map).get key = map.get? key := by
  simp [get]

/-! ## The compact writer

`serde_json::to_string`: no white space, members in key order, the short
escapes of `ESCAPE` where there is one. -/

/-- The characters a control byte or a delimiter is written as inside a
string. -/
def escape (c : Char) : List Char :=
  if c = '\x22' then ['\\', '\x22']
  else if c = '\\' then ['\\', '\\']
  else if c = '\x08' then ['\\', 'b']
  else if c = '\t' then ['\\', 't']
  else if c = '\n' then ['\\', 'n']
  else if c = '\x0c' then ['\\', 'f']
  else if c = '\r' then ['\\', 'r']
  else if c.toNat < 0x20 then
    ['\\', 'u', '0', '0', Nat.digitChar (c.toNat / 16), Nat.digitChar (c.toNat % 16)]
  else [c]

def writeString (s : String) : String :=
  "\"" ++ String.ofList (s.toList.flatMap escape) ++ "\""

def writeNumber : Number → String
  | .posInt n => toString n.toNat
  | .negInt i => toString i.toInt
  | .float text => text

mutual

/-- The compact text of a value. -/
def write : Value → String
  | null => "null"
  | bool b => if b then "true" else "false"
  | number n => writeNumber n
  | string s => writeString s
  | array items => "[" ++ writeItems items ++ "]"
  | object members => "\x7b" ++ writeMembers members ++ "\x7d"

def writeItems : List Value → String
  | [] => ""
  | [v] => write v
  | v :: w :: rest => write v ++ "," ++ writeItems (w :: rest)

def writeMembers : List (String × Value) → String
  | [] => ""
  | [(key, v)] => writeString key ++ ":" ++ write v
  | (key, v) :: p :: rest => writeString key ++ ":" ++ write v ++ "," ++ writeMembers (p :: rest)

end

/-! ## The pretty writer

`serde_json::to_string_pretty`: two spaces a level, one member a line. -/

/-- A line break and the indentation of `level`. -/
def newline (level : Nat) : String := "\n" ++ String.ofList (List.replicate (2 * level) ' ')

mutual

/-- The pretty text of a value that stands at `level`. -/
def writePrettyAt (level : Nat) : Value → String
  | array [] => "[]"
  | array (v :: items) =>
      "[" ++ newline (level + 1) ++ writePrettyAt (level + 1) v
        ++ writePrettyItems (level + 1) items ++ newline level ++ "]"
  | object [] => "\x7b\x7d"
  | object ((key, v) :: members) =>
      "\x7b" ++ newline (level + 1) ++ writeString key ++ ": " ++ writePrettyAt (level + 1) v
        ++ writePrettyMembers (level + 1) members ++ newline level ++ "\x7d"
  | v => write v

def writePrettyItems (level : Nat) : List Value → String
  | [] => ""
  | v :: rest => "," ++ newline level ++ writePrettyAt level v ++ writePrettyItems level rest

def writePrettyMembers (level : Nat) : List (String × Value) → String
  | [] => ""
  | (key, v) :: rest =>
      "," ++ newline level ++ writeString key ++ ": " ++ writePrettyAt level v
        ++ writePrettyMembers level rest

end

/-- The pretty text of a value. -/
def writePretty (v : Value) : String := writePrettyAt 0 v

example : (json [("b", u64 2), ("a", .array [.null, .string "x"])]).write
    = "\x7b\"a\":[null,\"x\"],\"b\":2\x7d" := by decide

/-! ## The size of a text -/

/-- No escape is shorter than its character. -/
theorem utf8Size_le_escape (c : Char) : c.utf8Size ≤ ((escape c).map Char.utf8Size).sum := by
  unfold escape
  split_ifs with h₁ h₂ h₃ h₄ h₅ h₆ h₇ h₈
  · subst h₁
    decide
  · subst h₂
    decide
  · subst h₃
    decide
  · subst h₄
    decide
  · subst h₅
    decide
  · subst h₆
    decide
  · subst h₇
    decide
  · -- six characters stand for one of at most four bytes
    have hfour := c.utf8Size_le_four
    have hslash : '\\'.utf8Size = 1 := rfl
    have hu : 'u'.utf8Size = 1 := rfl
    have hzero : '0'.utf8Size = 1 := rfl
    simp only [List.map_cons, List.sum_cons]
    omega
  · simp

theorem utf8ByteSize_writeString_le (s : String) :
    s.utf8ByteSize + 2 ≤ (writeString s).utf8ByteSize := by
  have h : ∀ l : List Char, (l.map Char.utf8Size).sum ≤
      ((l.flatMap escape).map Char.utf8Size).sum := by
    intro l
    induction l with
    | nil => simp
    | cons c l ih =>
      have := utf8Size_le_escape c
      simp only [List.map_cons, List.sum_cons, List.flatMap_cons, List.map_append, List.sum_append]
      omega
  have hs := h s.toList
  rw [← Utf8.utf8ByteSize_ofList, String.ofList_toList, ← Utf8.utf8ByteSize_ofList] at hs
  have hquote : "\"".utf8ByteSize = 1 := rfl
  simp only [writeString, String.utf8ByteSize_append]
  omega

/-- What an entry takes of an object's text, at least. -/
def weight (p : String × Value) : Nat := p.1.utf8ByteSize + (write p.2).utf8ByteSize + 3

theorem weights_le_writeMembers (members : List (String × Value)) :
    (members.map weight).sum ≤ (writeMembers members).utf8ByteSize := by
  have hcolon : ":".utf8ByteSize = 1 := rfl
  have hcomma : ",".utf8ByteSize = 1 := rfl
  induction members with
  | nil => simp
  | cons p rest ih =>
    obtain ⟨key, v⟩ := p
    have hkey := utf8ByteSize_writeString_le key
    rw [List.map_cons, List.sum_cons, weight]
    cases rest with
    | nil =>
      simp only [writeMembers, String.utf8ByteSize_append, List.map_nil, List.sum_nil]
      omega
    | cons q rest =>
      simp only [writeMembers, String.utf8ByteSize_append]
      omega

theorem utf8ByteSize_write_ofMap (map : Map) :
    (map.entries.map weight).sum ≤ (write (ofMap map)).utf8ByteSize := by
  have := weights_le_writeMembers map.entries
  simp only [ofMap, write, String.utf8ByteSize_append]
  omega

/-- What stands in an object is no longer than the object. -/
theorem size_le_ofMap {map : Map} {key : String} {v : Value} (h : map.get? key = some v) :
    v.write.utf8ByteSize ≤ (ofMap map).write.utf8ByteSize := by
  have hmem : weight (key, v) ∈ map.entries.map weight :=
    List.mem_map_of_mem (OrdMap.mem_entries_iff.mpr h)
  have hsum := (List.le_sum_of_mem hmem).trans (utf8ByteSize_write_ofMap map)
  simp only [weight] at hsum
  omega

theorem size_le_writeItems {items : List Value} {v : Value} (h : v ∈ items) :
    v.write.utf8ByteSize ≤ (writeItems items).utf8ByteSize := by
  induction items with
  | nil => cases h
  | cons w rest ih =>
    cases rest with
    | nil =>
      obtain rfl := List.mem_singleton.mp h
      exact Nat.le_refl _
    | cons u rest =>
      simp only [writeItems, String.utf8ByteSize_append]
      rcases List.mem_cons.mp h with rfl | hrest
      · omega
      · have hless := ih hrest
        omega

/-- What stands in an array is no longer than the array. -/
theorem size_le_array {items : List Value} {v : Value} (h : v ∈ items) :
    v.write.utf8ByteSize ≤ (array items).write.utf8ByteSize := by
  have hitems := size_le_writeItems h
  simp only [write, String.utf8ByteSize_append]
  omega

end Value

/-- `{:?}` of a list of `u64`. -/
def debugU64s (numbers : List UInt64) : String :=
  "[" ++ ", ".intercalate (numbers.map (fun n => toString n.toNat)) ++ "]"

/-! ## What is taken from outside -/

/-- What the daemon calls of `serde_json`, and of the standard library's
`Debug` tables. A `Value` always serializes, so the writers are total;
`fromStr` answers with the text of its error. -/
structure Host where
  /-- `serde_json::from_str`. -/
  fromStr : String → Except String Value
  /-- `serde_json::to_string`. -/
  toString : Value → String
  /-- `serde_json::to_string_pretty`. -/
  toStringPretty : Value → String
  /-- `{:?}` of a `char`. -/
  debugChar : Char → String

/-- A host that writes as `serde_json` does and reads the listed texts;
any other text is no JSON to it. -/
def Host.reading (known : List (String × Value)) : Host where
  fromStr text :=
    match known.lookup text with
    | some value => .ok value
    | none => .error "expected value at line 1 column 1"
  toString := Value.write
  toStringPretty := Value.writePretty
  debugChar c := "'" ++ String.singleton c ++ "'"

end NostdbServer
