import NostdbServer.Diagnostic
import NostdbServer.Json
import NostdbServer.Lib.Utf8

/-!
# Catalog — the named database catalog

`src/catalog.rs`: the document, its parser, and the operations on a
parsed catalog. A path is the byte string the operating system has for
it, which need not be UTF-8.

Problems are data here, with `Problem.text` for the source's wording, so
that two reports can be compared without comparing prose.

The representation invariant `Catalog.Wf` (names in the grammar, paths
absolute, no reserved member among the unknown ones) is proved of every
catalog the operations can build (`Reachable.wf`).
-/

namespace NostdbServer

open Utf8

/-- A Unix path: its bytes. -/
abbrev Path := List UInt8

namespace Path

/-- `PathBuf::from(text)`. -/
def ofText (text : String) : Path := utf8 text

/-- `Path::display`: ill-formed bytes are replaced. -/
def display (path : Path) : String := lossy path

/-- `Path::is_absolute` on Unix. -/
def isAbsolute (path : Path) : Bool := path.head? == some 0x2F

end Path

/-- A problem found in a catalog. -/
inductive Problem where
  | notJson (error : String)
  | notAnObject
  | versionAbsent
  | versionNotPositive
  | versionUnsupported (version : UInt64)
  | databasesAbsent
  | databasesNotAnObject
  | nameEmpty
  | nameSigil (name : String)
  | nameStart (name : String)
  | nameCharacter (name : String) (bad : Char)
  | entryNotAnObject
  | pathAbsent
  | pathNotAString
  | pathEmpty
  | pathRelative (path : Path)
  | entry (name : String) (problem : Problem)
  deriving DecidableEq, Repr

/-- The versions of the catalog contract this build reads. -/
def Catalog.SUPPORTED_VERSIONS : List UInt64 := [1]

/-- The text a problem is reported with. -/
def Problem.text (host : Host) : Problem → String
  | notJson error => "the catalog is not valid JSON: " ++ error
  | notAnObject => "a catalog is a JSON object"
  | versionAbsent =>
      "catalog_version is absent, and it is what makes every other rule interpretable"
  | versionNotPositive => "catalog_version must be a positive integer"
  | versionUnsupported version =>
      "catalog_version " ++ toString version.toNat
        ++ " is not one this build reads; supported: " ++ debugU64s Catalog.SUPPORTED_VERSIONS
  | databasesAbsent =>
      "databases is absent, and an absent member is indistinguishable from a truncated file"
  | databasesNotAnObject =>
      "databases must be an object, because the name is the key and an array would allow two entries claiming one name"
  | nameEmpty => "a name is not empty"
  | nameSigil name => name ++ ": the @ sigil belongs to the command line, not to the name"
  | nameStart name => name ++ ": a name starts with an ASCII letter or digit"
  | nameCharacter name bad =>
      name ++ ": " ++ host.debugChar bad
        ++ " is not allowed in a name, which excludes path separators and whitespace so a name is never mistaken for a path"
  | entryNotAnObject =>
      "an entry is an object, so a bare value has no room for the members a later version adds"
  | pathAbsent => "path is absent, and an entry with no target is not a claim about anything"
  | pathNotAString => "path is a string"
  | pathEmpty => "path is empty"
  | pathRelative path =>
      "path " ++ path.display
        ++ " is relative, and a catalog is resolved from an arbitrary working directory, so a relative path has no anchor"
  | entry name problem => name ++ ": " ++ problem.text host

/-- Why a catalog was refused: every problem found, in the order found. -/
structure Rejection where
  code : Code
  problems : List Problem
  deriving DecidableEq, Repr

/-- `Display`: the code, then one indented line for each problem. -/
def Rejection.display (host : Host) (rejection : Rejection) : String :=
  rejection.problems.foldl (fun text problem => text ++ "\n  " ++ problem.text host)
    rejection.code.asStr

/-- What `fs::read_to_string` gives. -/
inductive ReadToString where
  | text (text : String)
  | notFound
  | failed (error : String)
  deriving DecidableEq, Repr

/-- A failure reading or writing a catalog. -/
inductive CatalogError where
  | rejected (rejection : Rejection)
  | io (error : String)
  deriving DecidableEq, Repr

def CatalogError.display (host : Host) : CatalogError → String
  | rejected rejection => rejection.display host
  | io error => error

/-- One catalog entry: a name's target, and the members this build does
not interpret. -/
structure Entry where
  path : Path
  unknown : Map

/-- A parsed catalog. -/
structure Catalog where
  databases : OrdMap String Entry
  unknown : Map

namespace Catalog

/-- The version this build writes. -/
def CURRENT_VERSION : UInt64 := 1

/-- `Catalog::default()`. -/
def default : Catalog := ⟨OrdMap.empty, OrdMap.empty⟩

/-- Whether a character may stand in a name behind the first. -/
def nameCharacter (c : Char) : Bool := c.isAlphanum || c == '_' || c == '-'

/-- The reason a name is refused, if it is. -/
def nameProblem (name : String) : Option Problem :=
  match name.toList with
  | [] => some .nameEmpty
  | first :: characters =>
      if first = '@' then some (.nameSigil name)
      else if first.isAlphanum then
        (characters.find? (fun c => !nameCharacter c)).map (.nameCharacter name)
      else some (.nameStart name)

/-- The reason a path is refused, if it is. -/
def pathProblem (path : Path) : Option Problem :=
  if path = [] then some .pathEmpty
  else if path.isAbsolute then none
  else some (.pathRelative path)

def entryFrom (value : Value) : Except Problem Entry :=
  match value.asObject with
  | none => .error .entryNotAnObject
  | some object =>
      match object.get? "path" with
      | none => .error .pathAbsent
      | some raw =>
          match raw.asStr with
          | none => .error .pathNotAString
          | some text =>
              match pathProblem (Path.ofText text) with
              | some problem => .error problem
              | none => .ok ⟨Path.ofText text, object.remove "path"⟩

/-- One turn of the loop over `databases`: a name problem is reported and
the entry behind it not looked at. -/
def readEntry (name : String) (value : Value) : Except Problem Entry :=
  match nameProblem name with
  | some problem => .error problem
  | none =>
      match entryFrom value with
      | .ok entry => .ok entry
      | .error problem => .error (.entry name problem)

/-- The loop over `databases`. -/
def readEntries (map : Map) : OrdMap String Entry × List Problem :=
  map.entries.foldl (fun (entries, problems) (name, value) =>
    match readEntry name value with
    | .ok entry => (entries.insert name entry, problems)
    | .error problem => (entries, problems ++ [problem])) (OrdMap.empty, [])

/-- The version rule, decided before every other. -/
def versionRejection (object : Map) : Option Rejection :=
  match object.get? "catalog_version" with
  | none => some ⟨.catalogInvalid, [.versionAbsent]⟩
  | some value =>
      match value.asU64.filter (fun version => decide (version ≥ 1)) with
      | none => some ⟨.catalogInvalid, [.versionNotPositive]⟩
      | some version =>
          if SUPPORTED_VERSIONS.contains version then none
          else some ⟨.catalogVersionUnsupported, [.versionUnsupported version]⟩

/-- The entries of `databases` and the problems found in it. -/
def readDatabases (object : Map) : OrdMap String Entry × List Problem :=
  match object.get? "databases" with
  | none => (OrdMap.empty, [.databasesAbsent])
  | some value =>
      match value.asObject with
      | some map => readEntries map
      | none => (OrdMap.empty, [.databasesNotAnObject])

/-- `parse`, once the text is a JSON value. -/
def fromDocument (document : Value) : Except Rejection Catalog :=
  match document.asObject with
  | none => .error ⟨.catalogInvalid, [.notAnObject]⟩
  | some object =>
      match versionRejection object with
      | some rejection => .error rejection
      | none =>
          let (entries, problems) := readDatabases object
          if problems = [] then
            .ok ⟨entries, (object.remove "catalog_version").remove "databases"⟩
          else .error ⟨.catalogInvalid, problems⟩

/-- Parses a catalog document. -/
def parse (host : Host) (text : String) : Except Rejection Catalog :=
  match host.fromStr text with
  | .error error => .error ⟨.catalogInvalid, [.notJson error]⟩
  | .ok document => fromDocument document

/-- Reads the catalog, treating absence as an empty catalog. -/
def load (host : Host) (read : ReadToString) : Except CatalogError Catalog :=
  match read with
  | .text text =>
      match parse host text with
      | .ok catalog => .ok catalog
      | .error rejection => .error (.rejected rejection)
  | .notFound => .ok default
  | .failed error => .error (.io error)

/-- The names in the catalog, in order. -/
def names (catalog : Catalog) : List String := catalog.databases.entries.map Prod.fst

/-- The entry a name refers to. -/
def get (catalog : Catalog) (name : String) : Option Entry := catalog.databases.get? name

/-- Whether the catalog holds no names. -/
def isEmpty (catalog : Catalog) : Bool := catalog.databases.entries.isEmpty

theorem names_sorted (catalog : Catalog) : catalog.names.Pairwise (· < ·) :=
  List.pairwise_map.mpr catalog.databases.sorted

@[simp] theorem mem_names {catalog : Catalog} {name : String} :
    name ∈ catalog.names ↔ (catalog.get name).isSome := by
  rw [names, List.mem_map, get, Option.isSome_iff_exists]
  constructor
  · rintro ⟨⟨k, entry⟩, hmem, rfl⟩
    exact ⟨entry, OrdMap.mem_entries_iff.mp hmem⟩
  · rintro ⟨entry, hentry⟩
    exact ⟨(name, entry), OrdMap.mem_entries_iff.mpr hentry, rfl⟩

theorem isEmpty_iff {catalog : Catalog} : catalog.isEmpty = true ↔ catalog.names = [] := by
  rw [isEmpty, names, List.isEmpty_iff, List.map_eq_nil_iff]

/-- The problems `insert` reports for a name and a path. -/
def insertProblems (name : String) (path : Path) : List Problem :=
  (nameProblem name).toList ++ ((pathProblem path).map (Problem.entry name)).toList

/-- Adds or replaces a name, keeping the unknown members of an entry it
replaces. A refused insert leaves the catalog as it was. -/
def insert (catalog : Catalog) (name : String) (path : Path) : Except Rejection Unit × Catalog :=
  if insertProblems name path = [] then
    let unknown := ((catalog.databases.get? name).map Entry.unknown).getD OrdMap.empty
    (.ok (), { catalog with databases := catalog.databases.insert name ⟨path, unknown⟩ })
  else (.error ⟨.catalogInvalid, insertProblems name path⟩, catalog)

/-- Removes a name, reporting whether it was there. -/
def remove (catalog : Catalog) (name : String) : Bool × Catalog :=
  ((catalog.databases.get? name).isSome,
    { catalog with databases := catalog.databases.remove name })

/-- The object an entry serializes to. -/
def entryDocument (entry : Entry) : Value :=
  Value.ofMap (entry.unknown.insert "path" (.string entry.path.display))

/-- The document this catalog serializes to. -/
def toDocument (catalog : Catalog) : Value :=
  let databases : Map := catalog.databases.entries.foldl
    (fun map (name, entry) => map.insert name (entryDocument entry)) OrdMap.empty
  let root : Map := (OrdMap.empty.insert "catalog_version" (Value.u64 CURRENT_VERSION)).insert
    "databases" (Value.ofMap databases)
  Value.ofMap (root.insertAll catalog.unknown.entries)

/-- The text `store` writes. -/
def storeText (host : Host) (catalog : Catalog) : String :=
  host.toStringPretty catalog.toDocument ++ "\n"

/-! ## The loop over the entries -/

private def readStep (acc : OrdMap String Entry × List Problem) (p : String × Value) :
    OrdMap String Entry × List Problem :=
  match readEntry p.1 p.2 with
  | .ok entry => (acc.1.insert p.1 entry, acc.2)
  | .error problem => (acc.1, acc.2 ++ [problem])

private theorem readEntries_eq (map : Map) :
    readEntries map = map.entries.foldl readStep (OrdMap.empty, []) := rfl

private theorem readStep_fold {l : List (String × Value)} (hl : OrdMap.Entries.Sorted l)
    (acc : OrdMap String Entry × List Problem) (k : String) :
    (l.foldl readStep acc).1.get? k
      = ((OrdMap.Entries.find k l).bind (fun v => (readEntry k v).toOption)).or (acc.1.get? k) := by
  induction l generalizing acc with
  | nil => simp [OrdMap.Entries.find]
  | cons p rest ih =>
    obtain ⟨name, value⟩ := p
    obtain ⟨habove, hrest⟩ := OrdMap.Entries.sorted_cons.mp hl
    rw [List.foldl_cons, ih hrest]
    by_cases hk : name = k
    · subst hk
      rw [OrdMap.Entries.find_of_above habove]
      cases hr : readEntry name value <;>
        simp [readStep, OrdMap.Entries.find, hr, Except.toOption]
    · cases hr : readEntry name value <;>
        simp [readStep, OrdMap.Entries.find, hr, hk, OrdMap.get?_insert]

private theorem readStep_fold_problems (l : List (String × Value))
    (acc : OrdMap String Entry × List Problem) :
    (l.foldl readStep acc).2
      = acc.2 ++ l.filterMap (fun p =>
          match readEntry p.1 p.2 with
          | .ok _ => none
          | .error problem => some problem) := by
  induction l generalizing acc with
  | nil => simp
  | cons p rest ih =>
    rw [List.foldl_cons, ih]
    cases hr : readEntry p.1 p.2 <;> simp [readStep, hr]

/-- What the loop keeps: under each name, the entry it reads there. -/
theorem get?_readEntries (map : Map) (k : String) :
    (readEntries map).1.get? k = (map.get? k).bind (fun v => (readEntry k v).toOption) := by
  rw [readEntries_eq, readStep_fold map.sorted, OrdMap.get?_empty, Option.or_none]
  rfl

/-- What the loop reports: the problem of each entry that has one, in
document order. -/
theorem readEntries_problems (map : Map) :
    (readEntries map).2 = map.entries.filterMap (fun p =>
      match readEntry p.1 p.2 with
      | .ok _ => none
      | .error problem => some problem) := by
  rw [readEntries_eq, readStep_fold_problems]
  simp

theorem readEntries_problems_nil {map : Map} :
    (readEntries map).2 = [] ↔ ∀ k v, map.get? k = some v → ∃ entry, readEntry k v = .ok entry := by
  rw [readEntries_problems, List.filterMap_eq_nil_iff]
  constructor
  · intro h k v hv
    have := h (k, v) (OrdMap.mem_entries_iff.mpr hv)
    cases hr : readEntry k v with
    | ok entry => exact ⟨entry, rfl⟩
    | error problem => simp [hr] at this
  · rintro h ⟨k, v⟩ hv
    obtain ⟨entry, he⟩ := h k v (OrdMap.mem_entries_iff.mp hv)
    simp [he]

/-! ## Lookups in the document -/

/-- The `databases` object of the document. -/
def databasesDocument (catalog : Catalog) : Map :=
  catalog.databases.mapVal (fun _ entry => entryDocument entry)

private theorem foldl_insert_eq (entries : List (String × Entry)) (m : Map) :
    entries.foldl (fun map (name, entry) => map.insert name (entryDocument entry)) m
      = m.insertAll (entries.map (fun p => (p.1, entryDocument p.2))) := by
  simp only [OrdMap.insertAll, List.foldl_map]

/-- The document, as one map. -/
def documentMap (catalog : Catalog) : Map :=
  ((OrdMap.empty.insert "catalog_version" (Value.u64 CURRENT_VERSION)).insert "databases"
    (Value.ofMap catalog.databasesDocument)).insertAll catalog.unknown.entries

theorem toDocument_eq (catalog : Catalog) :
    catalog.toDocument = Value.ofMap catalog.documentMap := by
  have h := OrdMap.ofList_entries catalog.databasesDocument
  simp only [OrdMap.ofList, databasesDocument, OrdMap.mapVal] at h
  simp only [toDocument, documentMap, foldl_insert_eq, h, databasesDocument, OrdMap.mapVal]

/-- An unknown member wins over the members the build writes: what keeps
them apart is that neither name is ever among the unknown ones. -/
theorem get?_documentMap (catalog : Catalog) (k : String) :
    catalog.documentMap.get? k
      = (catalog.unknown.get? k).or
          (if k = "databases" then some (Value.ofMap catalog.databasesDocument)
            else if k = "catalog_version" then some (Value.u64 CURRENT_VERSION) else none) := by
  rw [documentMap, OrdMap.get?_insertAll _ catalog.unknown.sorted]
  simp only [OrdMap.get?_insert, OrdMap.get?_empty, eq_comm (b := k)]
  rfl

@[simp] theorem get?_databasesDocument (catalog : Catalog) (k : String) :
    catalog.databasesDocument.get? k = (catalog.databases.get? k).map entryDocument := by
  simp [databasesDocument]

/-! ## The representation invariant -/

/-- An entry the contract accepts, its own `path` not among the members
kept for later versions. -/
structure EntryWf (entry : Entry) : Prop where
  path : pathProblem entry.path = none
  unknown : entry.unknown.get? "path" = none

/-- The invariant of every catalog the module hands out. -/
structure Wf (catalog : Catalog) : Prop where
  names : ∀ name entry, catalog.databases.get? name = some entry → nameProblem name = none
  entries : ∀ name entry, catalog.databases.get? name = some entry → EntryWf entry
  version : catalog.unknown.get? "catalog_version" = none
  databases : catalog.unknown.get? "databases" = none

theorem wf_default : Wf default where
  names := fun _ _ h => by cases h
  entries := fun _ _ h => by cases h
  version := rfl
  databases := rfl

theorem wf_entryFrom {value : Value} {entry : Entry} (h : entryFrom value = .ok entry) :
    EntryWf entry := by
  unfold entryFrom at h
  split at h
  · cases h
  · split at h
    · cases h
    · split at h
      · cases h
      · split at h
        · cases h
        · rename_i hpath
          cases h
          exact ⟨hpath, by simp [OrdMap.get?_remove]⟩

theorem readEntry_eq_ok {name : String} {value : Value} {entry : Entry} :
    readEntry name value = .ok entry ↔ nameProblem name = none ∧ entryFrom value = .ok entry := by
  unfold readEntry
  cases nameProblem name with
  | some problem => simp
  | none => cases entryFrom value <;> simp

theorem wf_fromDocument {document : Value} {catalog : Catalog}
    (h : fromDocument document = .ok catalog) : Wf catalog := by
  unfold fromDocument at h
  split at h
  · cases h
  · rename_i object hobject
    split at h
    · cases h
    · simp only at h
      split at h
      · rename_i hproblems
        cases h
        have hread : ∀ name entry, (readDatabases object).1.get? name = some entry →
            ∃ value, readEntry name value = .ok entry := by
          intro name entry hget
          unfold readDatabases at hget
          split at hget
          · cases hget
          · split at hget
            · rw [get?_readEntries] at hget
              obtain ⟨value, _, hvalue⟩ := Option.bind_eq_some_iff.mp hget
              refine ⟨value, ?_⟩
              cases hr : readEntry name value <;> simp_all [Except.toOption]
            · cases hget
        refine ⟨?_, ?_, ?_, ?_⟩
        · intro name entry hget
          obtain ⟨value, hvalue⟩ := hread name entry hget
          exact (readEntry_eq_ok.mp hvalue).1
        · intro name entry hget
          obtain ⟨value, hvalue⟩ := hread name entry hget
          exact wf_entryFrom (readEntry_eq_ok.mp hvalue).2
        · simp [OrdMap.get?_remove]
        · simp [OrdMap.get?_remove]
      · cases h

theorem Wf.insert {catalog : Catalog} (h : Wf catalog) (name : String) (path : Path) :
    Wf (catalog.insert name path).2 := by
  unfold Catalog.insert
  split
  · rename_i hproblems
    have hname : nameProblem name = none := by
      cases hn : nameProblem name <;> simp [insertProblems, hn] at hproblems ⊢
    have hpath : pathProblem path = none := by
      cases hp : pathProblem path <;> simp [insertProblems, hp] at hproblems ⊢
    refine ⟨?_, ?_, h.version, h.databases⟩
    · intro k entry hget
      simp only [OrdMap.get?_insert] at hget
      split at hget
      · rename_i hk
        exact hk ▸ hname
      · exact h.names k entry hget
    · intro k entry hget
      simp only [OrdMap.get?_insert] at hget
      split at hget
      · cases hget
        refine ⟨hpath, ?_⟩
        cases hold : catalog.databases.get? name with
        | none => rfl
        | some old => exact (h.entries name old hold).unknown
      · exact h.entries k entry hget
  · exact h

theorem Wf.remove {catalog : Catalog} (h : Wf catalog) (name : String) :
    Wf (catalog.remove name).2 := by
  refine ⟨?_, ?_, h.version, h.databases⟩
  · intro k entry hget
    simp only [Catalog.remove, OrdMap.get?_remove] at hget
    split at hget
    · cases hget
    · exact h.names k entry hget
  · intro k entry hget
    simp only [Catalog.remove, OrdMap.get?_remove] at hget
    split at hget
    · cases hget
    · exact h.entries k entry hget

/-- The catalogs the module's operations can build: the empty one, what
`parse` accepts, and what `insert` and `remove` make of them, refused
inserts included. -/
inductive Reachable (host : Host) : Catalog → Prop where
  | default : Reachable host default
  | parse {text : String} {catalog : Catalog} (h : parse host text = .ok catalog) :
      Reachable host catalog
  | insert {catalog : Catalog} (h : Reachable host catalog) (name : String) (path : Path) :
      Reachable host (catalog.insert name path).2
  | remove {catalog : Catalog} (h : Reachable host catalog) (name : String) :
      Reachable host (catalog.remove name).2

theorem wf_parse {host : Host} {text : String} {catalog : Catalog}
    (h : Catalog.parse host text = .ok catalog) : Wf catalog := by
  unfold Catalog.parse at h
  split at h
  · cases h
  · exact wf_fromDocument h

theorem Reachable.wf {host : Host} {catalog : Catalog} (h : Reachable host catalog) :
    Wf catalog := by
  induction h with
  | default => exact wf_default
  | parse h => exact wf_parse h
  | insert _ name path ih => exact ih.insert name path
  | remove _ name ih => exact ih.remove name

end Catalog

end NostdbServer
