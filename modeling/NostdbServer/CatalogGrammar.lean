import NostdbServer.CatalogRepair
import NostdbServer.JsonText

/-!
# CatalogGrammar — the texts `parse` accepts

What a catalog is, said of the document as it is written: its version is
the integer 1, every name under `databases` is in the grammar, and behind
every name stands an object with an absolute path. `parse` accepts these
texts and no other, keeps their names and paths, and gives a reason for
every other text.

The version decides the code of a rejection. A version is read through
its value, and an integer that does not fit a `u64` is a float there: it
is refused as no integer, not as a version of another build
(`parses_as_written_iff`).
-/

namespace NostdbServer

open Utf8

namespace Catalog

/-! ## The grammar -/

def Letter (c : Char) : Prop := ('a' ≤ c ∧ c ≤ 'z') ∨ ('A' ≤ c ∧ c ≤ 'Z')

def Digit (c : Char) : Prop := '0' ≤ c ∧ c ≤ '9'

/-- One or more of `[A-Za-z0-9_-]`, the first a letter or a digit. -/
def IsName (name : String) : Prop :=
  ∃ first rest, name.toList = first :: rest ∧ (Letter first ∨ Digit first) ∧
    ∀ c ∈ rest, Letter c ∨ Digit c ∨ c = '_' ∨ c = '-'

/-- An object whose `path` is a string that names an absolute path. -/
def HasPath (value : Document) (path : String) : Prop :=
  ∃ members, value = .object members ∧ Document.last "path" members = some (.string path) ∧
    path.toList.head? = some '/'

/-- A catalog with these members under `databases`. -/
def IsCatalog (document : Document) (databases : List (String × Document)) : Prop :=
  ∃ members, document = .object members ∧
    Document.last "catalog_version" members = some (.number (.integer false 1)) ∧
    Document.last "databases" members = some (.object databases) ∧
    ∀ name value, Document.last name databases = some value →
      IsName name ∧ ∃ path, HasPath value path

/-- An object whose `catalog_version` is written as the integer `n`. -/
def StatesVersion (document : Document) (n : Nat) : Prop :=
  ∃ members, document = .object members ∧
    Document.last "catalog_version" members = some (.number (.integer false n))

/-- What `parse` owes to a text, `documentOf` being what the text is. -/
structure ParsesAsWritten (host : Host) (documentOf : String → Option Document) (text : String) :
    Prop where
  accepts : (∃ catalog, parse host text = .ok catalog) ↔
    ∃ document databases, documentOf text = some document ∧ IsCatalog document databases
  entries : ∀ catalog, parse host text = .ok catalog → ∀ document databases,
    documentOf text = some document → IsCatalog document databases → ∀ name path,
    (∃ entry, catalog.get name = some entry ∧ entry.path = path) ↔
      ∃ value written, Document.last name databases = some value ∧ HasPath value written ∧
        path = Path.ofText written
  problems : ∀ rejection, parse host text = .error rejection → rejection.problems ≠ []
  unsupported : ∀ rejection, parse host text = .error rejection →
    (rejection.code = .catalogVersionUnsupported ↔
      ∃ document n, documentOf text = some document ∧ StatesVersion document n ∧ 0 < n ∧ n ≠ 1)
  invalid : ∀ rejection, parse host text = .error rejection →
    (rejection.code = .catalogInvalid ↔
      ¬ ∃ document n, documentOf text = some document ∧ StatesVersion document n ∧ 0 < n ∧ n ≠ 1)

/-! ## Names and paths -/

theorem isAlphanum_iff (c : Char) : c.isAlphanum = true ↔ Letter c ∨ Digit c := by
  simp only [Char.isAlphanum, Char.isAlpha, Char.isUpper, Char.isLower, Char.isDigit,
    Bool.or_eq_true, Bool.and_eq_true, decide_eq_true_eq, Letter, Digit, Char.le_def]
  exact or_congr_left Or.comm

theorem nameCharacter_iff (c : Char) :
    nameCharacter c = true ↔ Letter c ∨ Digit c ∨ c = '_' ∨ c = '-' := by
  simp only [nameCharacter, Bool.or_eq_true, isAlphanum_iff, beq_iff_eq, or_assoc]

/-- The scan refuses what the grammar leaves out. -/
theorem nameProblem_none_iff (name : String) : nameProblem name = none ↔ IsName name := by
  unfold nameProblem IsName
  cases hname : name.toList with
  | nil => simp
  | cons first rest =>
    have hrest : rest.find? (fun c => !nameCharacter c) = none ↔
        ∀ c ∈ rest, Letter c ∨ Digit c ∨ c = '_' ∨ c = '-' := by
      simp only [List.find?_eq_none, Bool.not_eq_true', Bool.not_eq_false, nameCharacter_iff]
    by_cases hsigil : first = '@'
    · subst hsigil
      have hnot : ¬ (Letter '@' ∨ Digit '@') := by
        rw [← isAlphanum_iff]
        decide
      simp [hnot]
    · by_cases hfirst : first.isAlphanum
      · simp [hsigil, hfirst, hrest, (isAlphanum_iff first).mp hfirst]
      · have hnot : ¬ (Letter first ∨ Digit first) := by rwa [← isAlphanum_iff]
        simp [hsigil, hfirst, hnot]

/-- A text names an absolute path where its first character is a slash:
no other character's bytes begin with the slash's. -/
theorem isAbsolute_ofText_iff (text : String) :
    (Path.ofText text).isAbsolute = true ↔ text.toList.head? = some '/' := by
  have hslash : String.utf8EncodeChar '/' = [0x2F] := by decide
  rw [Path.isAbsolute, Path.ofText, utf8_eq_flatMap, beq_iff_eq]
  cases text.toList with
  | nil => simp
  | cons c rest =>
    rw [List.flatMap_cons, List.head?_cons, Option.some_inj]
    constructor
    · intro h
      have hc := decode?_encode_append c []
      have hs := decode?_encode_append '/' ((String.utf8EncodeChar c).tail)
      cases hbytes : String.utf8EncodeChar c with
      | nil => exact absurd hbytes String.utf8EncodeChar_ne_nil
      | cons first tail =>
        rw [hbytes, List.cons_append, List.head?_cons, Option.some_inj] at h
        rw [hbytes, List.append_nil, h] at hc
        rw [hslash, hbytes, List.tail_cons, List.singleton_append, hc] at hs
        exact Option.some.inj hs
    · rintro rfl
      rw [hslash]
      rfl

/-! ## What the values are accepted by -/

theorem entryFrom_ok_iff {value : Value} {entry : Entry} :
    entryFrom value = .ok entry ↔ ∃ object text, value = Value.ofMap object ∧
      object.get? "path" = some (.string text) ∧ (Path.ofText text).isAbsolute = true ∧
      entry = ⟨Path.ofText text, object.remove "path"⟩ := by
  constructor
  · intro h
    unfold entryFrom at h
    split at h
    · cases h
    · rename_i object hobject
      split at h
      · cases h
      · rename_i raw hraw
        split at h
        · cases h
        · rename_i text htext
          split at h
          · cases h
          · rename_i hpath
            refine ⟨object, text, Value.eq_ofMap_of_asObject hobject, ?_,
              pathProblem_none_iff.mp hpath, (Except.ok.inj h).symm⟩
            rw [hraw, Value.eq_string_of_asStr htext]
  · rintro ⟨object, text, rfl, hpath, habsolute, rfl⟩
    have hstr : (Value.string text).asStr = some text := rfl
    simp only [entryFrom, Value.asObject_ofMap, hpath, hstr, pathProblem_none_iff.mpr habsolute]

/-- Where the version rule stops, it gives a reason, and the code is the
version's own where there is a positive number. -/
theorem versionRejection_code {object : Map} {rejection : Rejection}
    (h : versionRejection object = some rejection) :
    rejection.problems ≠ [] ∧
      ((rejection.code = .catalogVersionUnsupported ∧ ∃ n : UInt64,
          object.get? "catalog_version" = some (Value.u64 n) ∧ 1 ≤ n ∧ n ≠ 1) ∨
        (rejection.code = .catalogInvalid ∧ ∀ n : UInt64,
          object.get? "catalog_version" = some (Value.u64 n) → ¬ 1 ≤ n)) := by
  unfold versionRejection at h
  split at h
  · rename_i hnone
    cases h
    exact ⟨List.cons_ne_nil _ _, .inr ⟨rfl, fun n hn => by rw [hnone] at hn; cases hn⟩⟩
  · rename_i value hvalue
    split at h
    · rename_i hfilter
      cases h
      refine ⟨List.cons_ne_nil _ _, .inr ⟨rfl, ?_⟩⟩
      intro n hn hpositive
      obtain rfl : value = Value.u64 n := by
        rw [hvalue] at hn
        exact Option.some.inj hn
      have hsome : (Value.u64 n).asU64 = some n := rfl
      rw [hsome, Option.filter_some, if_pos (decide_eq_true hpositive)] at hfilter
      cases hfilter
    · rename_i version hfilter
      obtain ⟨hu64, hpositive⟩ := Option.filter_eq_some_iff.mp hfilter
      split at h
      · cases h
      · rename_i hunsupported
        cases h
        refine ⟨List.cons_ne_nil _ _, .inl ⟨rfl, version, ?_, of_decide_eq_true hpositive, ?_⟩⟩
        · rw [hvalue, Value.eq_u64_of_asU64 hu64]
        · rintro rfl
          exact hunsupported (by decide)

/-- The values that are accepted, and what is made of them. -/
theorem fromDocument_ok_iff {value : Value} {catalog : Catalog} :
    fromDocument value = .ok catalog ↔ ∃ object map, value = Value.ofMap object ∧
      object.get? "catalog_version" = some (Value.u64 1) ∧
      object.get? "databases" = some (Value.ofMap map) ∧ (readEntries map).2 = [] ∧
      catalog = ⟨(readEntries map).1, (object.remove "catalog_version").remove "databases"⟩ := by
  constructor
  · intro h
    unfold fromDocument at h
    split at h
    · cases h
    · rename_i object hobject
      split at h
      · cases h
      · rename_i hversion
        simp only at h
        split at h
        · rename_i hproblems
          obtain ⟨map, hmap, hread⟩ := readDatabases_problems_nil hproblems
          rw [hread] at h hproblems
          exact ⟨object, map, Value.eq_ofMap_of_asObject hobject,
            catalog_version_of_accepted hversion, hmap, hproblems, (Except.ok.inj h).symm⟩
        · cases h
  · rintro ⟨object, map, rfl, hversion, hmap, hproblems, rfl⟩
    rw [fromDocument_one hversion hmap, if_pos hproblems]

/-- A refused value: there is a reason, and the code is the version's own
where the value is an object with a positive number other than 1. -/
theorem fromDocument_error {value : Value} {rejection : Rejection}
    (h : fromDocument value = .error rejection) :
    rejection.problems ≠ [] ∧
      ((rejection.code = .catalogVersionUnsupported ∧ ∃ object, ∃ n : UInt64,
          value = Value.ofMap object ∧
          object.get? "catalog_version" = some (Value.u64 n) ∧ 1 ≤ n ∧ n ≠ 1) ∨
        (rejection.code = .catalogInvalid ∧ ∀ object, ∀ n : UInt64, value = Value.ofMap object →
          object.get? "catalog_version" = some (Value.u64 n) → 1 ≤ n → n = 1)) := by
  unfold fromDocument at h
  split at h
  · rename_i hnone
    cases h
    refine ⟨List.cons_ne_nil _ _, .inr ⟨rfl, ?_⟩⟩
    rintro object n rfl
    rw [Value.asObject_ofMap] at hnone
    cases hnone
  · rename_i object hobject
    obtain rfl := Value.eq_ofMap_of_asObject hobject
    have hsame {object' : Map} (heq : Value.ofMap object = Value.ofMap object') :
        object' = object := by
      have := congrArg Value.asObject heq
      rw [Value.asObject_ofMap, Value.asObject_ofMap] at this
      exact (Option.some.inj this).symm
    split at h
    · rename_i stopped hstopped
      cases h
      obtain ⟨hproblems, ⟨hcode, n, hn⟩ | ⟨hcode, hnone⟩⟩ := versionRejection_code hstopped
      · exact ⟨hproblems, .inl ⟨hcode, object, n, rfl, hn⟩⟩
      · refine ⟨hproblems, .inr ⟨hcode, ?_⟩⟩
        intro object' n heq hn hpositive
        rw [hsame heq] at hn
        exact absurd hpositive (hnone n hn)
    · rename_i hversion
      simp only at h
      split at h
      · cases h
      · rename_i hproblems
        cases h
        refine ⟨hproblems, .inr ⟨rfl, ?_⟩⟩
        intro object' n heq hn _
        rw [hsame heq, catalog_version_of_accepted hversion] at hn
        have hone : CURRENT_VERSION = n := by
          injection Option.some.inj hn with hnumber
          injection hnumber
        exact hone.symm

/-! ## The same of what was written -/

variable {round : Literal → String}

/-- The entries that are read: names of the grammar, each with a path. -/
theorem readEntry_written_iff {name : String} {value : Document} {path : Path} :
    (∃ entry, readEntry name (value.value round) = .ok entry ∧ entry.path = path) ↔
      IsName name ∧ ∃ written, HasPath value written ∧ path = Path.ofText written := by
  simp only [readEntry_eq_ok, entryFrom_ok_iff, nameProblem_none_iff, isAbsolute_ofText_iff,
    Document.value_eq_ofMap_iff, HasPath]
  constructor
  · rintro ⟨entry, ⟨hname, object, text, ⟨members, rfl, rfl⟩, htext, habsolute, rfl⟩, rfl⟩
    exact ⟨hname, text, ⟨members, rfl, Document.get?_held_string.mp htext, habsolute⟩, rfl⟩
  · rintro ⟨hname, text, ⟨members, rfl, htext, habsolute⟩, rfl⟩
    exact ⟨⟨Path.ofText text, (Document.held round members).remove "path"⟩,
      ⟨hname, _, text, ⟨members, rfl, rfl⟩, Document.get?_held_string.mpr htext, habsolute, rfl⟩,
      rfl⟩

/-- Under the members of `databases` no problem is found where every name
and path is in the grammar. -/
theorem readEntries_written_iff {databases : List (String × Document)} :
    (readEntries (Document.held round databases)).2 = [] ↔
      ∀ name value, Document.last name databases = some value →
        IsName name ∧ ∃ path, HasPath value path := by
  rw [readEntries_problems_nil]
  constructor
  · intro h name value hvalue
    obtain ⟨entry, hentry⟩ := h name (value.value round) (by
      rw [Document.get?_held, hvalue]
      rfl)
    obtain ⟨hname, written, hwritten, -⟩ := readEntry_written_iff.mp ⟨entry, hentry, rfl⟩
    exact ⟨hname, written, hwritten⟩
  · intro h name v hv
    rw [Document.get?_held, Option.map_eq_some_iff] at hv
    obtain ⟨value, hvalue, rfl⟩ := hv
    obtain ⟨hname, written, hwritten⟩ := h name value hvalue
    obtain ⟨entry, hentry, -⟩ : ∃ entry, readEntry name (value.value round) = .ok entry ∧
        entry.path = Path.ofText written :=
      readEntry_written_iff.mpr ⟨hname, written, hwritten, rfl⟩
    exact ⟨entry, hentry⟩

theorem accepted_iff {document : Document} :
    (∃ catalog, fromDocument (document.value round) = .ok catalog) ↔
      ∃ databases, IsCatalog document databases := by
  simp only [fromDocument_ok_iff, Document.value_eq_ofMap_iff, IsCatalog]
  constructor
  · rintro ⟨catalog, object, map, ⟨members, rfl, rfl⟩, hversion, hmap, hproblems, -⟩
    obtain ⟨databases, hdatabases, rfl⟩ := Document.get?_held_ofMap.mp hmap
    exact ⟨databases, members, rfl, Document.get?_held_u64.mp hversion, hdatabases,
      readEntries_written_iff.mp hproblems⟩
  · rintro ⟨databases, members, rfl, hversion, hdatabases, hentries⟩
    exact ⟨_, _, _, ⟨members, rfl, rfl⟩, Document.get?_held_u64.mpr hversion,
      Document.get?_held_ofMap.mpr ⟨databases, hdatabases, rfl⟩,
      readEntries_written_iff.mpr hentries, rfl⟩

/-- The names and paths of an accepted document are the ones written. -/
theorem accepted_entries {document : Document} {catalog : Catalog}
    {databases : List (String × Document)} (h : fromDocument (document.value round) = .ok catalog)
    (hdocument : IsCatalog document databases) (name : String) (path : Path) :
    (∃ entry, catalog.get name = some entry ∧ entry.path = path) ↔
      ∃ value written, Document.last name databases = some value ∧ HasPath value written ∧
        path = Path.ofText written := by
  obtain ⟨members, rfl, -, hdatabases, hgrammar⟩ := hdocument
  obtain ⟨object, map, hobject, -, hmap, -, rfl⟩ := fromDocument_ok_iff.mp h
  obtain ⟨_, hmembers, rfl⟩ := Document.value_eq_ofMap_iff.mp hobject
  injection hmembers with hmembers
  subst hmembers
  obtain ⟨_, hinner, rfl⟩ := Document.get?_held_ofMap.mp hmap
  rw [hdatabases] at hinner
  injection Option.some.inj hinner with hinner
  subst hinner
  have hread {v : Value} {entry : Entry} :
      (readEntry name v).toOption = some entry ↔ readEntry name v = .ok entry := by
    cases readEntry name v <;> simp [Except.toOption]
  simp only [Catalog.get, get?_readEntries, Document.get?_held, Option.bind_eq_some_iff,
    Option.map_eq_some_iff, hread]
  constructor
  · rintro ⟨entry, ⟨v, ⟨value, hvalue, rfl⟩, hentry⟩, hpath⟩
    obtain ⟨-, written, hwritten, heq⟩ := readEntry_written_iff.mp ⟨entry, hentry, hpath⟩
    exact ⟨value, written, hvalue, hwritten, heq⟩
  · rintro ⟨value, written, hvalue, hwritten, heq⟩
    obtain ⟨entry, hentry, hpath⟩ : ∃ entry, readEntry name (value.value round) = .ok entry ∧
        entry.path = path :=
      readEntry_written_iff.mpr ⟨(hgrammar name value hvalue).1, written, hwritten, heq⟩
    exact ⟨entry, ⟨_, ⟨value, hvalue, rfl⟩, hentry⟩, hpath⟩

/-- The version a value states is the one written, where it fits. -/
theorem statesVersion_iff {document : Document} {n : UInt64} :
    (∃ object, document.value round = Value.ofMap object ∧
      object.get? "catalog_version" = some (Value.u64 n)) ↔ StatesVersion document n.toNat := by
  simp only [Document.value_eq_ofMap_iff, StatesVersion]
  constructor
  · rintro ⟨object, ⟨members, rfl, rfl⟩, hversion⟩
    exact ⟨members, rfl, Document.get?_held_u64.mp hversion⟩
  · rintro ⟨members, rfl, hversion⟩
    exact ⟨_, ⟨members, rfl, rfl⟩, Document.get?_held_u64.mpr hversion⟩

theorem StatesVersion.eq {document : Document} {n m : Nat} (h : StatesVersion document n)
    (h' : StatesVersion document m) : n = m := by
  obtain ⟨members, rfl, hn⟩ := h
  obtain ⟨_, heq, hm⟩ := h'
  injection heq with heq
  rw [← heq, hn] at hm
  injection Option.some.inj hm with hliteral
  injection hliteral

/-- **What decides the code of a rejected document**: a positive version
other than 1 that fits a `u64`. -/
theorem rejected_code {document : Document} {rejection : Rejection}
    (h : fromDocument (document.value round) = .error rejection) :
    rejection.problems ≠ [] ∧
      (rejection.code = .catalogVersionUnsupported ∨ rejection.code = .catalogInvalid) ∧
      (rejection.code = .catalogVersionUnsupported ↔
        ∃ n, StatesVersion document n ∧ 0 < n ∧ n ≠ 1 ∧ n < 2 ^ 64) := by
  obtain ⟨hproblems, ⟨hcode, object, n, hobject, hversion, hpositive, hother⟩ | ⟨hcode, hnone⟩⟩ :=
    fromDocument_error h
  · have hstates := statesVersion_iff.mp ⟨object, hobject, hversion⟩
    have hpositive : 1 ≤ n.toNat := UInt64.le_iff_toNat_le.mp hpositive
    have hother : n.toNat ≠ 1 := fun heq => hother (UInt64.toNat_inj.mp heq)
    refine ⟨hproblems, .inl hcode, fun _ => ⟨n.toNat, hstates, ?_, hother, n.toNat_lt⟩,
      fun _ => hcode⟩
    omega
  · refine ⟨hproblems, .inr hcode, fun hunsupported => ?_, ?_⟩
    · rw [hcode] at hunsupported
      cases hunsupported
    · rintro ⟨m, hstates, hpositive, hother, hfits⟩
      have hm : (UInt64.ofNat m).toNat = m := UInt64.toNat_ofNat_of_lt' hfits
      rw [← hm] at hstates
      obtain ⟨object, hobject, hversion⟩ : ∃ object, document.value round = Value.ofMap object ∧
          object.get? "catalog_version" = some (Value.u64 (UInt64.ofNat m)) :=
        statesVersion_iff.mpr hstates
      have hone := hnone object _ hobject hversion (by
        rw [UInt64.le_iff_toNat_le, hm]
        exact hpositive)
      refine absurd ?_ hother
      rw [← hm, hone]
      rfl

/-! ## Texts -/

variable {host : Host} {documentOf : String → Option Document}

theorem parse_of_document (h : ReadsJson host documentOf round) {text : String}
    {document : Document} (hdocument : documentOf text = some document) :
    parse host text = fromDocument (document.value round) := by
  rw [parse, (h.fromStr text _).mpr ⟨document, hdocument, rfl⟩]

theorem parse_of_none (h : ReadsJson host documentOf round) {text : String}
    (hnone : documentOf text = none) :
    ∃ error, parse host text = .error ⟨.catalogInvalid, [.notJson error]⟩ := by
  cases hread : host.fromStr text with
  | ok v =>
    obtain ⟨document, hdocument, -⟩ := (h.fromStr text v).mp hread
    rw [hnone] at hdocument
    cases hdocument
  | error error =>
    refine ⟨error, ?_⟩
    rw [parse, hread]

/-- **What `parse` makes of a text**: it is judged as it is written where
the version, if it states one, fits a `u64`. -/
theorem parses_as_written_iff (h : ReadsJson host documentOf round) (text : String) :
    ParsesAsWritten host documentOf text ↔
      ∀ document n, documentOf text = some document → StatesVersion document n → n < 2 ^ 64 := by
  cases htext : documentOf text with
  | none =>
    obtain ⟨error, hparse⟩ := parse_of_none h htext
    refine ⟨fun _ document n hdocument => absurd hdocument (by simp), fun _ => ?_⟩
    constructor <;> simp [hparse, htext]
  | some document =>
    have hparse := parse_of_document h htext
    constructor
    · rintro hwritten _ n hdocument hstates
      cases hdocument
      by_contra hwide
      cases hresult : fromDocument (document.value round) with
      | ok catalog =>
        obtain ⟨databases, members, hobject, hversion, -⟩ := accepted_iff.mp ⟨catalog, hresult⟩
        have hone := hstates.eq ⟨members, hobject, hversion⟩
        omega
      | error rejection =>
        obtain ⟨-, -, hcode⟩ := rejected_code hresult
        have hunsupported := (hwritten.unsupported rejection (hparse.trans hresult)).mpr
          ⟨document, n, htext, hstates, by omega, by omega⟩
        obtain ⟨m, hm, -, -, hfits⟩ := hcode.mp hunsupported
        exact hwide (hstates.eq hm ▸ hfits)
    · intro hfits
      have hcode (rejection : Rejection) (hrejected : parse host text = .error rejection) :
          rejection.code = .catalogVersionUnsupported ↔ ∃ document n,
            documentOf text = some document ∧ StatesVersion document n ∧ 0 < n ∧ n ≠ 1 := by
        rw [hparse] at hrejected
        rw [(rejected_code hrejected).2.2]
        constructor
        · rintro ⟨n, hstates, hpositive, hother, -⟩
          exact ⟨document, n, htext, hstates, hpositive, hother⟩
        · rintro ⟨_, n, hdocument, hstates, hpositive, hother⟩
          obtain rfl := Option.some.inj (htext.symm.trans hdocument)
          exact ⟨n, hstates, hpositive, hother, hfits document n rfl hstates⟩
      refine ⟨?_, ?_, ?_, hcode, ?_⟩
      · rw [hparse, accepted_iff]
        constructor
        · rintro ⟨databases, hcatalog⟩
          exact ⟨document, databases, htext, hcatalog⟩
        · rintro ⟨_, databases, hdocument, hcatalog⟩
          obtain rfl := Option.some.inj (htext.symm.trans hdocument)
          exact ⟨databases, hcatalog⟩
      · rintro catalog haccepted _ databases hdocument hcatalog
        obtain rfl := Option.some.inj (htext.symm.trans hdocument)
        exact accepted_entries (hparse ▸ haccepted) hcatalog
      · intro rejection hrejected
        exact (rejected_code (hparse ▸ hrejected)).1
      · intro rejection hrejected
        rw [← hcode rejection hrejected]
        obtain ⟨-, hunsupported | hinvalid, -⟩ := rejected_code (hparse ▸ hrejected)
        · simp [hunsupported]
        · simp [hinvalid]

/-! ## A version one past the width -/

/-- A document's text, the only one there is. -/
def only (text : String) (document : Document) (asked : String) : Option Document :=
  if asked = text then some document else none

theorem readsJson_only (text : String) (document : Document) (round : Literal → String) :
    ReadsJson (Host.reading [(text, document.value round)]) (only text document) round where
  fromStr asked v := by
    unfold only Host.reading
    by_cases hasked : asked = text
    · subst hasked
      simp
    · have hbeq : (asked == text) = false := by simpa using hasked
      simp [List.lookup, hasked, hbeq]

/-- A document of that version that names `work`. -/
def versioned (n : Nat) : Document :=
  .object [("catalog_version", .number (.integer false n)),
    ("databases", .object [("work", .object [("path", .string "/srv/a")])])]

def versionedText (n : String) : String :=
  "\x7b\"catalog_version\":" ++ n
    ++ ",\"databases\":\x7b\"work\":\x7b\"path\":\"/srv/a\"\x7d\x7d\x7d"

/-- A document of version 1 is judged as it is written. -/
theorem parses_as_written_iff_one :
    ParsesAsWritten (Host.reading [(versionedText "1", (versioned 1).value (fun _ => "1.0"))])
      (only (versionedText "1") (versioned 1)) (versionedText "1") := by
  refine (parses_as_written_iff (readsJson_only _ _ _) _).mpr ?_
  intro document n hdocument hstates
  obtain rfl : versioned 1 = document := by simpa [only] using hdocument
  obtain rfl := hstates.eq ⟨_, rfl, rfl⟩
  decide

/-- The first integer past a `u64` is a version, and not reported as one. -/
theorem wide_version_invalid :
    ¬ ∀ host documentOf round, ReadsJson host documentOf round → ∀ text,
      ParsesAsWritten host documentOf text := by
  intro h
  have hreads := readsJson_only (versionedText "18446744073709551616") (versioned (2 ^ 64))
    (fun _ => "1.8446744073709552e19")
  have hwritten := h _ _ _ hreads (versionedText "18446744073709551616")
  have hrejected := parse_of_document hreads (if_pos rfl)
  have hunsupported := (hwritten.unsupported ⟨.catalogInvalid, [.versionNotPositive]⟩
    hrejected).mpr ⟨versioned (2 ^ 64), 2 ^ 64, if_pos rfl, ⟨_, rfl, rfl⟩, by decide, by decide⟩
  cases hunsupported

end Catalog

end NostdbServer
