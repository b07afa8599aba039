import NostdbServer.CatalogMutation
import NostdbServer.CatalogRoundTrip
import NostdbServer.Lib.Nesting

/-!
# CatalogTruncation — a catalog that was cut off

Section 5 of the catalog contract has a reader refuse a truncated
document rather than take the readable prefix for the catalog. Nothing in
`load` looks for a cut: it rests on the document being one JSON object,
whose last byte but the newline is the brace that closes it.
`load_truncated` says so of every cut of every stored document.

The writer is modelled, and of the reader it is relied on that a text it
accepts is closed (`Host.ReadsWhole`) and that it takes what was printed
for what it prints (`Host.Prints`).
-/

namespace NostdbServer

open Utf8 Nesting

namespace Value

/-! ## The pretty text is balanced -/

/-- What a JSON text is delimited with. -/
def delimiters : Delimiters Char where
  opens c := c == '\x7b' || c == '['
  closes c := c == '\x7d' || c == ']'
  quote := '\x22'
  escape := '\\'
  closes_of_opens := by
    intro c h
    rcases Bool.or_eq_true_iff.mp h with h | h <;> rw [beq_iff_eq] at h <;> subst h <;> rfl
  opens_quote := rfl
  closes_quote := rfl

mutual

/-- Every number of the value is written without a delimiter. -/
def Numeric : Value → Prop
  | number n => ∀ c ∈ (writeNumber n).toList, Bare delimiters c
  | array items => NumericItems items
  | object members => NumericMembers members
  | _ => True

def NumericItems : List Value → Prop
  | [] => True
  | v :: rest => Numeric v ∧ NumericItems rest

def NumericMembers : List (String × Value) → Prop
  | [] => True
  | (_, v) :: rest => Numeric v ∧ NumericMembers rest

end

/-- A text that is balanced. -/
def Even (text : String) : Prop := Balanced delimiters text.toList

theorem even_append {s t : String} (hs : Even s) (ht : Even t) : Even (s ++ t) := by
  rw [Even, String.toList_append]
  exact hs.append ht

theorem quotable_escape (c : Char) : Quotable delimiters (escape c) := by
  unfold escape
  split_ifs with hquote hslash
  · exact .escaped '\x22'
  · exact .escaped '\\'
  · exact .escaped 'b'
  · exact .escaped 't'
  · exact .escaped 'n'
  · exact .escaped 'f'
  · exact .escaped 'r'
  · -- the digits of an escape are characters like any other
    have hdigit {m : Nat} (hm : m < 16) : Quotable delimiters [Nat.digitChar m] := by
      apply Quotable.single <;> interval_cases m <;> decide
    have hzero : Quotable delimiters ['0'] := .single (by decide) (by decide)
    have hhigh : c.toNat / 16 < 16 := by omega
    have hlow : c.toNat % 16 < 16 := Nat.mod_lt _ (by decide)
    exact (Quotable.escaped 'u').append (hzero.append (hzero.append
      ((hdigit hhigh).append (hdigit hlow))))
  · exact .single hslash hquote

theorem even_writeString (s : String) : Even (writeString s) := by
  have hinside : Quotable delimiters (s.toList.flatMap escape) :=
    .flatMap (fun c _ => quotable_escape c)
  have htext : (writeString s).toList = '\x22' :: s.toList.flatMap escape ++ ['\x22'] := by
    simp [writeString, String.toList_append]
  rw [Even, htext]
  exact hinside.literal (by decide)

theorem even_newline (level : Nat) : Even (newline level) := by
  have hbreak : Even "\n" := .bare (by simp [Bare, delimiters])
  refine even_append hbreak (.bare ?_)
  intro c hc
  rw [String.toList_ofList] at hc
  rw [List.eq_of_mem_replicate hc]
  decide

theorem even_empty : Even "" := .nil

theorem even_comma : Even "," := .bare (by simp [Bare, delimiters])

theorem even_colon : Even ": " := .bare (by simp [Bare, delimiters])

/-- Braces around a text. -/
theorem even_braces {text : String} (h : Even text) : Even ("\x7b" ++ text ++ "\x7d") := by
  have hlist : ("\x7b" ++ text ++ "\x7d").toList = '\x7b' :: text.toList ++ ['\x7d'] := by
    simp [String.toList_append]
  rw [Even, hlist]
  exact h.bracketed rfl rfl

theorem even_brackets {text : String} (h : Even text) : Even ("[" ++ text ++ "]") := by
  have hlist : ("[" ++ text ++ "]").toList = '[' :: text.toList ++ [']'] := by
    simp [String.toList_append]
  rw [Even, hlist]
  exact h.bracketed rfl rfl

/-- What stands between the braces of an object: a first member, and the
others. -/
theorem even_members (key : String) (level : Nat) {text rest : String} (htext : Even text)
    (hrest : Even rest) : Even (newline (level + 1) ++ writeString key ++ ": " ++ text ++ rest
      ++ newline level) :=
  even_append (even_append (even_append (even_append (even_append (even_newline _)
    (even_writeString key)) even_colon) htext) hrest) (even_newline _)

mutual

/-- The pretty text of a value is balanced, at any level. -/
theorem even_writePrettyAt : ∀ (v : Value) (level : Nat), v.Numeric → Even (writePrettyAt level v)
  | null, level, _ => .bare (s := "null".toList) (by simp [Bare, delimiters])
  | bool false, level, _ => .bare (s := "false".toList) (by simp [Bare, delimiters])
  | bool true, level, _ => .bare (s := "true".toList) (by simp [Bare, delimiters])
  | number n, level, h => .bare h
  | string s, level, _ => even_writeString s
  | array [], level, _ => even_brackets even_empty
  | array (v :: items), level, h => by
      have hinside : Even (newline (level + 1) ++ writePrettyAt (level + 1) v
          ++ writePrettyItems (level + 1) items ++ newline level) :=
        even_append (even_append (even_append (even_newline _) (even_writePrettyAt v _ h.1))
          (even_writePrettyItems items _ h.2)) (even_newline _)
      simpa only [writePrettyAt, String.append_assoc] using even_brackets hinside
  | object [], level, _ => even_braces even_empty
  | object ((key, v) :: members), level, h => by
      have hinside := even_members key level (even_writePrettyAt v (level + 1) h.1)
        (even_writePrettyMembers members (level + 1) h.2)
      simpa only [writePrettyAt, String.append_assoc] using even_braces hinside

theorem even_writePrettyItems : ∀ (items : List Value) (level : Nat), NumericItems items →
    Even (writePrettyItems level items)
  | [], level, _ => even_empty
  | v :: rest, level, h => by
      exact even_append (even_append (even_append even_comma (even_newline level))
        (even_writePrettyAt v level h.1)) (even_writePrettyItems rest level h.2)

theorem even_writePrettyMembers : ∀ (members : List (String × Value)) (level : Nat),
    NumericMembers members → Even (writePrettyMembers level members)
  | [], level, _ => even_empty
  | (key, v) :: rest, level, h => by
      exact even_append (even_append (even_append (even_append (even_append even_comma
        (even_newline level)) (even_writeString key)) even_colon) (even_writePrettyAt v level h.1))
        (even_writePrettyMembers rest level h.2)

end

/-- An object is written in braces. -/
theorem writePretty_braces (map : Map) (h : (ofMap map).Numeric) : ∃ inside : String,
    Even inside ∧ writePretty (ofMap map) = "\x7b" ++ inside ++ "\x7d" := by
  obtain ⟨members, hsorted⟩ := map
  cases members with
  | nil => exact ⟨"", even_empty, rfl⟩
  | cons p rest =>
    obtain ⟨key, v⟩ := p
    refine ⟨_, even_members key 0 (even_writePrettyAt v 1 h.1) (even_writePrettyMembers rest 1 h.2),
      ?_⟩
    simp only [writePretty, ofMap, writePrettyAt, String.append_assoc]

/-- **A document that was cut off** is not all closed. -/
theorem not_closed_of_cut {map : Map} (h : (ofMap map).Numeric) {before : List Char}
    (hbefore : before <+: (writePretty (ofMap map)).toList) (hne : before ≠ [])
    (hcut : before ≠ (writePretty (ofMap map)).toList) : ¬ Closed delimiters before := by
  obtain ⟨inside, heven, htext⟩ := writePretty_braces map h
  have hlist : (writePretty (ofMap map)).toList = '\x7b' :: inside.toList ++ ['\x7d'] := by
    simp [htext, String.toList_append]
  rw [hlist] at hbefore hcut
  exact Balanced.not_closed heven rfl hbefore hne hcut

/-! ## The numbers of a map -/

theorem numericMembers_iff {members : List (String × Value)} :
    NumericMembers members ↔ ∀ p ∈ members, p.2.Numeric := by
  induction members with
  | nil => simp [NumericMembers]
  | cons p rest ih =>
    obtain ⟨key, v⟩ := p
    simp [NumericMembers, ih]

theorem numeric_ofMap {map : Map} :
    (ofMap map).Numeric ↔ ∀ key v, map.get? key = some v → v.Numeric := by
  show NumericMembers map.entries ↔ _
  rw [numericMembers_iff]
  constructor
  · intro h key v hget
    exact h (key, v) (OrdMap.mem_entries_iff.mpr hget)
  · intro h p hp
    exact h p.1 p.2 (OrdMap.mem_entries_iff.mp hp)

theorem bare_of_isDigit {c : Char} (h : c.isDigit = true) : Bare delimiters c := by
  have hne {d : Char} (hd : d.isDigit = false) : c ≠ d := by
    rintro rfl
    rw [h] at hd
    cases hd
  simp only [Bare, delimiters, Bool.or_eq_false_iff, beq_eq_false_iff_ne]
  exact ⟨⟨hne rfl, hne rfl⟩, ⟨hne rfl, hne rfl⟩, hne rfl⟩

theorem numeric_u64 (n : UInt64) : (u64 n).Numeric := by
  intro c hc
  apply bare_of_isDigit
  apply Nat.isDigit_of_mem_toDigits (b := 10) (n := n.toNat) (by decide) (by decide)
  simpa [writeNumber, Nat.repr_eq_ofList_toDigits] using hc

end Value

namespace Catalog

/-! ## The catalogs there are -/

/-- Every number of a member that is kept is written without a delimiter. -/
structure Numeric (catalog : Catalog) : Prop where
  unknown : ∀ key v, catalog.unknown.get? key = some v → v.Numeric
  entries : ∀ name entry, catalog.databases.get? name = some entry →
    ∀ key v, entry.unknown.get? key = some v → v.Numeric

theorem numeric_default : Numeric default where
  unknown _ _ h := by cases h
  entries _ _ h := by cases h

theorem Numeric.insert {catalog : Catalog} (h : Numeric catalog) (name : String) (path : Path) :
    Numeric (catalog.insert name path).2 := by
  unfold Catalog.insert
  split
  · refine ⟨h.unknown, ?_⟩
    intro k entry hget
    simp only [OrdMap.get?_insert] at hget
    split at hget
    · -- a replaced entry keeps its members, and a fresh one has none
      cases hget
      cases hold : catalog.databases.get? name with
      | none =>
        intro key v hv
        cases hv
      | some old => exact h.entries name old hold
    · exact h.entries k entry hget
  · exact h

theorem Numeric.remove {catalog : Catalog} (h : Numeric catalog) (name : String) :
    Numeric (catalog.remove name).2 := by
  refine ⟨h.unknown, ?_⟩
  intro k entry hget
  simp only [Catalog.remove, OrdMap.get?_remove] at hget
  split at hget
  · cases hget
  · exact h.entries k entry hget

theorem Numeric.toDocument {catalog : Catalog} (h : Numeric catalog) :
    catalog.toDocument.Numeric := by
  rw [toDocument_eq, Value.numeric_ofMap]
  intro key v hget
  rw [get?_documentMap] at hget
  cases hunknown : catalog.unknown.get? key with
  | some v' =>
    rw [hunknown, Option.some_or] at hget
    cases hget
    exact h.unknown key v hunknown
  | none =>
    rw [hunknown, Option.none_or] at hget
    split at hget
    · cases hget
      rw [Value.numeric_ofMap]
      intro name document hdocument
      rw [get?_databasesDocument, Option.map_eq_some_iff] at hdocument
      obtain ⟨entry, hentry, rfl⟩ := hdocument
      rw [entryDocument, Value.numeric_ofMap]
      intro key v hget
      rw [OrdMap.get?_insert] at hget
      split at hget
      · cases hget
        trivial
      · exact h.entries name entry hentry key v hget
    · split at hget
      · cases hget
        exact Value.numeric_u64 _
      · cases hget

theorem Numeric.of_document {document : Value} {catalog : Catalog} (hdocument : document.Numeric)
    (h : fromDocument document = .ok catalog) : Numeric catalog := by
  have hwf := wf_fromDocument h
  rw [← toDocument_fromDocument h, toDocument_eq, Value.numeric_ofMap] at hdocument
  constructor
  · intro key v hget
    apply hdocument key v
    rw [get?_documentMap, hget, Option.some_or]
  · intro name entry hentry key v hget
    -- a member of an entry is one of the document, two objects down
    have hdatabases := hdocument "databases" _ hwf.get?_documentMap_databases
    rw [Value.numeric_ofMap] at hdatabases
    have hentry' := hdatabases name (entryDocument entry) (by simp [hentry])
    rw [entryDocument, Value.numeric_ofMap] at hentry'
    apply hentry' key v
    have hne : "path" ≠ key := by
      rintro rfl
      rw [(hwf.entries name entry hentry).unknown] at hget
      cases hget
    rw [OrdMap.get?_insert, if_neg hne, hget]

end Catalog

/-- What `from_str` is relied on for: a text it accepts is a whole one,
not blank, with every bracket and every literal closed, and its numbers
are held as they were written. -/
structure Host.ReadsWhole (host : Host) : Prop where
  closed : ∀ text v, host.fromStr text = .ok v → Closed Value.delimiters text.toList
  notBlank : ∀ text v, host.fromStr text = .ok v → text ≠ ""
  numeric : ∀ text v, host.fromStr text = .ok v → v.Numeric

/-- What the printer is relied on for at a document: it prints the pretty
text, and what it prints is read back, with the newline and without. -/
structure Host.Prints (host : Host) (document : Value) : Prop where
  pretty : host.toStringPretty document = document.writePretty
  bare : host.fromStr document.writePretty = .ok document
  inverts : Catalog.Inverts host document

namespace Catalog

theorem Reachable.numeric {host : Host} (hreads : host.ReadsWhole) {catalog : Catalog}
    (h : Reachable host catalog) : Numeric catalog := by
  induction h with
  | default => exact numeric_default
  | parse h =>
    unfold Catalog.parse at h
    split at h
    · cases h
    · rename_i document hdocument
      exact .of_document (hreads.numeric _ _ hdocument) h
  | insert _ name path ih => exact ih.insert name path
  | remove _ name ih => exact ih.remove name

/-! ## Reading what is there -/

section

variable {host : Host} {catalog : Catalog} (hprints : host.Prints catalog.toDocument)

include hprints

/-- What is stored is the document, and a newline. -/
theorem storedBytes_eq : storedBytes host catalog
    = utf8 catalog.toDocument.writePretty ++ utf8 "\n" := by
  rw [storedBytes, storeText, hprints.pretty, utf8_eq_flatMap, String.toList_append,
    List.flatMap_append, ← utf8_eq_flatMap, ← utf8_eq_flatMap]

theorem length_storedBytes : (storedBytes host catalog).length
    = catalog.toDocument.writePretty.utf8ByteSize + 1 := by
  have hnewline : (utf8 "\n").length = 1 := rfl
  rw [storedBytes_eq hprints, List.length_append, length_utf8, hnewline]

/-- No text of a cut is all closed, but for the empty one. -/
theorem not_closed_of_take (hnumeric : Numeric catalog) {k : Nat}
    (hk : k + 1 < (storedBytes host catalog).length) {text : String}
    (htext : ofUtf8? ((storedBytes host catalog).take k) = some text) (hne : text ≠ "") :
    ¬ Closed Value.delimiters text.toList := by
  rw [length_storedBytes hprints] at hk
  have hsize : text.utf8ByteSize = k := by
    rw [← length_utf8, utf8_of_ofUtf8? htext, List.length_take, length_storedBytes hprints]
    omega
  have hprefix : text.toList <+: catalog.toDocument.writePretty.toList := by
    have hstored := prefix_of_take htext
    rw [storeText, hprints.pretty, String.toList_append] at hstored
    rcases prefix_of_two hstored with hinside | ⟨rest, -, hall⟩
    · exact hinside
    · -- a cut has fewer bytes than the document
      have htext' : text = catalog.toDocument.writePretty ++ String.ofList rest := by
        apply String.toList_injective
        rw [hall, String.toList_append, String.toList_ofList]
      rw [htext', String.utf8ByteSize_append] at hsize
      omega
  have hcut : text.toList ≠ catalog.toDocument.writePretty.toList := by
    intro heq
    rw [String.toList_injective heq] at hsize
    omega
  have hnil : text.toList ≠ [] := by simpa using hne
  have hdocument := hnumeric.toDocument
  rw [toDocument_eq] at hdocument hprefix hcut
  exact Value.not_closed_of_cut hdocument hprefix hnil hcut

/-- **A cut is refused**: by `read_to_string` where it splits a character,
and by `from_str` where it does not. -/
theorem load_cut (hreads : host.ReadsWhole) (hnumeric : Numeric catalog) {k : Nat}
    (hk : k + 1 < (storedBytes host catalog).length) : ∃ error,
      load host (readToString (some ((storedBytes host catalog).take k))) = .error error ∧
      ∀ rejection, error = .rejected rejection → rejection.code = .catalogInvalid := by
  cases htext : ofUtf8? ((storedBytes host catalog).take k) with
  | none =>
    -- the cut is inside a character
    refine ⟨.io "stream did not contain valid UTF-8", ?_, fun rejection h => by cases h⟩
    simp only [readToString, htext, load]
  | some text =>
    cases hread : host.fromStr text with
    | ok v =>
      -- a text that was accepted is all closed, and this one has a brace open
      have hopen := not_closed_of_take hprints hnumeric hk htext (hreads.notBlank text v hread)
      exact absurd (hreads.closed text v hread) hopen
    | error error =>
      refine ⟨.rejected ⟨.catalogInvalid, [.notJson error]⟩, ?_, fun rejection h => ?_⟩
      · simp only [readToString, htext, load, parse, hread]
      · cases h
        rfl

/-- What is whole, or lacks the newline alone, is the catalog. -/
theorem load_whole (hwf : Wf catalog) {k : Nat}
    (hk : (storedBytes host catalog).length ≤ k + 1) :
    load host (readToString (some ((storedBytes host catalog).take k)))
      = .ok catalog.asDisplayed := by
  by_cases hall : (storedBytes host catalog).length ≤ k
  · rw [List.take_of_length_le hall]
    exact load_storedBytes hwf hprints.inverts
  · have hlength := length_storedBytes hprints
    have hdocument : (storedBytes host catalog).take k = utf8 catalog.toDocument.writePretty := by
      rw [storedBytes_eq hprints, List.take_left']
      rw [length_utf8]
      omega
    simp only [hdocument, readToString, ofUtf8?_utf8, load, parse, hprints.bare,
      fromDocument_toDocument hwf]

end

/-- **A truncated catalog is refused**: however many bytes of a stored
document are there, `load` refuses them as long as more than the final
newline is missing, and never takes a part of it for the catalog. -/
theorem load_truncated {host : Host} (hreads : host.ReadsWhole) {catalog : Catalog}
    (hreach : Reachable host catalog) (hprints : host.Prints catalog.toDocument) (k : Nat) :
    (k + 1 < (storedBytes host catalog).length → ∃ error,
      load host (readToString (some ((storedBytes host catalog).take k))) = .error error ∧
      ∀ rejection, error = .rejected rejection → rejection.code = .catalogInvalid) ∧
    ((storedBytes host catalog).length ≤ k + 1 →
      load host (readToString (some ((storedBytes host catalog).take k)))
        = .ok catalog.asDisplayed) :=
  ⟨load_cut hprints hreads (hreach.numeric hreads), load_whole hprints hreach.wf⟩

end Catalog

/-! ## A host of some documents -/

/-- The pretty texts of the catalogs, with the newline and without. -/
def printed (catalogs : List Catalog) : List (String × Value) :=
  catalogs.map (fun catalog => (catalog.toDocument.writePretty ++ "\n", catalog.toDocument))
    ++ catalogs.map (fun catalog => (catalog.toDocument.writePretty, catalog.toDocument))

/-- A host that reads those texts back. -/
def Host.printing (catalogs : List Catalog) : Host := Host.reading (printed catalogs)

theorem mem_of_fromStr {known : List (String × Value)} {text : String} {v : Value}
    (h : (Host.reading known).fromStr text = .ok v) : (text, v) ∈ known := by
  simp only [Host.reading] at h
  split at h
  · rename_i value hlookup
    cases h
    obtain ⟨before, behind, rfl, -⟩ := List.lookup_eq_some_iff.mp hlookup
    simp
  · cases h

theorem fromStr_of_mem {known : List (String × Value)} (hdistinct : (known.map Prod.fst).Nodup)
    {text : String} {v : Value} (h : (text, v) ∈ known) :
    (Host.reading known).fromStr text = .ok v := by
  obtain ⟨before, behind, rfl⟩ := List.mem_iff_append.mp h
  rw [List.map_append, List.map_cons, List.nodup_append] at hdistinct
  have hlookup : (before ++ (text, v) :: behind).lookup text = some v := by
    refine List.lookup_eq_some_iff.mpr ⟨before, behind, rfl, fun p hp => ?_⟩
    have hne := hdistinct.2.2 p.1 (List.mem_map_of_mem hp) text List.mem_cons_self
    simpa using Ne.symm hne
  simp only [Host.reading, hlookup]

/-- It accepts nothing but whole documents. -/
theorem readsWhole_printing {catalogs : List Catalog}
    (hnumeric : ∀ catalog ∈ catalogs, catalog.Numeric) : (Host.printing catalogs).ReadsWhole := by
  have hknown {text : String} {v : Value} (h : (Host.printing catalogs).fromStr text = .ok v) :
      ∃ catalog : Catalog, catalog.Numeric ∧ v = catalog.toDocument ∧
        (text = v.writePretty ++ "\n" ∨ text = v.writePretty) := by
    rcases List.mem_append.mp (mem_of_fromStr h) with hmem | hmem
    all_goals
      obtain ⟨catalog, hcatalog, heq⟩ := List.mem_map.mp hmem
      cases heq
    · exact ⟨catalog, hnumeric catalog hcatalog, rfl, .inl rfl⟩
    · exact ⟨catalog, hnumeric catalog hcatalog, rfl, .inr rfl⟩
  constructor
  · intro text v h
    obtain ⟨catalog, hcatalog, rfl, htext⟩ := hknown h
    have heven := Value.even_writePrettyAt _ 0 hcatalog.toDocument
    have hnewline : Value.Even "\n" := .bare (by simp [Bare, Value.delimiters])
    rcases htext with rfl | rfl
    · exact (Value.even_append heven hnewline).ends 0
    · exact heven.ends 0
  · intro text v h
    obtain ⟨catalog, hcatalog, rfl, htext⟩ := hknown h
    have hdocument := hcatalog.toDocument
    rw [Catalog.toDocument_eq] at hdocument htext
    obtain ⟨inside, -, hbraces⟩ := Value.writePretty_braces _ hdocument
    rcases htext with rfl | rfl <;> simp [hbraces]
  · intro text v h
    obtain ⟨catalog, hcatalog, rfl, -⟩ := hknown h
    exact hcatalog.toDocument

theorem prints_printing {catalogs : List Catalog}
    (hdistinct : ((printed catalogs).map Prod.fst).Nodup) {catalog : Catalog}
    (h : catalog ∈ catalogs) : (Host.printing catalogs).Prints catalog.toDocument where
  pretty := rfl
  bare := fromStr_of_mem hdistinct (List.mem_append_right _ (List.mem_map.mpr ⟨catalog, h, rfl⟩))
  inverts := fromStr_of_mem hdistinct (List.mem_append_left _ (List.mem_map.mpr ⟨catalog, h, rfl⟩))

/-- A catalog of one name, and the empty one. -/
def oneAndNone : List Catalog := [Catalog.naming (Path.ofText "/srv/a"), Catalog.default]

theorem reachable_oneAndNone {host : Host} {catalog : Catalog} (h : catalog ∈ oneAndNone) :
    Catalog.Reachable host catalog := by
  rcases List.mem_pair.mp h with rfl | rfl
  · exact .insert .default _ _
  · exact .default

theorem readsWhole_oneAndNone : (Host.printing oneAndNone).ReadsWhole := by
  refine readsWhole_printing (fun catalog h => ?_)
  rcases List.mem_pair.mp h with rfl | rfl
  · exact Catalog.numeric_default.insert _ _
  · exact Catalog.numeric_default

theorem prints_oneAndNone {catalog : Catalog} (h : catalog ∈ oneAndNone) :
    (Host.printing oneAndNone).Prints catalog.toDocument :=
  prints_printing (by decide +kernel) h

/-- Ten bytes of the document of one name are refused, and the document
without its newline is not. -/
theorem Catalog.load_truncated_naming :
    let stored := storedBytes (Host.printing oneAndNone) (naming (Path.ofText "/srv/a"))
    (∃ error, load (Host.printing oneAndNone) (readToString (some (stored.take 10)))
      = .error error) ∧
    load (Host.printing oneAndNone) (readToString (some (stored.take (stored.length - 1))))
      = .ok (naming (Path.ofText "/srv/a")).asDisplayed := by
  have hmem : naming (Path.ofText "/srv/a") ∈ oneAndNone := by simp [oneAndNone]
  have htruncated := load_truncated readsWhole_oneAndNone (reachable_oneAndNone hmem)
    (prints_oneAndNone hmem)
  obtain ⟨error, herror, -⟩ := (htruncated 10).1 (by decide +kernel)
  exact ⟨⟨error, herror⟩, (htruncated _).2 (by omega)⟩

end NostdbServer
