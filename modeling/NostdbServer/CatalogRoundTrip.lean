import NostdbServer.Catalog

/-!
# CatalogRoundTrip — what survives `store` and `load`

`parse` of a catalog's document gives the catalog back with each path
replaced by what its display text denotes (`fromDocument_toDocument`).
Display is lossy, so the round trip is exact on the catalogs whose paths
are UTF-8 and on no other (`storeText_loads_iff`). In the other
direction nothing is lost: the document of an accepted document is that
document (`toDocument_fromDocument`).
-/

namespace NostdbServer

open Utf8

namespace Catalog

/-! ## A path through its display text -/

/-- The path a reader of the document sees. -/
def displayed (path : Path) : Path := Path.ofText path.display

theorem displayed_eq_iff (path : Path) : displayed path = path ↔ (ofUtf8? path).isSome :=
  utf8_lossy_eq_iff path

/-- Display keeps the leading slash, so an absolute path stays one. -/
theorem displayed_absolute {path : Path} (h : path.isAbsolute) : (displayed path).isAbsolute := by
  cases path with
  | nil => cases h
  | cons b rest =>
    have hb : b = 0x2F := by simpa [Path.isAbsolute] using h
    have hslash : String.utf8EncodeChar '/' = [0x2F] := by decide
    subst hb
    have hdecode : decode? (0x2F :: rest) = some '/' := by
      simpa [hslash] using decode?_encode_append '/' rest
    simp only [displayed, Path.ofText, Path.display, utf8_eq_flatMap, lossy, String.toList_ofList,
      lossyChars, hdecode, List.flatMap_cons, hslash]
    rfl

theorem pathProblem_none_iff {path : Path} : pathProblem path = none ↔ path.isAbsolute := by
  unfold pathProblem
  split
  · rename_i h
    subst h
    simp [Path.isAbsolute]
  · split <;> simp_all

theorem pathProblem_displayed {path : Path} (h : pathProblem path = none) :
    pathProblem (displayed path) = none :=
  pathProblem_none_iff.mpr (displayed_absolute (pathProblem_none_iff.mp h))

theorem displayed_ofText (text : String) : displayed (Path.ofText text) = Path.ofText text := by
  simp [displayed, Path.ofText, Path.display]

/-! ## From a catalog to its document and back -/

/-- The entry a reader of the document sees. -/
def Entry.displayed (entry : Entry) : Entry := { entry with path := Catalog.displayed entry.path }

/-- The catalog a reader of the document sees. -/
def asDisplayed (catalog : Catalog) : Catalog :=
  { catalog with databases := catalog.databases.mapVal (fun _ => Entry.displayed) }

theorem entryFrom_entryDocument {entry : Entry} (h : EntryWf entry) :
    entryFrom (entryDocument entry) = .ok (Entry.displayed entry) := by
  have hunknown : (entry.unknown.insert "path" (.string entry.path.display)).remove "path"
      = entry.unknown := by
    refine OrdMap.ext_get? (fun k => ?_)
    by_cases hk : "path" = k
    · subst hk
      simp [OrdMap.get?_remove, h.unknown]
    · simp [OrdMap.get?_remove, OrdMap.get?_insert, hk]
  have hpath : pathProblem (Path.ofText entry.path.display) = none :=
    pathProblem_displayed h.path
  simp only [entryFrom, entryDocument, Value.asObject_ofMap, OrdMap.get?_insert_self, Value.asStr,
    hpath, hunknown]
  rfl

theorem Wf.get?_documentMap_databases {catalog : Catalog} (h : Wf catalog) :
    catalog.documentMap.get? "databases" = some (Value.ofMap catalog.databasesDocument) := by
  simp [get?_documentMap, h.databases]

theorem Wf.versionRejection_documentMap {catalog : Catalog} (h : Wf catalog) :
    versionRejection catalog.documentMap = none := by
  have hget : catalog.documentMap.get? "catalog_version" = some (Value.u64 CURRENT_VERSION) := by
    simp [get?_documentMap, h.version]
  simp only [versionRejection, hget]
  decide

theorem Wf.readEntries_databasesDocument {catalog : Catalog} (h : Wf catalog) :
    readEntries catalog.databasesDocument = (catalog.asDisplayed.databases, []) := by
  have hread : ∀ name entry, catalog.databases.get? name = some entry →
      readEntry name (entryDocument entry) = .ok (Entry.displayed entry) := fun name entry hget =>
    readEntry_eq_ok.mpr ⟨h.names name entry hget,
      entryFrom_entryDocument (h.entries name entry hget)⟩
  refine Prod.ext (OrdMap.ext_get? (fun k => ?_)) (readEntries_problems_nil.mpr ?_)
  · rw [get?_readEntries, get?_databasesDocument]
    cases hget : catalog.databases.get? k with
    | none => simp [asDisplayed, hget]
    | some entry => simp [asDisplayed, hget, hread k entry hget, Except.toOption]
  · intro k v hv
    rw [get?_databasesDocument, Option.map_eq_some_iff] at hv
    obtain ⟨entry, hget, rfl⟩ := hv
    exact ⟨_, hread k entry hget⟩

theorem Wf.unknown_documentMap {catalog : Catalog} (h : Wf catalog) :
    (catalog.documentMap.remove "catalog_version").remove "databases" = catalog.unknown := by
  refine OrdMap.ext_get? (fun k => ?_)
  simp only [OrdMap.get?_remove, get?_documentMap]
  by_cases hd : "databases" = k
  · subst hd
    simp [h.databases]
  · by_cases hv : "catalog_version" = k
    · subst hv
      simp [h.version]
    · simp [hd, hv, Ne.symm hd, Ne.symm hv]

/-- **The document reads back** as the catalog with each path as its
display text denotes it. -/
theorem fromDocument_toDocument {catalog : Catalog} (h : Wf catalog) :
    fromDocument catalog.toDocument = .ok catalog.asDisplayed := by
  simp only [fromDocument, toDocument_eq, Value.asObject_ofMap, h.versionRejection_documentMap,
    readDatabases, h.get?_documentMap_databases, h.readEntries_databasesDocument,
    h.unknown_documentMap, if_true]
  rfl

/-- Every path of the catalog is UTF-8. -/
def PathsUtf8 (catalog : Catalog) : Prop :=
  ∀ name entry, catalog.databases.get? name = some entry → (ofUtf8? entry.path).isSome

theorem asDisplayed_eq_iff {catalog : Catalog} :
    catalog.asDisplayed = catalog ↔ PathsUtf8 catalog := by
  constructor
  · intro h name entry hget
    have hdb := congrArg (fun c : Catalog => c.databases.get? name) h
    simp only [asDisplayed, OrdMap.get?_mapVal, hget, Option.map_some, Option.some.injEq] at hdb
    exact (displayed_eq_iff entry.path).mp (congrArg Entry.path hdb)
  · intro h
    have hdb : catalog.asDisplayed.databases = catalog.databases := by
      refine OrdMap.ext_get? (fun k => ?_)
      simp only [asDisplayed, OrdMap.get?_mapVal]
      cases hget : catalog.databases.get? k with
      | none => rfl
      | some entry =>
        have hpath := (displayed_eq_iff entry.path).mpr (h k entry hget)
        simp only [Option.map_some, Entry.displayed, hpath]
    cases catalog
    simp only [asDisplayed] at hdb ⊢
    rw [hdb]

/-! ## From a document to its catalog and back -/

theorem entryDocument_entryFrom {value : Value} {entry : Entry} (h : entryFrom value = .ok entry) :
    entryDocument entry = value := by
  unfold entryFrom at h
  split at h
  · cases h
  · rename_i object hobject
    split at h
    · cases h
    · rename_i raw hraw
      split at h
      · cases h
      · rename_i text htext
        split at h
        · cases h
        · cases h
          have hmap : (object.remove "path").insert "path" (.string text) = object := by
            refine OrdMap.ext_get? (fun k => ?_)
            by_cases hk : "path" = k
            · subst hk
              rw [OrdMap.get?_insert_self, hraw, Value.eq_string_of_asStr htext]
            · simp [OrdMap.get?_insert, OrdMap.get?_remove, hk]
          rw [Value.eq_ofMap_of_asObject hobject, entryDocument]
          simp only [Path.ofText, Path.display, lossy_utf8, hmap]

/-- A document whose version is accepted states it as the number this
build writes. -/
theorem catalog_version_of_accepted {object : Map} (h : versionRejection object = none) :
    object.get? "catalog_version" = some (Value.u64 CURRENT_VERSION) := by
  unfold versionRejection at h
  split at h
  · cases h
  · rename_i value hvalue
    split at h
    · cases h
    · rename_i version hversion
      split at h
      · rename_i hsupported
        obtain ⟨hu64, -⟩ := Option.filter_eq_some_iff.mp hversion
        have hone : version = CURRENT_VERSION := by
          simpa [SUPPORTED_VERSIONS, CURRENT_VERSION] using hsupported
        rw [hvalue, Value.eq_u64_of_asU64 hu64, hone]
      · cases h

/-- An accepted document has a `databases` object without a problem. -/
theorem readDatabases_problems_nil {object : Map} (h : (readDatabases object).2 = []) :
    ∃ map, object.get? "databases" = some (Value.ofMap map) ∧
      readDatabases object = readEntries map := by
  unfold readDatabases at h ⊢
  split at h
  · cases h
  · rename_i value hvalue
    split at h
    · rename_i map hmap
      refine ⟨map, ?_, ?_⟩
      · rw [hvalue, Value.eq_ofMap_of_asObject hmap]
      · rfl
    · cases h

/-- **An accepted document is the document of its catalog**: nothing in
it is dropped, added or changed. -/
theorem toDocument_fromDocument {document : Value} {catalog : Catalog}
    (h : fromDocument document = .ok catalog) : catalog.toDocument = document := by
  unfold fromDocument at h
  split at h
  · cases h
  · rename_i object hobject
    split at h
    · cases h
    · rename_i hversion
      simp only at h
      split at h
      · rename_i hproblems
        obtain ⟨map, hmap, hread⟩ := readDatabases_problems_nil hproblems
        rw [hread] at hproblems
        cases h
        rw [Value.eq_ofMap_of_asObject hobject, toDocument_eq]
        congr 1
        refine OrdMap.ext_get? (fun k => ?_)
        rw [get?_documentMap]
        by_cases hd : k = "databases"
        · subst hd
          have hentries : databasesDocument ⟨(readDatabases object).1,
              (object.remove "catalog_version").remove "databases"⟩ = map := by
            refine OrdMap.ext_get? (fun name => ?_)
            rw [get?_databasesDocument, hread, get?_readEntries]
            cases hget : map.get? name with
            | none => rfl
            | some value =>
              obtain ⟨entry, hentry⟩ := readEntries_problems_nil.mp hproblems name value hget
              have hdoc := entryDocument_entryFrom (readEntry_eq_ok.mp hentry).2
              simp [hentry, Except.toOption, hdoc]
          simp [OrdMap.get?_remove, hentries, hmap]
        · by_cases hv : k = "catalog_version"
          · subst hv
            simp [OrdMap.get?_remove, catalog_version_of_accepted hversion]
          · simp [OrdMap.get?_remove, hd, hv, Ne.symm hd, Ne.symm hv]
      · cases h

/-! ## The round trip -/

/-- `from_str` inverts `to_string_pretty` on a value, with the newline
`store` puts behind the text. -/
def Inverts (host : Host) (value : Value) : Prop :=
  host.fromStr (host.toStringPretty value ++ "\n") = .ok value

/-- **What a stored catalog loads as**, and that an accepted document is
rewritten unchanged: the text `store` writes loads as an equal catalog
exactly when the catalog's paths are UTF-8. -/
theorem storeText_loads_iff (host : Host) :
    (∀ catalog, Reachable host catalog → Inverts host catalog.toDocument →
      (load host (.text (catalog.storeText host)) = .ok catalog ↔ PathsUtf8 catalog)) ∧
    (∀ text document catalog, host.fromStr text = .ok document →
      parse host text = .ok catalog → catalog.toDocument = document) := by
  constructor
  · intro catalog hreach hserde
    have hserde : host.fromStr (host.toStringPretty catalog.toDocument ++ "\n")
        = .ok catalog.toDocument := hserde
    have hloads : load host (.text (catalog.storeText host)) = .ok catalog.asDisplayed := by
      simp only [load, parse, storeText, hserde, fromDocument_toDocument hreach.wf]
    rw [hloads, Except.ok.injEq]
    exact asDisplayed_eq_iff
  · intro text document catalog hstr hparse
    simp only [parse, hstr] at hparse
    exact toDocument_fromDocument hparse

/-- The catalog that names one database at `path`. -/
def naming (path : Path) : Catalog := (default.insert "work" path).2

/-- A host that reads back the stored text of `naming path`. -/
def namingHost (path : Path) : Host :=
  Host.reading [((naming path).toDocument.writePretty ++ "\n", (naming path).toDocument)]

theorem namingHost_inverts (path : Path) :
    Inverts (namingHost path) (naming path).toDocument := by
  simp [Inverts, namingHost, Host.reading]

theorem get?_naming (path : Path) (h : path.isAbsolute) (name : String) :
    (naming path).databases.get? name
      = if name = "work" then some ⟨path, OrdMap.empty⟩ else none := by
  have hname : nameProblem "work" = none := by decide
  have hpath : pathProblem path = none := pathProblem_none_iff.mpr h
  simp [naming, Catalog.insert, insertProblems, hname, hpath, default, OrdMap.get?_insert,
    eq_comm (b := name)]

/-- A document with a member of a later version at either level. -/
def coloured : Value :=
  Value.json [("catalog_version", Value.u64 1),
    ("databases", Value.json [
      ("spare", Value.json [("path", .string "/srv/spare")]),
      ("work", Value.json [("colour", .string "blue"), ("path", .string "/srv/work")])]),
    ("written_by", .string "a newer build")]

/-- A host that reads the text of a document. -/
def documentHost (document : Value) : Host := Host.reading [(document.write, document)]

theorem documentHost_reads (document : Value) :
    (documentHost document).fromStr document.write = .ok document := by
  simp [documentHost, Host.reading]

theorem parse_documentHost (document : Value) :
    parse (documentHost document) document.write = fromDocument document := by
  simp only [parse, documentHost_reads]

theorem parse_coloured : ∃ catalog, parse (documentHost coloured) coloured.write = .ok catalog := by
  have haccepted : (fromDocument coloured).toOption.isSome := by decide +kernel
  rw [parse_documentHost]
  cases hparse : fromDocument coloured with
  | error rejection =>
    rw [hparse] at haccepted
    cases haccepted
  | ok catalog => exact ⟨catalog, rfl⟩

/-- At a path of plain text the catalog comes back, and a document with
members that nothing here knows is rewritten as itself. -/
theorem storeText_loads_plain :
    load (namingHost (utf8 "/srv/a")) (.text ((naming (utf8 "/srv/a")).storeText
        (namingHost (utf8 "/srv/a")))) = .ok (naming (utf8 "/srv/a")) ∧
      ∃ catalog, parse (documentHost coloured) coloured.write = .ok catalog ∧
        catalog.toDocument = coloured := by
  constructor
  · have hreach : Reachable (namingHost (utf8 "/srv/a")) (naming (utf8 "/srv/a")) :=
      .insert .default "work" _
    refine ((storeText_loads_iff _).1 _ hreach (namingHost_inverts _)).mpr ?_
    intro name entry hget
    have hlookup := get?_naming (utf8 "/srv/a") (by decide) name
    rw [hget] at hlookup
    split at hlookup
    · cases hlookup
      decide
    · cases hlookup
  · obtain ⟨catalog, hparse⟩ := parse_coloured
    exact ⟨catalog, hparse, (storeText_loads_iff (documentHost coloured)).2 coloured.write coloured
      catalog (documentHost_reads coloured) hparse⟩

/-- A path that no text denotes. -/
def unprintable : Path := utf8 "/srv/" ++ [0xFF]

/-- A catalog that `insert` built and `store` wrote is not always the one
`load` gives back. -/
theorem storeText_not_always_loads :
    ¬ ∀ host catalog, Reachable host catalog → Inverts host catalog.toDocument →
      load host (.text (catalog.storeText host)) = .ok catalog := by
  intro h
  have hreach : Reachable (namingHost unprintable) (naming unprintable) :=
    .insert .default "work" _
  have hload := h _ _ hreach (namingHost_inverts unprintable)
  have hserde : (namingHost unprintable).fromStr
      ((namingHost unprintable).toStringPretty (naming unprintable).toDocument ++ "\n")
        = .ok (naming unprintable).toDocument := namingHost_inverts unprintable
  simp only [load, parse, storeText, hserde, fromDocument_toDocument hreach.wf,
    Except.ok.injEq] at hload
  have hpaths := asDisplayed_eq_iff.mp hload "work" ⟨unprintable, OrdMap.empty⟩
    (by rw [get?_naming _ (by decide), if_pos rfl])
  exact absurd hpaths (by decide)

end Catalog

end NostdbServer
