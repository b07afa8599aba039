import NostdbServer.CatalogMutation

/-!
# CatalogHistory — what a rewritten document keeps

An accepted document is parsed, any list of inserts and removes is made
on the catalog, refused ones included, and the catalog is written back as
a document. `Keeps` says what that document has to keep of the first, in
terms of the documents alone: the unknown members at both levels, the
entries no mutation is about, and for every other name where the last
mutation that was accepted left it (`lastTarget`).

One mutation does to the lookups of a catalog what `Mutation.target` says
(`get?_apply`), and a list of them what the last of it says
(`get?_mutateAll`, by induction from the end of the list). The catalog's
document shows each lookup but for the path, which goes through its
display text. So the document keeps all of it exactly when every path the
mutations leave in it is UTF-8 (`keeps_iff`).
-/

namespace NostdbServer

open Utf8

namespace Mutation

/-- The name it is about. -/
def name : Mutation → String
  | .insert name _ => name
  | .remove name => name

/-- Where it leaves `name`: at a path, at nothing, or (`none`) where it
was. -/
def target (name : String) : Mutation → Option (Option Path)
  | .insert inserted path =>
      if inserted = name ∧ Catalog.insertProblems inserted path = [] then some (some path) else none
  | .remove removed => if removed = name then some none else none

theorem target_of_ne {mutation : Mutation} {name : String} (h : mutation.name ≠ name) :
    mutation.target name = none := by
  cases mutation with
  | insert inserted path => exact if_neg (fun hboth => h hboth.1)
  | remove removed => exact if_neg h

/-- What an insert of a name leaves of its entry. -/
def kept (path : Path) (old : Option Entry) : Entry :=
  ⟨path, (old.map Entry.unknown).getD OrdMap.empty⟩

/-- **What one mutation does to the lookups**: under its own name what
`target` says, with the unknown members of an entry it replaces, and
nothing anywhere else. -/
theorem get?_apply (mutation : Mutation) (catalog : Catalog) (name : String) :
    (mutation.apply catalog).databases.get? name
      = match mutation.target name with
        | none => catalog.databases.get? name
        | some path => path.map (fun path => kept path (catalog.databases.get? name)) := by
  cases mutation with
  | insert inserted path =>
    by_cases hproblems : Catalog.insertProblems inserted path = []
    · simp only [apply, Catalog.insert, if_pos hproblems, OrdMap.get?_insert]
      by_cases hname : inserted = name
      · subst hname
        simp [target, hproblems, kept]
      · simp [target, hname]
    · simp only [apply, Catalog.insert, target, hproblems, and_false, if_false]
  | remove removed =>
    simp only [apply, Catalog.remove, OrdMap.get?_remove]
    by_cases hname : removed = name
    · simp [target, hname]
    · simp [target, hname]

theorem unknown_apply (mutation : Mutation) (catalog : Catalog) :
    (mutation.apply catalog).unknown = catalog.unknown := by
  cases mutation with
  | insert inserted path =>
    simp only [apply, Catalog.insert]
    split <;> rfl
  | remove removed => rfl

/-- A refused mutation leaves the catalog as it was. -/
theorem apply_of_refused {mutation : Mutation} (h : ¬mutation.Accepted) (catalog : Catalog) :
    mutation.apply catalog = catalog := by
  cases mutation with
  | insert inserted path =>
    have hproblems : Catalog.insertProblems inserted path ≠ [] := h
    simp only [apply, Catalog.insert, if_neg hproblems]
  | remove removed => exact absurd trivial h

end Mutation

/-- Where the last of the mutations to settle it leaves `name`. -/
def lastTarget (name : String) (mutations : List Mutation) : Option (Option Path) :=
  mutations.reverse.findSome? (Mutation.target name)

theorem lastTarget_append (name : String) (mutations : List Mutation) (mutation : Mutation) :
    lastTarget name (mutations ++ [mutation])
      = (mutation.target name).or (lastTarget name mutations) := by
  simp only [lastTarget, List.reverse_append, List.reverse_singleton, List.singleton_append,
    List.findSome?_cons]
  cases mutation.target name <;> rfl

theorem lastTarget_of_unmentioned {name : String} {mutations : List Mutation}
    (h : ∀ mutation ∈ mutations, mutation.name ≠ name) : lastTarget name mutations = none := by
  rw [lastTarget, List.findSome?_eq_none_iff]
  intro mutation hmem
  exact Mutation.target_of_ne (h mutation (List.mem_reverse.mp hmem))

namespace Catalog

/-! ## A list of mutations -/

/-- The catalog behind the mutations, in turn. -/
def mutateAll (catalog : Catalog) (mutations : List Mutation) : Catalog :=
  mutations.foldl (fun catalog mutation => mutation.apply catalog) catalog

theorem mutateAll_append (catalog : Catalog) (mutations : List Mutation) (mutation : Mutation) :
    catalog.mutateAll (mutations ++ [mutation]) = mutation.apply (catalog.mutateAll mutations) := by
  simp only [mutateAll, List.foldl_append, List.foldl_cons, List.foldl_nil]

theorem Wf.mutateAll {catalog : Catalog} (h : Wf catalog) (mutations : List Mutation) :
    Wf (catalog.mutateAll mutations) := by
  induction mutations using List.reverseRecOn with
  | nil => exact h
  | append_singleton mutations mutation ih =>
    rw [mutateAll_append]
    exact mutation.wf_apply ih

/-- No mutation touches the members of the document itself. -/
theorem unknown_mutateAll (catalog : Catalog) (mutations : List Mutation) :
    (catalog.mutateAll mutations).unknown = catalog.unknown := by
  induction mutations using List.reverseRecOn with
  | nil => rfl
  | append_singleton mutations mutation ih =>
    rw [mutateAll_append, mutation.unknown_apply, ih]

/-- A name is where the last mutation to settle it left it. -/
theorem path_mutateAll (catalog : Catalog) (mutations : List Mutation) (name : String) :
    ((catalog.mutateAll mutations).databases.get? name).map Entry.path
      = (lastTarget name mutations).getD ((catalog.databases.get? name).map Entry.path) := by
  induction mutations using List.reverseRecOn with
  | nil => rfl
  | append_singleton mutations mutation ih =>
    rw [mutateAll_append, mutation.get?_apply, lastTarget_append]
    cases htarget : mutation.target name with
    | none => exact ih
    | some path => cases path <;> rfl

/-- What the catalog lists behind the mutations: a name once and in
order, where the last accepted mutation of it was an insert, or there was
none and it was listed before. -/
theorem names_mutateAll (catalog : Catalog) (mutations : List Mutation) :
    (catalog.mutateAll mutations).names.Pairwise (· < ·) ∧
    ∀ name, name ∈ (catalog.mutateAll mutations).names
      ↔ ((lastTarget name mutations).getD ((catalog.get name).map Entry.path)).isSome := by
  refine ⟨names_sorted _, fun name => ?_⟩
  rw [mem_names, get, get, ← path_mutateAll, Option.isSome_map]

/-- A name no mutation settles has the entry it had. -/
theorem get?_mutateAll {catalog : Catalog} {mutations : List Mutation} {name : String}
    (h : lastTarget name mutations = none) :
    (catalog.mutateAll mutations).databases.get? name = catalog.databases.get? name := by
  induction mutations using List.reverseRecOn with
  | nil => rfl
  | append_singleton mutations mutation ih =>
    rw [lastTarget_append, Option.or_eq_none_iff] at h
    rw [mutateAll_append, mutation.get?_apply, h.1]
    exact ih h.2

/-- The unknown members kept under a name, none where it has no entry. -/
def unknownOf (catalog : Catalog) (name : String) : Map :=
  ((catalog.databases.get? name).map Entry.unknown).getD OrdMap.empty

/-- A name that is never removed keeps its unknown members, wherever the
mutations move it. -/
theorem unknownOf_mutateAll {catalog : Catalog} {mutations : List Mutation} {name : String}
    (h : Mutation.remove name ∉ mutations) :
    (catalog.mutateAll mutations).unknownOf name = catalog.unknownOf name := by
  induction mutations using List.reverseRecOn with
  | nil => rfl
  | append_singleton mutations mutation ih =>
    rw [List.mem_append, not_or] at h
    rw [← ih h.1, mutateAll_append, unknownOf, mutation.get?_apply]
    cases htarget : mutation.target name with
    | none => rfl
    | some path =>
      cases path with
      | some path => rfl
      | none =>
        -- only its removal leaves a name at nothing
        have hremove : mutation = .remove name := by
          cases mutation with
          | insert inserted path =>
            simp only [Mutation.target] at htarget
            split at htarget <;> cases htarget
          | remove removed =>
            simp only [Mutation.target] at htarget
            split at htarget
            · rename_i hname
              rw [hname]
            · cases htarget
        exact absurd (List.mem_singleton.mpr hremove.symm) h.2

/-! ## Lookups in a document -/

/-- The entry a document has under a name. -/
def entryOf (document : Value) (name : String) : Option Value :=
  (document.get "databases").bind (·.get name)

/-- A member of the entry a document has under a name. -/
def memberOf (document : Value) (name key : String) : Option Value :=
  (entryOf document name).bind (·.get key)

/-- The path a document maps a name to. -/
def pathOf (document : Value) (name : String) : Option Path :=
  ((memberOf document name "path").bind Value.asStr).map Path.ofText

theorem Wf.entryOf_toDocument {catalog : Catalog} (h : Wf catalog) (name : String) :
    entryOf catalog.toDocument name = (catalog.databases.get? name).map entryDocument := by
  simp [entryOf, toDocument_eq, h.get?_documentMap_databases]

theorem get_entryDocument (entry : Entry) (key : String) :
    (entryDocument entry).get key
      = if "path" = key then some (.string entry.path.display) else entry.unknown.get? key := by
  simp [entryDocument, OrdMap.get?_insert]

/-- The document shows each unknown member of an entry. -/
theorem Wf.memberOf_toDocument {catalog : Catalog} (h : Wf catalog) (name : String) {key : String}
    (hkey : key ≠ "path") :
    memberOf catalog.toDocument name key = (catalog.unknownOf name).get? key := by
  rw [memberOf, h.entryOf_toDocument, unknownOf]
  cases catalog.databases.get? name with
  | none => rfl
  | some entry => simp [get_entryDocument, hkey.symm]

/-- The document shows each path as its display text denotes it. -/
theorem Wf.pathOf_toDocument {catalog : Catalog} (h : Wf catalog) (name : String) :
    pathOf catalog.toDocument name
      = ((catalog.databases.get? name).map Entry.path).map displayed := by
  rw [pathOf, memberOf, h.entryOf_toDocument]
  cases catalog.databases.get? name with
  | none => rfl
  | some entry => simp [get_entryDocument, Value.asStr, displayed]

/-- The document shows each unknown member of its own. -/
theorem get_toDocument (catalog : Catalog) {key : String} (hversion : key ≠ "catalog_version")
    (hdatabases : key ≠ "databases") : catalog.toDocument.get key = catalog.unknown.get? key := by
  rw [toDocument_eq, Value.get_ofMap, get?_documentMap]
  simp [hversion, hdatabases]

/-! ## What the rewritten document keeps -/

/-- **What a rewriting keeps** of a document behind the mutations:
`rewritten` gives the document behind any number of them. -/
structure Keeps (document : Value) (rewritten : List Mutation → Value)
    (mutations : List Mutation) : Prop where
  /-- Every unknown member of the document, and no other. -/
  unknown : ∀ key, key ≠ "catalog_version" → key ≠ "databases" →
    (rewritten mutations).get key = document.get key
  /-- Every unknown member of a name that was never removed. -/
  members : ∀ name, Mutation.remove name ∉ mutations → ∀ key, key ≠ "path" →
    memberOf (rewritten mutations) name key = memberOf document name key
  /-- The whole entry of a name that was not mentioned. -/
  unmentioned : ∀ name, (∀ mutation ∈ mutations, mutation.name ≠ name) →
    entryOf (rewritten mutations) name = entryOf document name
  /-- A name is at the path of its last accepted insert. -/
  inserted : ∀ name path, lastTarget name mutations = some (some path) →
    pathOf (rewritten mutations) name = some path
  /-- A name removed behind that is gone. -/
  removed : ∀ name, lastTarget name mutations = some none →
    entryOf (rewritten mutations) name = none
  /-- A refused mutation changes nothing. -/
  refused : ∀ before mutation after, mutations = before ++ mutation :: after → ¬mutation.Accepted →
    rewritten (before ++ [mutation]) = rewritten before

/-- Where the mutations leave a name, the document shows as the display
text of the path denotes it. -/
theorem pathOf_mutateAll {catalog : Catalog} (h : Wf catalog) {mutations : List Mutation}
    {name : String} {path : Path} (htarget : lastTarget name mutations = some (some path)) :
    pathOf (catalog.mutateAll mutations).toDocument name = some (displayed path) := by
  rw [(h.mutateAll mutations).pathOf_toDocument, path_mutateAll, htarget]
  rfl

/-- **A rewritten document keeps what it has to** exactly when every path
that the mutations leave in it is UTF-8. All but where the inserted names
are, it keeps with any paths. -/
theorem keeps_iff {host : Host} {text : String} {document : Value} {catalog : Catalog}
    (hstr : host.fromStr text = .ok document) (hparse : parse host text = .ok catalog)
    (mutations : List Mutation) :
    Keeps document (fun mutations => (catalog.mutateAll mutations).toDocument) mutations
      ↔ ∀ name path, lastTarget name mutations = some (some path) → (ofUtf8? path).isSome := by
  have hwf : Wf catalog := wf_parse hparse
  have hdocument : catalog.toDocument = document := by
    simp only [parse, hstr] at hparse
    exact toDocument_fromDocument hparse
  subst hdocument
  have hwf' := hwf.mutateAll mutations
  constructor
  · intro hkeeps name path htarget
    have hpath := hkeeps.inserted name path htarget
    rw [pathOf_mutateAll hwf htarget, Option.some.injEq] at hpath
    exact (displayed_eq_iff path).mp hpath
  · intro hutf8
    refine ⟨?_, ?_, ?_, ?_, ?_, ?_⟩
    · intro key hversion hdatabases
      simp only [get_toDocument _ hversion hdatabases, unknown_mutateAll]
    · intro name hremove key hkey
      simp only [hwf'.memberOf_toDocument name hkey, hwf.memberOf_toDocument name hkey,
        unknownOf_mutateAll hremove]
    · intro name hunmentioned
      simp only [hwf'.entryOf_toDocument, hwf.entryOf_toDocument,
        get?_mutateAll (lastTarget_of_unmentioned hunmentioned)]
    · intro name path htarget
      simp only [pathOf_mutateAll hwf htarget, (displayed_eq_iff path).mpr
        (hutf8 name path htarget)]
    · intro name htarget
      have hgone := path_mutateAll catalog mutations name
      rw [htarget, Option.getD_some, Option.map_eq_none_iff] at hgone
      simp only [hwf'.entryOf_toDocument, hgone, Option.map_none]
    · intro before mutation after _ hrefused
      simp only [mutateAll_append, Mutation.apply_of_refused hrefused]

/-- A name is moved, another removed and one refused; no member is lost. -/
theorem keeps_coloured :
    ∃ catalog, parse (documentHost coloured) coloured.write = .ok catalog ∧
      Keeps coloured (fun mutations => (catalog.mutateAll mutations).toDocument)
        [.insert "work" (utf8 "/srv/moved"), .remove "spare", .insert "@work" (utf8 "/srv/a")] := by
  obtain ⟨catalog, hparse⟩ := parse_coloured
  refine ⟨catalog, hparse, (keeps_iff (documentHost_reads coloured) hparse _).mpr ?_⟩
  intro name path htarget
  obtain ⟨mutation, hmem, hmutation⟩ := List.exists_of_findSome?_eq_some htarget
  have hpath : path = utf8 "/srv/moved" ∨ path = utf8 "/srv/a" := by
    simp only [List.mem_reverse, List.mem_cons, List.not_mem_nil, or_false] at hmem
    rcases hmem with rfl | rfl | rfl <;> simp_all [Mutation.target]
  rcases hpath with rfl | rfl <;> simp

/-- The document of the empty catalog. -/
def emptyDocument : Value :=
  Value.json [("catalog_version", Value.u64 1), ("databases", Value.json [])]

/-- A path an accepted insert gave is not always the one the rewritten
document maps the name to. -/
theorem keeps_not_always :
    ¬ ∀ host text document catalog mutations, host.fromStr text = .ok document →
      parse host text = .ok catalog →
      Keeps document (fun mutations => (catalog.mutateAll mutations).toDocument) mutations := by
  intro h
  have hkeeps := h (documentHost emptyDocument) emptyDocument.write emptyDocument default
    [.insert "work" unprintable] (documentHost_reads emptyDocument)
    ((parse_documentHost emptyDocument).trans rfl)
  have htarget : lastTarget "work" [.insert "work" unprintable] = some (some unprintable) := by
    decide
  have hpath := hkeeps.inserted "work" unprintable htarget
  rw [pathOf_mutateAll wf_default htarget, Option.some.injEq] at hpath
  exact absurd ((displayed_eq_iff unprintable).mp hpath) (by decide)

end Catalog

end NostdbServer
