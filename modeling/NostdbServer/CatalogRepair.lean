import NostdbServer.CatalogRoundTrip

/-!
# CatalogRepair — what a rejection leaves to repair

A refused document is repaired problem by problem: an entry under a
refused name is given another name, an entry with a refused value another
value, and nothing else is changed. The loop of `parse` does not look at
the value behind a refused name, so one pass is enough exactly where there
is nothing wrong with it (`fixable_in_one_pass_iff`).
-/

namespace NostdbServer

namespace Catalog

/-- The problems a document is refused with. -/
def reported (document : Value) : List Problem :=
  match fromDocument document with
  | .ok _ => []
  | .error rejection => rejection.problems

/-- The entry with the one problem repaired that is reported for it, if
there is one. -/
def Repaired (entry repaired : String × Value) : Prop :=
  match nameProblem entry.1, entryFrom entry.2 with
  | some _, _ => nameProblem repaired.1 = none ∧ repaired.2 = entry.2
  | none, .error _ => repaired.1 = entry.1 ∧ ∃ read, entryFrom repaired.2 = .ok read
  | none, .ok _ => repaired = entry

/-- Every entry is repaired, under distinct names. -/
def Repairs (map map' : Map) : Prop :=
  ∃ repair : String × Value → String × Value, (∀ p ∈ map.entries, Repaired p (repair p)) ∧
    ((map.entries.map repair).map Prod.fst).Nodup ∧ map' = OrdMap.ofList (map.entries.map repair)

/-- What a rejection promises: for an entry with a path it reports all
that `insert` would, and the document is accepted once what is reported is
repaired. -/
structure FixableInOnePass (object map : Map) : Prop where
  reports : ∀ name (entry : Map) text, map.get? name = some (Value.ofMap entry) →
    entry.get? "path" = some (.string text) →
    ∀ problem ∈ insertProblems name (Path.ofText text), problem ∈ reported (Value.ofMap object)
  accepts : ∀ map', Repairs map map' → ∃ catalog,
    fromDocument (Value.ofMap (object.insert "databases" (Value.ofMap map'))) = .ok catalog

/-! ## Documents of version 1 -/

theorem versionRejection_one {object : Map}
    (h : object.get? "catalog_version" = some (Value.u64 1)) : versionRejection object = none := by
  simp only [versionRejection, h]
  rfl

/-- A document of version 1 is refused with what the loop reports. -/
theorem fromDocument_one {object map : Map}
    (hversion : object.get? "catalog_version" = some (Value.u64 1))
    (hdatabases : object.get? "databases" = some (Value.ofMap map)) :
    fromDocument (Value.ofMap object) = if (readEntries map).2 = []
      then .ok ⟨(readEntries map).1, (object.remove "catalog_version").remove "databases"⟩
      else .error ⟨.catalogInvalid, (readEntries map).2⟩ := by
  have hread : readDatabases object = readEntries map := by
    simp only [readDatabases, hdatabases, Value.asObject_ofMap]
  simp only [fromDocument, Value.asObject_ofMap, versionRejection_one hversion, hread]

theorem reported_one {object map : Map}
    (hversion : object.get? "catalog_version" = some (Value.u64 1))
    (hdatabases : object.get? "databases" = some (Value.ofMap map)) :
    reported (Value.ofMap object) = (readEntries map).2 := by
  rw [reported, fromDocument_one hversion hdatabases]
  by_cases hnil : (readEntries map).2 = []
  · rw [if_pos hnil, hnil]
  · rw [if_neg hnil]

/-- A problem of an entry is reported. -/
theorem mem_problems_of_readEntry {map : Map} {name : String} {value : Value} {problem : Problem}
    (hentry : map.get? name = some value) (hread : readEntry name value = .error problem) :
    problem ∈ (readEntries map).2 := by
  rw [readEntries_problems]
  refine List.mem_filterMap.mpr ⟨(name, value), OrdMap.mem_entries_iff.mpr hentry, ?_⟩
  simp only [hread]

/-! ## What a repair comes to -/

/-- The value behind a refused name has no problem of its own. -/
def NothingHidden (entry : String × Value) : Prop :=
  nameProblem entry.1 ≠ none → ∃ read, entryFrom entry.2 = .ok read

/-- A repaired entry is accepted where nothing was hidden behind its
name, and only there. -/
theorem Repaired.accepted_iff {entry repaired : String × Value} (h : Repaired entry repaired) :
    (∃ read, readEntry repaired.1 repaired.2 = .ok read) ↔ NothingHidden entry := by
  unfold Repaired at h
  simp only [readEntry_eq_ok, NothingHidden]
  cases hname : nameProblem entry.1 with
  | some problem =>
    rw [hname] at h
    obtain ⟨hgood, hvalue⟩ := h
    simp [hgood, hvalue]
  | none =>
    rw [hname] at h
    cases hvalue : entryFrom entry.2 with
    | ok read =>
      rw [hvalue] at h
      obtain rfl : repaired = entry := h
      simp [hname, hvalue]
    | error problem =>
      rw [hvalue] at h
      obtain ⟨hsame, read, hread⟩ := h
      simp [hsame, hname, hread]

theorem repairs_accepted_iff {object map map' : Map}
    (hversion : object.get? "catalog_version" = some (Value.u64 1)) (h : Repairs map map') :
    (∃ catalog, fromDocument (Value.ofMap (object.insert "databases" (Value.ofMap map')))
      = .ok catalog) ↔ ∀ p ∈ map.entries, NothingHidden p := by
  obtain ⟨repair, hrepaired, hnodup, rfl⟩ := h
  have hversion' : (object.insert "databases" (Value.ofMap (OrdMap.ofList
      (map.entries.map repair)))).get? "catalog_version" = some (Value.u64 1) := by
    rw [OrdMap.get?_insert, if_neg (by decide), hversion]
  rw [fromDocument_one hversion' (OrdMap.get?_insert_self _ _ _)]
  have hentry (k : String) (v : Value) : (OrdMap.ofList (map.entries.map repair)).get? k = some v ↔
      ∃ p ∈ map.entries, repair p = (k, v) := by
    rw [OrdMap.get?_ofList_of_nodup hnodup, List.mem_map]
  constructor
  · rintro ⟨catalog, haccepted⟩ p hp
    have hnil : (readEntries (OrdMap.ofList (map.entries.map repair))).2 = [] := by
      by_contra hne
      rw [if_neg hne] at haccepted
      cases haccepted
    exact (hrepaired p hp).accepted_iff.mp
      (readEntries_problems_nil.mp hnil _ _ ((hentry _ _).mpr ⟨p, hp, rfl⟩))
  · intro hall
    have hnil : (readEntries (OrdMap.ofList (map.entries.map repair))).2 = [] := by
      refine readEntries_problems_nil.mpr (fun k v hkv => ?_)
      obtain ⟨p, hp, hp'⟩ := (hentry k v).mp hkv
      have haccepted := (hrepaired p hp).accepted_iff.mpr (hall p hp)
      rwa [hp'] at haccepted
    rw [if_pos hnil]
    exact ⟨_, rfl⟩

/-! ## A repair there always is -/

/-- A name of `n + 1` letters. -/
def letters (n : Nat) : String := String.ofList (List.replicate (n + 1) 'a')

theorem nameProblem_letters (n : Nat) : nameProblem (letters n) = none := by
  simp only [nameProblem, letters, String.toList_ofList, List.replicate_succ]
  have hnone : (List.replicate n 'a').find? (fun c => !nameCharacter c) = none := by
    refine List.find?_eq_none.mpr (fun c hc => ?_)
    rw [List.eq_of_mem_replicate hc]
    decide
  rw [hnone]
  rfl

theorem length_letters (n : Nat) : (letters n).length = n + 1 := by
  rw [letters, String.length_ofList, List.length_replicate]

/-- A refused name is given one that is longer than all there are, by its
place among them. -/
def renamed (names : List String) (name : String) : String :=
  if nameProblem name = none then name
  else letters ((names.map String.length).sum + names.idxOf name)

theorem renamed_injOn {names : List String} {name name' : String} (hmem : name ∈ names)
    (hmem' : name' ∈ names) (h : renamed names name = renamed names name') : name = name' := by
  have hshort {name : String} (hmem : name ∈ names) (place : Nat) :
      name ≠ letters ((names.map String.length).sum + place) := by
    intro heq
    have hlength := length_letters ((names.map String.length).sum + place)
    have hle : name.length ≤ (names.map String.length).sum :=
      List.le_sum_of_mem (List.mem_map_of_mem hmem)
    rw [← heq] at hlength
    omega
  unfold renamed at h
  split at h
  · split at h
    · exact h
    · exact absurd h (hshort hmem _)
  · split at h
    · exact absurd h.symm (hshort hmem' _)
    · have hlength := congrArg String.length h
      rw [length_letters, length_letters] at hlength
      exact (List.idxOf_inj hmem).mp (by omega)

/-- An entry's value, or one that is accepted in its place. -/
def acceptable (value : Value) : Value :=
  match entryFrom value with
  | .ok _ => value
  | .error _ => Value.json [("path", .string "/")]

/-- Refused names are changed, and refused values under other names. -/
def mended (names : List String) (entry : String × Value) : String × Value :=
  (renamed names entry.1, if nameProblem entry.1 = none then acceptable entry.2 else entry.2)

theorem repaired_mended (names : List String) (entry : String × Value) :
    Repaired entry (mended names entry) := by
  unfold Repaired mended renamed
  cases hname : nameProblem entry.1 with
  | some problem =>
    simp only [reduceCtorEq, if_false]
    exact ⟨nameProblem_letters _, trivial⟩
  | none =>
    simp only [if_true, acceptable]
    cases hvalue : entryFrom entry.2 with
    | ok read => rfl
    | error problem =>
      refine ⟨trivial, ⟨Path.ofText "/", OrdMap.empty⟩, ?_⟩
      show entryFrom (Value.json [("path", .string "/")]) = _
      rfl

theorem exists_repairs (map : Map) : ∃ map', Repairs map map' := by
  refine ⟨_, mended (map.entries.map Prod.fst), fun p _ => repaired_mended _ p, ?_, rfl⟩
  have hnodup : (map.entries.map Prod.fst).Nodup := by
    rw [List.Nodup, List.pairwise_map]
    exact map.sorted.imp (fun h => ne_of_lt h)
  have hnames : (map.entries.map (mended (map.entries.map Prod.fst))).map Prod.fst
      = (map.entries.map Prod.fst).map (renamed (map.entries.map Prod.fst)) := by
    rw [List.map_map, List.map_map]
    rfl
  rw [hnames]
  exact hnodup.map_on (fun name hmem name' hmem' h => renamed_injOn hmem hmem' h)

/-- **When a rejected catalog is fixable in one pass**: where every entry
under a refused name has a value that is accepted. -/
theorem fixable_in_one_pass_iff (object map : Map)
    (hversion : object.get? "catalog_version" = some (Value.u64 1))
    (hdatabases : object.get? "databases" = some (Value.ofMap map)) :
    FixableInOnePass object map ↔ ∀ name value, map.get? name = some value →
      nameProblem name ≠ none → ∃ entry, entryFrom value = .ok entry := by
  have hentries : (∀ name value, map.get? name = some value → NothingHidden (name, value)) ↔
      ∀ p ∈ map.entries, NothingHidden p :=
    ⟨fun h p hp => h p.1 p.2 (OrdMap.mem_entries_iff.mp hp),
      fun h name value hget => h (name, value) (OrdMap.mem_entries_iff.mpr hget)⟩
  constructor
  · intro h
    obtain ⟨map', hrepairs⟩ := exists_repairs map
    exact hentries.mpr ((repairs_accepted_iff hversion hrepairs).mp (h.accepts map' hrepairs))
  · intro hall
    refine ⟨?_, fun map' hrepairs => (repairs_accepted_iff hversion hrepairs).mpr
      (hentries.mp hall)⟩
    intro name entry text hget hpath problem hproblem
    rw [reported_one hversion hdatabases]
    have hvalue {refused : Problem} (h : pathProblem (Path.ofText text) = some refused) :
        entryFrom (Value.ofMap entry) = .error refused := by
      simp only [entryFrom, Value.asObject_ofMap, hpath, Value.asStr, h]
    rw [insertProblems, List.mem_append, Option.mem_toList, Option.mem_toList] at hproblem
    cases hname : nameProblem name with
    | some refused =>
      -- the path is fine, so the name's problem is all there is
      obtain ⟨read, hread⟩ := hall name _ hget (by simp [hname])
      cases hpathProblem : pathProblem (Path.ofText text) with
      | some problem =>
        rw [hvalue hpathProblem] at hread
        cases hread
      | none =>
        rw [hname, hpathProblem] at hproblem
        obtain rfl : refused = problem := by simpa using hproblem
        exact mem_problems_of_readEntry hget (by simp only [readEntry, hname])
    | none =>
      rw [hname] at hproblem
      cases hpathProblem : pathProblem (Path.ofText text) with
      | none => simp [hpathProblem] at hproblem
      | some refused =>
        rw [hpathProblem] at hproblem
        obtain rfl : Problem.entry name refused = problem := by simpa using hproblem
        exact mem_problems_of_readEntry hget
          (by simp only [readEntry, hname, hvalue hpathProblem])

/-! ## One entry, two problems -/

/-- A document of version 1. -/
def versionOne (map : Map) : Map :=
  OrdMap.ofList [("catalog_version", Value.u64 1), ("databases", Value.ofMap map)]

/-- Entries of one name and one path. -/
def oneEntry (name path : String) : Map :=
  OrdMap.ofList [(name, Value.json [("path", .string path)])]

/-- A refused name in front of a good path is fixable in one pass. -/
theorem fixable_in_one_pass_iff_sigil :
    FixableInOnePass (versionOne (oneEntry "@spare" "/srv/b")) (oneEntry "@spare" "/srv/b") := by
  refine (fixable_in_one_pass_iff _ _ rfl rfl).mpr (fun name value hget _ => ?_)
  obtain ⟨-, rfl⟩ : "@spare" = name ∧ Value.json [("path", .string "/srv/b")] = value := by
    simpa [oneEntry, OrdMap.ofList, OrdMap.insertAll, OrdMap.get?_insert] using hget
  exact ⟨⟨Path.ofText "/srv/b", OrdMap.empty⟩, rfl⟩

/-- Behind a refused name a relative path is not reported. -/
theorem hidden_problem :
    ¬ ∀ object map, object.get? "catalog_version" = some (Value.u64 1) →
      object.get? "databases" = some (Value.ofMap map) → FixableInOnePass object map := by
  intro h
  have hreports := (h (versionOne (oneEntry "bad name" "relative")) (oneEntry "bad name" "relative")
    rfl rfl).reports "bad name" (OrdMap.ofList [("path", .string "relative")]) "relative" rfl rfl
    (.entry "bad name" (.pathRelative (Path.ofText "relative"))) (by decide +kernel)
  exact absurd hreports (by decide +kernel)

end Catalog

end NostdbServer
