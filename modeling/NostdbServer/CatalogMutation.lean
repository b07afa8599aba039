import NostdbServer.CatalogReplace

/-!
# CatalogMutation — load, mutate and store by many clients

Each client loads the catalog, applies one mutation and stores the
result, in a process of its own. Where no other client renames between a
client's load and its own rename, the catalog on disk is that of the
mutations applied one after another in the order of the renames
(`serial_mutations`). The rename alone does not see to that: of two
clients that both loaded first, the second undoes the first
(`lost_mutation`).
-/

namespace NostdbServer

open Utf8 Catalog

/-! ## A mutation of a catalog as its document denotes it -/

theorem Catalog.wf_asDisplayed {catalog : Catalog} (h : Wf catalog) : Wf catalog.asDisplayed :=
  wf_fromDocument (fromDocument_toDocument h)

theorem Mutation.wf_apply (mutation : Mutation) {catalog : Catalog} (h : Wf catalog) :
    Wf (mutation.apply catalog) := by
  cases mutation with
  | insert name path => exact h.insert name path
  | remove name => exact h.remove name

theorem Catalog.displayed_displayed (path : Path) :
    displayed (displayed path) = displayed path := displayed_ofText _

theorem Catalog.Entry.displayed_displayed (entry : Entry) :
    Entry.displayed (Entry.displayed entry) = Entry.displayed entry := by
  simp only [Entry.displayed, Catalog.displayed_displayed]

/-- A catalog and what its document denotes have the same document. -/
theorem Catalog.toDocument_asDisplayed (catalog : Catalog) :
    catalog.asDisplayed.toDocument = catalog.toDocument := by
  have hentry (entry : Entry) : entryDocument (Entry.displayed entry) = entryDocument entry := by
    simp only [entryDocument, Entry.displayed, displayed, Path.ofText, Path.display, lossy_utf8]
  have hdatabases : catalog.asDisplayed.databasesDocument = catalog.databasesDocument := by
    refine OrdMap.ext_get? (fun k => ?_)
    rw [get?_databasesDocument, get?_databasesDocument]
    simp [asDisplayed, Option.map_map, Function.comp_def, hentry]
  rw [toDocument_eq, toDocument_eq, documentMap, documentMap, hdatabases]
  rfl

/-- Mutating what the document of a catalog denotes is as good as
mutating the catalog. -/
theorem Mutation.asDisplayed_apply (mutation : Mutation) (catalog : Catalog) :
    (mutation.apply catalog.asDisplayed).asDisplayed = (mutation.apply catalog).asDisplayed := by
  have hext {c c' : Catalog} (hdatabases : ∀ k, c.databases.get? k = c'.databases.get? k)
      (hunknown : c.unknown = c'.unknown) : c = c' := by
    cases c
    cases c'
    cases OrdMap.ext_get? hdatabases
    cases hunknown
    rfl
  have hget (c : Catalog) (k : String) :
      c.asDisplayed.databases.get? k = (c.databases.get? k).map Entry.displayed :=
    OrdMap.get?_mapVal _ _ k
  cases mutation with
  | insert name path =>
    by_cases hproblems : insertProblems name path = []
    · simp only [apply, Catalog.insert, if_pos hproblems]
      refine hext (fun k => ?_) rfl
      simp only [hget, OrdMap.get?_insert, Option.map_map]
      split
      · -- the entry's unknown members are kept on both sides
        congr 3
      · cases catalog.databases.get? k with
        | none => rfl
        | some entry => exact congrArg some (Entry.displayed_displayed entry)
    · simp only [apply, Catalog.insert, if_neg hproblems]
      refine hext (fun k => ?_) rfl
      simp only [hget, Option.map_map]
      cases catalog.databases.get? k with
      | none => rfl
      | some entry => exact congrArg some (Entry.displayed_displayed entry)
  | remove name =>
    refine hext (fun k => ?_) rfl
    simp only [apply, Catalog.remove, hget, OrdMap.get?_remove]
    split
    · rfl
    · cases catalog.databases.get? k with
      | none => rfl
      | some entry => exact congrArg some (Entry.displayed_displayed entry)

/-- What is stored loads as the catalog its document denotes. -/
theorem load_storedBytes {host : Host} {catalog : Catalog} (hwf : Wf catalog)
    (hserde : Inverts host catalog.toDocument) :
    load host (readToString (some (storedBytes host catalog))) = .ok catalog.asDisplayed := by
  have hstr : host.fromStr (host.toStringPretty catalog.toDocument ++ "\n")
      = .ok catalog.toDocument := hserde
  simp only [readToString, storedBytes, ofUtf8?_utf8, load, parse, storeText, hstr,
    fromDocument_toDocument hwf]

/-- A loaded catalog is what its document denotes. -/
theorem of_load {host : Host} {read : ReadToString} {catalog : Catalog}
    (h : load host read = .ok catalog) : Wf catalog ∧ catalog.asDisplayed = catalog := by
  unfold load at h
  split at h
  · split at h
    · rename_i parsed hparse
      cases h
      have hwf := wf_parse hparse
      refine ⟨hwf, ?_⟩
      unfold parse at hparse
      split at hparse
      · cases hparse
      · rw [← toDocument_fromDocument hparse, fromDocument_toDocument hwf] at hparse
        exact Except.ok.inj hparse
    · cases h
  · cases h
    exact ⟨wf_default, rfl⟩
  · cases h

/-! ## Clients one after another -/

variable {ι : Type}

/-- The mutations of the listed parties, in turn. -/
def applied (party : ι → Party) (order : List ι) (catalog : Catalog) : Catalog :=
  order.foldl (fun catalog i => (party i).mutation.apply catalog) catalog

theorem applied_append (party : ι → Party) (order : List ι) (i : ι) (catalog : Catalog) :
    applied party (order ++ [i]) catalog = (party i).mutation.apply (applied party order catalog) :=
  by simp only [applied, List.foldl_append, List.foldl_cons, List.foldl_nil]

theorem wf_applied (party : ι → Party) (order : List ι) {catalog : Catalog} (h : Wf catalog) :
    Wf (applied party order catalog) := by
  induction order generalizing catalog with
  | nil => exact h
  | cons i order ih => exact ih ((party i).mutation.wf_apply h)

/-- Every call succeeds, and no process dies. -/
def Call.Succeeds : Call ι → Prop
  | .renameFails _ | .removeFile _ | .fails _ | .dies _ => False
  | _ => True

/-- Before the load, or behind the rename. -/
def Phase.Outside : Phase ι → Prop
  | .idle | .stored => True
  | _ => False

instance (call : Call ι) : Decidable call.Succeeds := by
  cases call <;> unfold Call.Succeeds <;> infer_instance

instance (phase : Phase ι) : Decidable phase.Outside := by
  cases phase <;> unfold Phase.Outside <;> infer_instance

/-- **One client at a time**: where a client renames, every other one is
before its load or behind its rename. -/
def Serial (disk : Disk ι) : Call ι → Prop
  | .rename i => ∀ j, j ≠ i → (disk.phase j).Outside
  | _ => True

instance [Fintype ι] [DecidableEq ι] (disk : Disk ι) (call : Call ι) :
    Decidable (Serial disk call) := by
  cases call <;> unfold Serial <;> infer_instance

section

variable (host : Host) (party : ι → Party) (name : String) (base : Catalog)

/-- What a client between its load and its rename holds is the catalog on
disk, that of the clients in `order`. -/
def Current (order : List ι) (disk : Disk ι) (i : ι) : Phase ι → Prop
  | .reading file _ => disk.files.contents name = some (disk.files.data file)
  | .loaded bytes => disk.files.contents name = bytes
  | .holding catalog | .writing _ catalog _ =>
      catalog = (party i).mutation.apply (applied party order base).asDisplayed
  | _ => True

/-- The clients in `order` have stored, one after another. -/
structure Serialized (init : String → Option (List UInt8)) (order : List ι) (disk : Disk ι) :
    Prop where
  sound : Sound host party init disk
  nodup : order.Nodup
  stored : ∀ i, i ∈ order ↔ disk.phase i = .stored
  loads : load host (readToString (disk.files.contents name))
    = .ok (applied party order base).asDisplayed
  current : ∀ i, Current party name base order disk i (disk.phase i)

variable {host party name base} {init : String → Option (List UInt8)} {order : List ι}
  {disk disk' : Disk ι}

/-- A call that gives the name no other file keeps what is under it. -/
theorem Leaves.contents {i : ι} (h : Sound host party init disk)
    (hleaves : Leaves party i disk disk') (hlasting : Lasting party name)
    (hentry : disk'.files.entry name = disk.files.entry name) :
    disk'.files.contents name = disk.files.contents name := by
  rw [Directory.contents, Directory.contents, hentry]
  cases hfile : disk.files.entry name with
  | none => rfl
  | some file =>
    obtain ⟨hdata, -⟩ := hleaves.keeps_settled (h.settled name file hlasting hfile)
    exact congrArg some hdata

/-- What another client is at is still so. -/
theorem Current.of_leaves {i j : ι} (h : Sound host party init disk)
    (hleaves : Leaves party i disk disk')
    (hcontents : disk'.files.contents name = disk.files.contents name)
    (hcurrent : Current party name base order disk j (disk.phase j)) :
    Current party name base order disk' j (disk.phase j) := by
  have hstands := h.stands j
  cases hphase : disk.phase j with
  | reading file got =>
    rw [hphase] at hcurrent hstands
    obtain ⟨hdata, -⟩ := hleaves.keeps_settled hstands.2.1
    exact hcontents.trans (hcurrent.trans (congrArg some hdata.symm))
  | loaded bytes =>
    rw [hphase] at hcurrent
    exact hcontents.trans hcurrent
  | holding catalog =>
    rw [hphase] at hcurrent
    exact hcurrent
  | writing file catalog written =>
    rw [hphase] at hcurrent
    exact hcurrent
  | _ => trivial

/-- **The frame rule**: a client's call before its rename leaves what is
on disk, and so every other client's view of it. -/
theorem Serialized.of_leaves {i : ι} (h : Serialized host party name base init order disk)
    (hsound : Sound host party init disk') (hleaves : Leaves party i disk disk')
    (hlasting : Lasting party name)
    (hentry : disk'.files.entry name = disk.files.entry name)
    (hbefore : disk.phase i ≠ .stored) (hafter : disk'.phase i ≠ .stored)
    (hcurrent : Current party name base order disk' i (disk'.phase i)) :
    Serialized host party name base init order disk' := by
  have hcontents := hleaves.contents h.sound hlasting hentry
  refine ⟨hsound, h.nodup, fun j => ?_, hcontents ▸ h.loads, fun j => ?_⟩
  · by_cases hj : j = i
    · subst hj
      exact (h.stored j).trans (iff_of_false hbefore hafter)
    · rw [hleaves.phase j hj]
      exact h.stored j
  · by_cases hj : j = i
    · exact hj ▸ hcurrent
    · rw [hleaves.phase j hj]
      exact Current.of_leaves h.sound hleaves hcontents (h.current j)

variable [DecidableEq ι]

/-- A call that moves a client on and changes no file. -/
theorem Serialized.moved {i : ι} {before after : Phase ι}
    (h : Serialized host party name base init order disk) (hlasting : Lasting party name)
    (hphase : disk.phase i = before) (hsound : Sound host party init (disk.moved i after))
    (hbefore : before ≠ .stored) (hafter : after ≠ .stored)
    (hcurrent : Current party name base order disk i after) :
    Serialized host party name base init order (disk.moved i after) := by
  have hnow : (disk.moved i after).phase i = after := Function.update_self _ _ _
  refine h.of_leaves hsound (leaves_moved disk i after) hlasting rfl (hphase ▸ hbefore)
    (hnow.symm ▸ hafter) ?_
  rw [hnow]
  cases after <;> exact hcurrent

/-- **The rename rule**: the catalog a client renames into place, alone, is
that of the clients before it and its own mutation. -/
theorem Serialized.renamed {i : ι} {file : File ι} {catalog : Catalog}
    {files : Directory String (File ι) UInt8}
    (h : Serialized host party name base init order disk) (htarget : (party i).target = name)
    (hlasting : Lasting party name) (hbase : Wf base)
    (hserde : ∀ order : List ι, order.Nodup → Inverts host (applied party order base).toDocument)
    (hphase : disk.phase i = .writing file catalog (storedBytes host catalog).length)
    (hrename : disk.files.rename (temporary (party i).pid) (party i).target = some files)
    (halone : ∀ j, j ≠ i → (disk.phase j).Outside)
    (hsound : Sound host party init { disk.moved i .stored with files }) :
    Serialized host party name base init (order ++ [i]) { disk.moved i .stored with files } := by
  obtain ⟨-, -, hdata, hsame, hnew, -, -⟩ :=
    h.sound.rename_inv (htarget.symm ▸ hlasting) hphase hrename
  have hheld : catalog = (party i).mutation.apply (applied party order base).asDisplayed := by
    have hcurrent := h.current i
    rw [hphase] at hcurrent
    exact hcurrent
  have hfresh : i ∉ order := by
    intro hmem
    have hstored := (h.stored i).mp hmem
    rw [hphase] at hstored
    cases hstored
  have hcontents : files.contents name = some (storedBytes host catalog) := by
    rw [htarget] at hnew
    rw [Directory.contents, hnew, Option.map_some, hsame, hdata]
  have hdisplayed : catalog.asDisplayed = (applied party (order ++ [i]) base).asDisplayed := by
    rw [hheld, Mutation.asDisplayed_apply, applied_append]
  have hnodup : (order ++ [i]).Nodup := by
    rw [List.nodup_append]
    exact ⟨h.nodup, List.nodup_singleton i, fun j hj k hk heq =>
      hfresh (List.mem_singleton.mp hk ▸ heq ▸ hj)⟩
  have hinverts : Inverts host catalog.toDocument := by
    rw [← toDocument_asDisplayed, hdisplayed, toDocument_asDisplayed]
    exact hserde _ hnodup
  have hwf : Wf catalog := by
    rw [hheld]
    exact (party i).mutation.wf_apply (wf_asDisplayed (wf_applied party order hbase))
  have hself : (disk.moved i .stored).phase i = .stored := Function.update_self _ _ _
  have hother (j : ι) (hj : j ≠ i) : (disk.moved i .stored).phase j = disk.phase j :=
    Function.update_of_ne hj _ _
  refine ⟨hsound, hnodup, fun j => ?_, ?_, fun j => ?_⟩
  · by_cases hj : j = i
    · subst hj
      exact iff_of_true (by simp) hself
    · simp only [hother j hj, List.mem_append, List.mem_singleton, hj, or_false]
      exact h.stored j
  · simp only [hcontents]
    rw [load_storedBytes hwf hinverts, hdisplayed]
  · by_cases hj : j = i
    · subst hj
      simp only [hself]
      trivial
    · -- every other client is outside, and has no view to keep
      have houtside := halone j hj
      simp only [hother j hj]
      cases hphase' : disk.phase j <;> rw [hphase'] at houtside <;> trivial

/-- **The step lemma**: a call under the condition keeps the clients that
have stored one after another, and a rename adds its own. -/
theorem Serialized.step {call : Call ι} (hpids : Function.Injective (fun i => (party i).pid))
    (htarget : ∀ i, (party i).target = name) (hlasting : Lasting party name)
    (haccepted : ∀ i, (party i).mutation.Accepted) (hbase : Wf base)
    (hserde : ∀ order : List ι, order.Nodup → Inverts host (applied party order base).toDocument)
    (h : Serialized host party name base init order disk) (hsucceeds : call.Succeeds)
    (hserial : Serial disk call) (hstep : Disk.step host party call disk = some disk') :
    ∃ order', Serialized host party name base init order' disk' := by
  have htargets (i : ι) : Lasting party (party i).target := (htarget i).symm ▸ hlasting
  have hsound := h.sound.step htargets (alone_of_injective hpids disk call) hstep
  have hstands (i : ι) {phase : Phase ι} (hphase : disk.phase i = phase) :
      Stands host party init disk i phase := hphase ▸ h.sound.stands i
  have hat (i : ι) {phase : Phase ι} (hphase : disk.phase i = phase) :
      Current party name base order disk i phase := hphase ▸ h.current i
  cases outcome_of_step hstep with
  | @absent i hphase hentry =>
    refine ⟨order, h.moved hlasting hphase hsound (by simp) (by simp) ?_⟩
    rw [htarget] at hentry
    simp only [Current, Directory.contents, hentry, Option.map_none]
  | @opened i file hphase hentry =>
    refine ⟨order, h.moved hlasting hphase hsound (by simp) (by simp) ?_⟩
    rw [htarget] at hentry
    simp only [Current, Directory.contents, hentry, Option.map_some]
  | @ended i n file got hphase hend =>
    obtain ⟨-, -, hgot⟩ := hstands i hphase
    have hwhole : got = disk.files.data file := by
      rw [hgot]
      exact List.take_of_length_le (List.drop_eq_nil_iff.mp hend)
    refine ⟨order, h.moved hlasting hphase hsound (by simp) (by simp) ?_⟩
    exact (hat i hphase).trans (congrArg some hwhole.symm)
  | @got i n file got hphase =>
    have hread : disk.files.contents name = some (disk.files.data file) := hat i hphase
    exact ⟨order, h.moved hlasting hphase hsound (by simp) (by simp) hread⟩
  | @mutated i bytes hphase =>
    have hloaded : load host (readToString bytes) = .ok (applied party order base).asDisplayed := by
      have hbytes : disk.files.contents name = bytes := hat i hphase
      rw [← hbytes]
      exact h.loads
    have hholding : (mutated host (party i).mutation bytes : Phase ι)
        = .holding ((party i).mutation.apply (applied party order base).asDisplayed) := by
      simp only [mutated, hloaded, if_pos (haccepted i)]
    rw [hholding] at hsound ⊢
    exact ⟨order, h.moved hlasting hphase hsound (by simp) (by simp) rfl⟩
  | @created i catalog hphase =>
    have hnone : disk.storing i = none := hstands i hphase
    have hheld := hat i hphase
    have hleaves := h.sound.leaves_created catalog hnone (fun j hj hpid => absurd (hpids hpid) hj)
    have hnow : (disk.created party i catalog).phase i
        = .writing (disk.files.create (temporary (party i).pid) (.made i)).1 catalog 0 :=
      Function.update_self _ _ _
    refine ⟨order, h.of_leaves hsound hleaves hlasting
      (disk.files.entry_create_ne _ (hlasting i)) (by simp [hphase]) (by simp [hnow]) ?_⟩
    rw [hnow]
    exact hheld
  | @wrote i n file catalog written hphase =>
    have hheld := hat i hphase
    have hnow : (disk.wrote host i file catalog written n).phase i = .writing file catalog
        (written + (((storedBytes host catalog).drop written).take n).length) :=
      Function.update_self _ _ _
    refine ⟨order, h.of_leaves hsound (h.sound.leaves_wrote hphase n) hlasting rfl
      (by simp [hphase]) (by simp [hnow]) ?_⟩
    rw [hnow]
    exact hheld
  | @renamed i file catalog files hphase hrename =>
    exact ⟨order ++ [i], h.renamed (htarget i) hlasting hbase hserde hphase hrename hserial hsound⟩
  | renameFailed => exact hsucceeds.elim
  | removed => exact hsucceeds.elim
  | failed => exact hsucceeds.elim
  | died => exact hsucceeds.elim

/-- **Catalog mutation is serialized** while every client is alone between
its load and its rename: the catalog on disk is the mutations of the
clients that have stored, applied one after another in the order of the
renames, as its document denotes it. Where the paths are UTF-8 that is
the very catalog. -/
theorem serial_mutations (host : Host) (party : ι → Party) (init : String → Option (List UInt8))
    (name : String) (base : Catalog)
    (hpids : Function.Injective (fun i => (party i).pid))
    (htarget : ∀ i, (party i).target = name) (hlasting : Lasting party name)
    (haccepted : ∀ i, (party i).mutation.Accepted)
    (hload : load host (readToString (init name)) = .ok base)
    (hserde : ∀ order : List ι, order.Nodup → Inverts host (applied party order base).toDocument)
    {calls : List (Call ι)} {disk : Disk ι}
    (hserial : Run.Under (Disk.step host party)
      (fun disk call => call.Succeeds ∧ Serial disk call) calls
      (Disk.start init (fun _ => .idle)))
    (hrun : Run.after (Disk.step host party) calls (Disk.start init (fun _ => .idle))
      = some disk) :
    ∃ order : List ι, order.Nodup ∧ (∀ i, i ∈ order ↔ disk.phase i = .stored) ∧
      load host (readToString (disk.files.contents name))
        = .ok (applied party order base).asDisplayed ∧
      (PathsUtf8 (applied party order base) →
        load host (readToString (disk.files.contents name))
          = .ok (applied party order base)) := by
  obtain ⟨hbase, hdisplayed⟩ := of_load hload
  have hstart : ∃ order, Serialized host party name base init order
      (Disk.start init (fun _ => .idle)) := by
    refine ⟨[], Sound.start (fun _ => trivial), List.nodup_nil, fun i => ?_, ?_, fun i => trivial⟩
    · exact iff_of_false List.not_mem_nil (by simp [Disk.start])
    · rw [Disk.contents_start, hload]
      exact congrArg Except.ok hdisplayed.symm
  have hstep (disk : Disk ι) (call : Call ι) (disk' : Disk ι)
      (h : ∃ order, Serialized host party name base init order disk)
      (hok : call.Succeeds ∧ Serial disk call)
      (hstep : Disk.step host party call disk = some disk') :
      ∃ order, Serialized host party name base init order disk' := by
    obtain ⟨order, h⟩ := h
    exact h.step hpids htarget hlasting haccepted hbase hserde hok.1 hok.2 hstep
  obtain ⟨order, hserialized⟩ : ∃ order, Serialized host party name base init order disk :=
    Run.invariant_under hstep hstart hserial hrun
  refine ⟨order, hserialized.nodup, hserialized.stored, hserialized.loads, fun hpaths => ?_⟩
  rw [hserialized.loads, asDisplayed_eq_iff.mpr hpaths]

end

/-! ## Two clients -/

/-- A host that reads back the stored texts of the documents. -/
def Host.storing (documents : List Value) : Host :=
  Host.reading (documents.map (fun document => (document.writePretty ++ "\n", document)))

theorem inverts_storing {documents : List Value} {document : Value}
    (hdistinct : (documents.map (fun document => document.writePretty ++ "\n")).Nodup)
    (hmem : document ∈ documents) : Inverts (Host.storing documents) document := by
  have hlookup : (documents.map (fun document => (document.writePretty ++ "\n", document))).lookup
      (document.writePretty ++ "\n") = some document := by
    induction documents with
    | nil => cases hmem
    | cons first rest ih =>
      rw [List.map_cons, List.nodup_cons] at hdistinct
      rcases List.mem_cons.mp hmem with rfl | hmem
      · exact List.lookup_cons_self
      · have hne : (document.writePretty ++ "\n" == first.writePretty ++ "\n") = false := by
          rw [beq_eq_false_iff_ne]
          intro heq
          refine hdistinct.1 (heq ▸ ?_)
          exact List.mem_map_of_mem hmem
        rw [List.map_cons, List.lookup_cons, hne]
        exact ih hdistinct.2 hmem
  simp only [Inverts, Host.storing, Host.reading, hlookup]

/-- Inserts of two names come to the same in either order. -/
theorem Catalog.insert_comm (catalog : Catalog) {first second : String} (h : first ≠ second)
    (path path' : Path) :
    ((catalog.insert first path).2.insert second path').2
      = ((catalog.insert second path').2.insert first path).2 := by
  by_cases hfirst : insertProblems first path = []
  · by_cases hsecond : insertProblems second path' = []
    · simp only [Catalog.insert, if_pos hfirst, if_pos hsecond]
      congr 1
      refine OrdMap.ext_get? (fun k => ?_)
      simp only [OrdMap.get?_insert, if_neg h, if_neg h.symm]
      by_cases hk : first = k
      · subst hk
        simp [h.symm]
      · simp [hk]
    · simp only [Catalog.insert, if_pos hfirst, if_neg hsecond]
  · by_cases hsecond : insertProblems second path' = []
    · simp only [Catalog.insert, if_neg hfirst, if_pos hsecond]
    · simp only [Catalog.insert, if_neg hfirst, if_neg hsecond]

/-- Two clients, each in its process, that insert a name each. -/
def twoClients : Bool → Party
  | false => ⟨7, "catalog.json", .insert "a" (Path.ofText "/srv/a")⟩
  | true => ⟨8, "catalog.json", .insert "b" (Path.ofText "/srv/b")⟩

/-- A host that reads what they may store. -/
def twoHost : Host :=
  Host.storing ([[], [false], [true], [false, true]].map
    (fun order => (applied twoClients order Catalog.default).toDocument))

/-- The orders of two clients, each at most once. -/
theorem nodup_two {order : List Bool} (h : order.Nodup) :
    order ∈ [[], [false], [true], [false, true], [true, false]] := by
  match order with
  | [] | [false] | [true] | [false, true] | [true, false] => decide
  | [false, false] | [true, true] => simp at h
  | i :: j :: k :: rest => cases i <;> cases j <;> cases k <;> simp at h

theorem inverts_twoHost {order : List Bool} (h : order.Nodup) :
    Inverts twoHost (applied twoClients order Catalog.default).toDocument := by
  have hdistinct : ([[], [false], [true], [false, true]].map (fun order =>
      (applied twoClients order Catalog.default).toDocument.writePretty ++ "\n")).Nodup := by
    decide +kernel
  have hlisted {order : List Bool} (h : order ∈ [[], [false], [true], [false, true]]) :
      Inverts twoHost (applied twoClients order Catalog.default).toDocument :=
    inverts_storing (by rwa [List.map_map]) (List.mem_map_of_mem h)
  have hcomm : applied twoClients [true, false] Catalog.default
      = applied twoClients [false, true] Catalog.default := Catalog.insert_comm _ (by decide) _ _
  have horders : order ∈ [[], [false], [true], [false, true]] ∨ order = [true, false] := by
    simpa [or_assoc] using nodup_two h
  rcases horders with hfour | rfl
  · exact hlisted hfour
  · rw [hcomm]
    exact hlisted (by decide)

theorem twoClients_pids : Function.Injective (fun i => (twoClients i).pid) := by
  intro i j h
  cases i <;> cases j <;> first | rfl | cases h

theorem twoClients_target (i : Bool) : (twoClients i).target = "catalog.json" := by
  cases i <;> rfl

theorem twoClients_lasting : Lasting twoClients "catalog.json" := by
  intro i
  cases i <;> decide

theorem twoClients_accepted (i : Bool) : (twoClients i).mutation.Accepted := by
  cases i <;> decide

/-- The disk behind the calls, from no catalog at all. -/
def twoClientsDisk (calls : List (Call Bool)) : Option (Disk Bool) :=
  Run.after (Disk.step twoHost twoClients) calls (Disk.start nothing (fun _ => .idle))

/-- The second client loads when the first has stored. -/
def oneByOne : List (Call Bool) :=
  [.open false, .mutate false, .create false, .write false 1000, .rename false,
    .open true, .read true 999, .read true 999, .mutate true, .create true, .write true 1000,
    .rename true]

theorem oneByOne_isSome : (twoClientsDisk oneByOne).isSome := by decide +kernel

/-- One after the other, both insert. -/
theorem serial_mutations_oneByOne :
    let disk := (twoClientsDisk oneByOne).get oneByOne_isSome
    ∃ order : List Bool, order.Nodup ∧ (∀ i, i ∈ order ↔ disk.phase i = .stored) ∧
      load twoHost (readToString (disk.files.contents "catalog.json"))
        = .ok (applied twoClients order Catalog.default).asDisplayed := by
  obtain ⟨order, hnodup, hstored, hloads, -⟩ := serial_mutations twoHost twoClients nothing
    "catalog.json" Catalog.default twoClients_pids twoClients_target twoClients_lasting
    twoClients_accepted rfl (fun _ h => inverts_twoHost h) (by decide +kernel)
    (Option.some_get oneByOne_isSome).symm
  exact ⟨order, hnodup, hstored, hloads⟩

/-- Both clients load before either stores. -/
def bothLoaded : List (Call Bool) :=
  [.open false, .open true, .mutate false, .mutate true, .create false, .write false 1000,
    .rename false, .create true, .write true 1000, .rename true]

/-- Of two clients that both loaded first, the second undoes the first. -/
theorem lost_mutation :
    ¬ ∀ host (party : Bool → Party) init name base,
      Function.Injective (fun i => (party i).pid) → (∀ i, (party i).target = name) →
      Lasting party name → (∀ i, (party i).mutation.Accepted) →
      load host (readToString (init name)) = .ok base →
      (∀ order : List Bool, order.Nodup → Inverts host (applied party order base).toDocument) →
      ∀ calls disk, (∀ call ∈ calls, call.Succeeds) →
      Run.after (Disk.step host party) calls (Disk.start init (fun _ => .idle)) = some disk →
      (∀ i, disk.phase i = .stored) →
      ∃ order : List Bool, order.Nodup ∧ (∀ i, i ∈ order) ∧
        load host (readToString (disk.files.contents name)) = .ok (applied party order base) := by
  intro h
  have hsome : (twoClientsDisk bothLoaded).isSome := by decide +kernel
  obtain ⟨disk, hrun⟩ := Option.isSome_iff_exists.mp hsome
  have hphases : (twoClientsDisk bothLoaded).all (fun disk => [false, true].all (fun i =>
      match disk.phase i with
      | .stored => true
      | _ => false)) = true := by decide +kernel
  -- the first name is not in what the disk holds, and is in what either order gives
  have hlost : (twoClientsDisk bothLoaded).any (fun disk =>
      (load twoHost (readToString (disk.files.contents "catalog.json"))).toOption.all
        (fun catalog => (catalog.get "a").isSome)) = false := by decide +kernel
  have hkept : ∀ order ∈ [[], [false], [true], [false, true], [true, false]], false ∈ order →
      ((applied twoClients order Catalog.default).get "a").isSome = true := by decide +kernel
  rw [show twoClientsDisk bothLoaded = some disk from hrun] at hphases hlost
  have hstored (i : Bool) : disk.phase i = .stored := by
    have hi := List.all_eq_true.mp hphases i (by cases i <;> decide)
    split at hi
    · assumption
    · cases hi
  obtain ⟨order, hnodup, hmem, hloads⟩ := h twoHost twoClients nothing "catalog.json"
    Catalog.default twoClients_pids twoClients_target twoClients_lasting twoClients_accepted rfl
    (fun _ h => inverts_twoHost h) bothLoaded disk (by decide) hrun hstored
  rw [Option.any_some, hloads] at hlost
  exact absurd (hkept order (nodup_two hnodup) (hmem false))
    (by simpa [Except.toOption] using hlost)

end NostdbServer
