import NostdbServer.CatalogStore

/-!
# StoreFailure — what a failed store leaves behind

One party stores its catalog in a directory of its own, and a call fails.
`Standing` says what the directory holds by the calls made so far. The
temporary file is removed behind a failed rename and nowhere else, so a
write that fails leaves it (`store_failure_iff`).
-/

namespace NostdbServer

variable {ι : Type} [DecidableEq ι]

/-- The calls `Catalog::store` makes, and their failures. What fails
before `create` is the making of the directory or of the file. -/
def Call.OfStore (i : ι) : Call ι → Prop
  | .create j | .write j _ | .rename j | .renameFails j | .removeFile j | .fails j => j = i
  | _ => False

instance (i : ι) : DecidablePred (Call.OfStore i)
  | .create j | .write j _ | .rename j | .renameFails j | .removeFile j | .fails j => decEq j i
  | .open _ | .read _ _ | .mutate _ | .dies _ => .isFalse id

/-- The store left things as they were: the catalog under the target, and
no temporary file that it made. -/
def ChangesNothing (party : ι → Party) (i : ι) (init : String → Option (List UInt8))
    (calls : List (Call ι)) (disk : Disk ι) : Prop :=
  disk.files.contents (party i).target = init (party i).target ∧
    (.create i ∈ calls → disk.files.entry (temporary (party i).pid) = none)

/-- The removal of the temporary file, behind a failed rename, failed. -/
def RemovalFails (i : ι) (calls : List (Call ι)) : Prop :=
  .renameFails i ∈ calls ∧ .fails i ∈ calls

section

variable (party : ι → Party) (i : ι) (init : String → Option (List UInt8))

/-- Every name but the temporary one is as it was. -/
structure Beside (disk : Disk ι) : Prop where
  entry : ∀ name, name ≠ temporary (party i).pid →
    disk.files.entry name = (init name).map (fun _ => .original name)
  data : ∀ name, name ≠ temporary (party i).pid →
    disk.files.data (.original name) = (init name).getD []

/-- The directory has not been touched. -/
def AsFound (disk : Disk ι) : Prop :=
  disk.files = (Disk.start init (fun _ => .idle)).files

/-- What the directory holds where the store stands. -/
def Standing (calls : List (Call ι)) (disk : Disk ι) : Prop :=
  match disk.phase i with
  | .holding _ => .create i ∉ calls ∧ .renameFails i ∉ calls ∧ AsFound init disk
  | .writing file _ _ => .create i ∈ calls ∧ .renameFails i ∉ calls ∧
      disk.files.entry (temporary (party i).pid) = some file ∧
      (∀ name, name ≠ temporary (party i).pid → file ≠ .original name) ∧ Beside party i init disk
  | .cleaning => .create i ∈ calls ∧ .renameFails i ∈ calls ∧ Beside party i init disk
  | .stored => True
  | .failed =>
      (.create i ∉ calls ∧ AsFound init disk) ∨
      (.create i ∈ calls ∧ .renameFails i ∉ calls ∧
        disk.files.entry (temporary (party i).pid) ≠ none) ∨
      (.create i ∈ calls ∧ .renameFails i ∈ calls ∧
        disk.files.entry (temporary (party i).pid) = none ∧ Beside party i init disk) ∨
      RemovalFails i calls
  | _ => False

variable {party i init}

omit [DecidableEq ι] in
theorem Beside.contents {disk : Disk ι} (h : Beside party i init disk) {name : String}
    (hname : name ≠ temporary (party i).pid) : disk.files.contents name = init name := by
  rw [Directory.contents, h.entry name hname]
  cases hinit : init name with
  | none => rfl
  | some bytes =>
    rw [Option.map_some, Option.map_some, h.data name hname, hinit]
    rfl

/-- The directory is created or truncated under the temporary name. -/
theorem Standing.created {calls : List (Call ι)} {disk : Disk ι} {catalog : Catalog}
    (hphase : disk.phase i = .holding catalog) (h : Standing party i init calls disk) :
    Standing party i init (calls ++ [.create i]) (disk.created party i catalog) := by
  simp only [Standing, hphase] at h
  obtain ⟨-, hnot, hfound⟩ := h
  have hfiles : disk.files = (Disk.start init (fun _ => .idle)).files := hfound
  have hopened : (disk.files.create (temporary (party i).pid) (.made i)).1
      = ((init (temporary (party i).pid)).map
        (fun _ => File.original (temporary (party i).pid))).getD (.made i) := by
    rw [hfiles]
    rfl
  have hother (name : String) (hname : name ≠ temporary (party i).pid) :
      (disk.files.create (temporary (party i).pid) (.made i)).1 ≠ .original name := by
    rw [hopened]
    cases init (temporary (party i).pid) with
    | none => simp
    | some bytes =>
      intro heq
      cases heq
      exact hname rfl
  simp only [Standing, Disk.created, Function.update_self]
  refine ⟨by simp, by simpa using hnot, disk.files.entry_create_self _ _, hother, ?_, ?_⟩
  · intro name hname
    rw [disk.files.entry_create_ne _ hname, hfiles]
    rfl
  · intro name hname
    rw [disk.files.data_create_ne (hother name hname).symm, hfiles]
    rfl

/-- **The step lemma of a store.** -/
theorem Standing.step {host : Host} {calls : List (Call ι)} {call : Call ι} {disk disk' : Disk ι}
    (h : Standing party i init calls disk) (hcall : call.OfStore i)
    (hstep : Disk.step host party call disk = some disk') :
    Standing party i init (calls ++ [call]) disk' := by
  cases outcome_of_step hstep with
  | created hphase =>
    obtain rfl := hcall
    exact h.created hphase
  | wrote hphase =>
    obtain rfl := hcall
    rename_i n file catalog written
    simp only [Standing, hphase] at h
    obtain ⟨hcreated, hnot, hentry, hother, hbeside⟩ := h
    simp only [Standing, Disk.wrote, Disk.moved, Function.update_self]
    refine ⟨by simp [hcreated], by simpa using hnot, hentry, hother, hbeside.entry, ?_⟩
    intro name hname
    rw [Directory.data_write_ne _ (hother name hname).symm]
    exact hbeside.data name hname
  | renamed hphase hrename =>
    obtain rfl := hcall
    simp only [Standing, Disk.moved, Function.update_self]
  | renameFailed hphase =>
    obtain rfl := hcall
    simp only [Standing, hphase] at h
    obtain ⟨hcreated, -, -, -, hbeside⟩ := h
    simp only [Standing, Disk.moved, Function.update_self]
    exact ⟨by simp [hcreated], by simp, hbeside.entry, hbeside.data⟩
  | removed hphase =>
    obtain rfl := hcall
    simp only [Standing, hphase] at h
    obtain ⟨hcreated, hfailed, hbeside⟩ := h
    simp only [Standing, Disk.moved, Function.update_self]
    refine .inr (.inr (.inl ⟨by simp [hcreated], by simp [hfailed],
      disk.files.entry_unlink_self _, ?_, hbeside.data⟩))
    intro name hname
    rw [disk.files.entry_unlink_ne hname]
    exact hbeside.entry name hname
  | failed =>
    obtain rfl := hcall
    rename_i i
    simp only [Disk.step] at hstep
    simp only [Standing] at h
    simp only [Standing, Disk.moved, Function.update_self]
    cases hphase : disk.phase i with
    | holding catalog =>
      rw [hphase] at h
      obtain ⟨hnot, -, hfound⟩ := h
      exact .inl ⟨by simpa using hnot, hfound⟩
    | writing file catalog written =>
      rw [hphase] at h
      obtain ⟨hcreated, hnot, hentry, -, -⟩ := h
      refine .inr (.inl ⟨by simp [hcreated], by simpa using hnot, ?_⟩)
      show disk.files.entry (temporary (party i).pid) ≠ none
      rw [hentry]
      exact Option.some_ne_none file
    | cleaning =>
      rw [hphase] at h
      exact .inr (.inr (.inr ⟨by simp [h.2.1], by simp⟩))
    | stored =>
      rw [hphase] at hstep
      cases hstep
    | failed =>
      rw [hphase] at hstep
      cases hstep
    | _ =>
      rw [hphase] at h
      exact h.elim
  | _ => cases hcall

/-- **The run lemma of a store.** -/
theorem standing_run {host : Host} {phase : ι → Phase ι} {catalog : Catalog} {calls : List (Call ι)}
    {disk : Disk ι} (hphase : phase i = .holding catalog) (halone : ∀ call ∈ calls, call.OfStore i)
    (hrun : Run.after (Disk.step host party) calls (Disk.start init phase) = some disk) :
    Standing party i init calls disk := by
  induction calls using List.reverseRecOn generalizing disk with
  | nil =>
    cases hrun
    simp only [Standing, Disk.start, hphase]
    exact ⟨by simp, by simp, rfl⟩
  | append_singleton calls call ih =>
    obtain ⟨before, hbefore, hlast⟩ := Run.after_append.mp hrun
    obtain ⟨after, hstep, hafter⟩ := Run.after_cons_iff.mp hlast
    cases hafter
    exact (ih (fun c hc => halone c (List.mem_append_left _ hc)) hbefore).step
      (halone call (by simp)) hstep

end

/-- **When a failed store changes nothing.** One party stores a catalog,
whatever its directory holds, and the store fails at any of its calls; the
removal behind a failed rename does not. Then the target is as it was and
the temporary file it made is gone exactly where the failure came before
that file was made, or was the rename's, on a target that is not that file
itself. -/
theorem store_failure_iff (host : Host) (party : ι → Party) (i : ι)
    (init : String → Option (List UInt8)) (phase : ι → Phase ι) (catalog : Catalog)
    (calls : List (Call ι)) (disk : Disk ι) (hphase : phase i = .holding catalog)
    (halone : ∀ call ∈ calls, call.OfStore i)
    (hrun : Run.after (Disk.step host party) calls (Disk.start init phase) = some disk)
    (hfailed : disk.phase i = .failed) (hremoved : ¬ RemovalFails i calls) :
    ChangesNothing party i init calls disk ↔
      .create i ∉ calls ∨ .renameFails i ∈ calls ∧
        ((party i).target ≠ temporary (party i).pid ∨ init (party i).target = none) := by
  have hstanding := standing_run hphase halone hrun
  simp only [Standing, hfailed] at hstanding
  rcases hstanding with ⟨hnot, hfound⟩ | ⟨hcreated, hnot, hleft⟩ |
    ⟨hcreated, hrename, hgone, hbeside⟩ | hremoval
  · refine iff_of_true ⟨?_, fun hcreated => absurd hcreated hnot⟩ (.inl hnot)
    rw [show disk.files = _ from hfound]
    exact Disk.contents_start init _ _
  · refine iff_of_false (fun h => hleft (h.2 hcreated)) ?_
    rintro (h | ⟨h, -⟩)
    · exact h hcreated
    · exact hnot h
  · by_cases htarget : (party i).target = temporary (party i).pid
    · -- the target was the temporary file, and is gone
      have hcontents : disk.files.contents (party i).target = none := by
        rw [htarget, Directory.contents, hgone]
        rfl
      constructor
      · rintro ⟨hsame, -⟩
        exact .inr ⟨hrename, .inr (hsame.symm.trans hcontents)⟩
      · rintro (h | ⟨-, h | h⟩)
        · exact absurd hcreated h
        · exact absurd htarget h
        · exact ⟨hcontents.trans h.symm, fun _ => hgone⟩
    · exact iff_of_true ⟨hbeside.contents htarget, fun _ => hgone⟩ (.inr ⟨hrename, .inl htarget⟩)
  · exact absurd hremoval hremoved

/-! ## One store in an empty directory -/

/-- A process that stores an empty catalog. -/
def storing : Unit → Party := fun _ => ⟨7, "catalog.json", .remove "work"⟩

/-- The directory behind a store's calls. -/
def behind (calls : List (Call Unit)) : Option (Disk Unit) :=
  Run.after (Disk.step (Host.reading []) storing) calls
    (Disk.start (fun _ => none) (fun _ => .holding Catalog.default))

/-- Whether the store failed. -/
def Disk.hasFailed (disk : Disk Unit) : Bool :=
  match disk.phase () with
  | .failed => true
  | _ => false

theorem failed_of_behind {calls : List (Call Unit)} {disk : Disk Unit}
    (hrun : behind calls = some disk) (h : (behind calls).map Disk.hasFailed = some true) :
    disk.phase () = .failed := by
  rw [hrun, Option.map_some, Option.some_inj, Disk.hasFailed] at h
  cases hphase : disk.phase () with
  | failed => rfl
  | _ =>
    rw [hphase] at h
    cases h

/-- The document is written, and the rename fails. -/
def renameFailing : List (Call Unit) :=
  [.create (), .write () 1000, .renameFails (), .removeFile ()]

/-- Three bytes are written, and the next write fails. -/
def writeFailing : List (Call Unit) := [.create (), .write () 3, .fails ()]

/-- Behind the failed rename nothing is left. -/
theorem store_failure_iff_rename : ∃ disk, behind renameFailing = some disk ∧
    ChangesNothing storing () (fun _ => none) renameFailing disk := by
  have hsome : (behind renameFailing).isSome := by decide +kernel
  obtain ⟨disk, hrun⟩ := Option.isSome_iff_exists.mp hsome
  have hfailed := failed_of_behind hrun (by decide +kernel)
  exact ⟨disk, hrun, (store_failure_iff (Host.reading []) storing () (fun _ => none)
    (fun _ => .holding Catalog.default) Catalog.default renameFailing disk rfl (by decide) hrun
    hfailed (by simp [RemovalFails, renameFailing])).mpr
    (.inr ⟨by simp [renameFailing], .inr rfl⟩)⟩

/-- Behind the failed write the temporary file is. -/
theorem failed_write_leaves_file :
    ¬ ∀ host (party : Unit → Party) i init phase catalog calls disk,
      phase i = .holding catalog → (∀ call ∈ calls, Call.OfStore i call) →
      Run.after (Disk.step host party) calls (Disk.start init phase) = some disk →
      disk.phase i = .failed → ¬ RemovalFails i calls →
      ChangesNothing party i init calls disk := by
  intro h
  have hsome : (behind writeFailing).isSome := by decide +kernel
  obtain ⟨disk, hrun⟩ := Option.isSome_iff_exists.mp hsome
  have hfailed := failed_of_behind hrun (by decide +kernel)
  have hleft : (behind writeFailing).map (fun disk => (disk.files.entry (temporary 7)).isSome)
      = some true := by
    decide +kernel
  rw [hrun, Option.map_some, Option.some_inj] at hleft
  obtain ⟨-, hgone⟩ := h (Host.reading []) storing () (fun _ => none)
    (fun _ => .holding Catalog.default) Catalog.default writeFailing disk rfl (by decide) hrun
    hfailed (by simp [RemovalFails, writeFailing])
  have hgone : disk.files.entry (temporary 7) = none := hgone (by simp [writeFailing])
  rw [hgone] at hleft
  cases hleft

end NostdbServer
