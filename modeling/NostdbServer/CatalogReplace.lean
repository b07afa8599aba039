import NostdbServer.CatalogStore

/-!
# CatalogReplace — what a store leaves under a name

`store` names its temporary file after its process. Where no two parties
of one process store at the same time, the file a party writes is its
alone until the rename, so every other name leads to a file nobody writes
again, whole as it was put there (`whole_documents`). Two threads of one
process share the temporary file, and a name can be given a part of
another thread's document (`threads_mix_documents`).
-/

namespace NostdbServer

open Utf8

variable {ι : Type}

namespace Phase

/-- Between the creation of the temporary file and the end of the call. -/
def Storing : Phase ι → Prop
  | .writing _ _ _ | .cleaning => True
  | _ => False

end Phase

section

variable (host : Host) (party : ι → Party) (init : String → Option (List UInt8))

/-- A name that is no party's temporary file. -/
def Lasting (name : String) : Prop := ∀ i, name ≠ temporary (party i).pid

/-- What may stand under a name: what stood there at the start, or the
whole document of a store call made for it. -/
def Seen (disk : Disk ι) (name : String) (bytes : Option (List UInt8)) : Prop :=
  bytes = init name ∨ ∃ i catalog, (party i).target = name ∧ disk.storing i = some catalog ∧
    bytes = some (storedBytes host catalog)

/-- A file that nobody writes again: it has no temporary name, and it is
none that is still to be made. -/
structure Settled (disk : Disk ι) (name : String) (file : File ι) : Prop where
  unnamed : ∀ i, disk.files.entry (temporary (party i).pid) ≠ some file
  made : ∀ i, disk.storing i = none → file ≠ .made i
  seen : Seen host party init disk name (some (disk.files.data file))

/-- What holds of a party, where it stands. -/
def Stands (disk : Disk ι) (i : ι) : Phase ι → Prop
  | .idle | .holding _ => disk.storing i = none
  | .reading file got => disk.storing i = none ∧
      Settled host party init disk (party i).target file ∧
      got = (disk.files.data file).take got.length
  | .loaded bytes => disk.storing i = none ∧ Seen host party init disk (party i).target bytes
  | .writing file catalog written => disk.storing i = some catalog ∧
      disk.files.entry (temporary (party i).pid) = some file ∧
      written ≤ (storedBytes host catalog).length ∧
      disk.files.data file = (storedBytes host catalog).take written
  | _ => True

/-- The invariant: each temporary name is one process's, each other name
leads to a settled file, and what is not there never was. -/
structure Sound (disk : Disk ι) : Prop where
  stands : ∀ i, Stands host party init disk i (disk.phase i)
  apart : ∀ i j, i ≠ j → (party i).pid = (party j).pid → (disk.phase i).Storing →
    ¬ (disk.phase j).Storing
  temporaries : ∀ i j file, disk.files.entry (temporary (party i).pid) = some file →
    disk.files.entry (temporary (party j).pid) = some file → (party i).pid = (party j).pid
  unmade : ∀ i name, disk.storing i = none → disk.files.entry name ≠ some (.made i)
  settled : ∀ name file, Lasting party name → disk.files.entry name = some file →
    Settled host party init disk name file
  absent : ∀ name, Lasting party name → disk.files.entry name = none → init name = none

variable {host party init}

/-- Where a party stands is read off the files and the stores begun. -/
theorem Stands.congr {disk disk' : Disk ι} (hfiles : disk'.files = disk.files)
    (hstoring : disk'.storing = disk.storing) {i : ι} {phase : Phase ι}
    (h : Stands host party init disk i phase) : Stands host party init disk' i phase := by
  obtain ⟨files, phases, storing⟩ := disk
  obtain ⟨files', phases', storing'⟩ := disk'
  cases hfiles
  cases hstoring
  cases phase with
  | reading file got => exact ⟨h.1, ⟨h.2.1.unnamed, h.2.1.made, h.2.1.seen⟩, h.2.2⟩
  | _ => exact h

/-! ## What a call leaves alone -/

/-- A call of party `i` leaves the other parties, the settled files and
the files the others write as they are. -/
structure Leaves (party : ι → Party) (i : ι) (disk disk' : Disk ι) : Prop where
  phase : ∀ j, j ≠ i → disk'.phase j = disk.phase j
  others : ∀ j, j ≠ i → disk'.storing j = disk.storing j
  own : ∀ catalog, disk.storing i = some catalog → disk'.storing i = some catalog
  settled : ∀ file, (∀ j, disk.files.entry (temporary (party j).pid) ≠ some file) →
    (disk.storing i = none → file ≠ .made i) →
    disk'.files.data file = disk.files.data file ∧
      ∀ j, disk'.files.entry (temporary (party j).pid) ≠ some file
  writers : ∀ j file catalog written, j ≠ i → disk.phase j = .writing file catalog written →
    disk'.files.entry (temporary (party j).pid) = disk.files.entry (temporary (party j).pid) ∧
      disk'.files.data file = disk.files.data file

namespace Leaves

variable {i : ι} {disk disk' : Disk ι}

theorem storing (h : Leaves party i disk disk') {j : ι} {catalog : Catalog}
    (hj : disk.storing j = some catalog) : disk'.storing j = some catalog := by
  by_cases hji : j = i
  · subst hji
    exact h.own catalog hj
  · rw [h.others j hji, hj]

theorem storing_none (h : Leaves party i disk disk') {j : ι}
    (hj : disk'.storing j = none) : disk.storing j = none := by
  cases hold : disk.storing j with
  | none => rfl
  | some catalog =>
    rw [h.storing hold] at hj
    cases hj

theorem seen (h : Leaves party i disk disk') {name : String}
    {bytes : Option (List UInt8)} (hseen : Seen host party init disk name bytes) :
    Seen host party init disk' name bytes := by
  rcases hseen with hinit | ⟨j, catalog, htarget, hj, hbytes⟩
  · exact .inl hinit
  · exact .inr ⟨j, catalog, htarget, h.storing hj, hbytes⟩

theorem keeps_settled (h : Leaves party i disk disk') {name : String} {file : File ι}
    (hsettled : Settled host party init disk name file) :
    disk'.files.data file = disk.files.data file ∧ Settled host party init disk' name file := by
  obtain ⟨hdata, hunnamed⟩ := h.settled file hsettled.unnamed (hsettled.made i)
  refine ⟨hdata, hunnamed, fun j hj => hsettled.made j (h.storing_none hj), ?_⟩
  rw [hdata]
  exact h.seen hsettled.seen

/-- Another party stands as it stood. -/
theorem stands (h : Leaves party i disk disk') {j : ι} (hj : j ≠ i)
    (hstands : Stands host party init disk j (disk.phase j)) :
    Stands host party init disk' j (disk'.phase j) := by
  have hstoring := h.others j hj
  rw [h.phase j hj]
  cases hphase : disk.phase j with
  | idle =>
    rw [hphase] at hstands
    exact hstoring.trans hstands
  | holding catalog =>
    rw [hphase] at hstands
    exact hstoring.trans hstands
  | reading file got =>
    rw [hphase] at hstands
    obtain ⟨hnone, hsettled, hgot⟩ := hstands
    obtain ⟨hdata, hsettled'⟩ := h.keeps_settled hsettled
    exact ⟨hstoring.trans hnone, hsettled', by rw [hdata]; exact hgot⟩
  | loaded bytes =>
    rw [hphase] at hstands
    exact ⟨hstoring.trans hstands.1, h.seen hstands.2⟩
  | writing file catalog written =>
    rw [hphase] at hstands
    obtain ⟨hsome, hentry, hle, hdata⟩ := hstands
    obtain ⟨hentry', hdata'⟩ := h.writers j file catalog written hj hphase
    exact ⟨hstoring.trans hsome, hentry'.trans hentry, hle, hdata'.trans hdata⟩
  | _ => trivial

end Leaves

/-- **The frame rule**: where a call of one party leaves alone what is not
its own, the invariant is left to show of that party, of the names it
gave, and of the file its temporary name then leads to. -/
theorem Sound.of_leaves {i : ι} {disk disk' : Disk ι} (h : Sound host party init disk)
    (hleaves : Leaves party i disk disk')
    (hstands : Stands host party init disk' i (disk'.phase i))
    (hapart : (disk'.phase i).Storing → ∀ j, j ≠ i → (party j).pid = (party i).pid →
      ¬ (disk.phase j).Storing)
    (htemporaries : ∀ j k file, disk'.files.entry (temporary (party j).pid) = some file →
      disk'.files.entry (temporary (party k).pid) = some file → (party j).pid = (party k).pid)
    (hunmade : ∀ j name, disk'.storing j = none → disk'.files.entry name ≠ some (.made j))
    (hnames : ∀ name, Lasting party name → disk'.files.entry name = disk.files.entry name ∨
      ∃ file, disk'.files.entry name = some file ∧ Settled host party init disk' name file) :
    Sound host party init disk' := by
  refine ⟨?_, ?_, htemporaries, hunmade, ?_, ?_⟩
  · intro j
    by_cases hj : j = i
    · exact hj ▸ hstands
    · exact hleaves.stands hj (h.stands j)
  · intro j k hjk hpid hj hk
    by_cases hji : j = i
    · subst hji
      rw [hleaves.phase k (Ne.symm hjk)] at hk
      exact hapart hj k (Ne.symm hjk) hpid.symm hk
    · rw [hleaves.phase j hji] at hj
      by_cases hki : k = i
      · subst hki
        exact hapart hk j hji hpid hj
      · rw [hleaves.phase k hki] at hk
        exact h.apart j k hjk hpid hj hk
  · intro name file hlasting hentry
    rcases hnames name hlasting with hsame | ⟨file', hentry', hsettled⟩
    · exact (hleaves.keeps_settled (h.settled name file hlasting (hsame ▸ hentry))).2
    · rw [hentry'] at hentry
      cases hentry
      exact hsettled
  · intro name hlasting hentry
    rcases hnames name hlasting with hsame | ⟨file', hentry', -⟩
    · exact h.absent name hlasting (hsame ▸ hentry)
    · rw [hentry'] at hentry
      cases hentry

variable [DecidableEq ι]

/-! ## Each call -/

theorem leaves_moved (disk : Disk ι) (i : ι) (phase : Phase ι) :
    Leaves party i disk (disk.moved i phase) where
  phase _ hj := Function.update_of_ne hj _ _
  others _ _ := rfl
  own _ h := h
  settled _ hunnamed _ := ⟨rfl, hunnamed⟩
  writers _ _ _ _ _ _ := ⟨rfl, rfl⟩

/-- A call that changes no file. -/
theorem Sound.moved {disk : Disk ι} (h : Sound host party init disk) {i : ι} {phase : Phase ι}
    (hstands : Stands host party init disk i phase)
    (hstoring : phase.Storing → (disk.phase i).Storing) :
    Sound host party init (disk.moved i phase) := by
  have hphase : (disk.moved i phase).phase i = phase := Function.update_self _ _ _
  refine h.of_leaves (leaves_moved disk i phase) ?_ ?_ h.temporaries h.unmade
    (fun _ _ => .inl rfl)
  · rw [hphase]
    exact Stands.congr (show (disk.moved i phase).files = disk.files from rfl) rfl hstands
  · intro hnow j hj hpid hother
    rw [hphase] at hnow
    exact h.apart j i hj hpid hother (hstoring hnow)

/-- The file `create` opens is the party's own: no other party's temporary
name leads to it. -/
theorem Sound.opened_own {disk : Disk ι} (h : Sound host party init disk) {i j : ι}
    (hnone : disk.storing i = none) (hpid : (party j).pid ≠ (party i).pid) :
    disk.files.entry (temporary (party j).pid)
      ≠ some (disk.files.create (temporary (party i).pid) (.made i)).1 := by
  intro hentry
  rcases disk.files.create_file (temporary (party i).pid) (.made i) with hown | ⟨-, hfresh⟩
  · exact hpid (h.temporaries _ _ _ hentry hown)
  · rw [hfresh] at hentry
    exact h.unmade i _ hnone hentry

theorem temporary_ne {pid pid' : UInt32} (h : pid ≠ pid') : temporary pid ≠ temporary pid' :=
  fun heq => h (temporary_injective heq)

theorem Sound.leaves_created {disk : Disk ι} (h : Sound host party init disk) {i : ι}
    (catalog : Catalog) (hnone : disk.storing i = none)
    (halone : ∀ j, j ≠ i → (party j).pid = (party i).pid → ¬ (disk.phase j).Storing) :
    Leaves party i disk (disk.created party i catalog) where
  phase _ hj := Function.update_of_ne hj _ _
  others _ hj := Function.update_of_ne hj _ _
  own _ hsome := by
    rw [hnone] at hsome
    cases hsome
  settled := by
    intro file hunnamed hmade
    have hfile : file ≠ (disk.files.create (temporary (party i).pid) (.made i)).1 := by
      rintro rfl
      rcases disk.files.create_file (temporary (party i).pid) (.made i) with hentry | ⟨-, hfresh⟩
      · exact hunnamed _ hentry
      · exact hmade hnone hfresh
    refine ⟨disk.files.data_create_ne hfile, fun j hentry => ?_⟩
    simp only [Disk.created] at hentry
    by_cases hpid : (party j).pid = (party i).pid
    · rw [hpid, disk.files.entry_create_self] at hentry
      exact hfile (Option.some.inj hentry).symm
    · rw [disk.files.entry_create_ne _ (temporary_ne hpid)] at hentry
      exact hunnamed j hentry
  writers := by
    intro j file catalog' written hj hwriting
    have hpid : (party j).pid ≠ (party i).pid := by
      intro hpid
      refine halone j hj hpid ?_
      rw [hwriting]
      trivial
    have hstands := h.stands j
    rw [hwriting] at hstands
    refine ⟨disk.files.entry_create_ne _ (temporary_ne hpid), disk.files.data_create_ne ?_⟩
    rintro rfl
    exact h.opened_own hnone hpid hstands.2.1

/-- `create`: the temporary name leads to an emptied file, the one it had
or the party's own. -/
theorem Sound.created {disk : Disk ι} (h : Sound host party init disk) {i : ι}
    {catalog : Catalog} (hnone : disk.storing i = none)
    (halone : ∀ j, j ≠ i → (party j).pid = (party i).pid → ¬ (disk.phase j).Storing) :
    Sound host party init (disk.created party i catalog) := by
  have hself : (disk.created party i catalog).files.entry (temporary (party i).pid)
      = some (disk.files.create (temporary (party i).pid) (.made i)).1 :=
    disk.files.entry_create_self _ _
  have hsame {name : String} (hname : name ≠ temporary (party i).pid) :
      (disk.created party i catalog).files.entry name = disk.files.entry name :=
    disk.files.entry_create_ne _ hname
  refine h.of_leaves (h.leaves_created catalog hnone halone) ?_ (fun _ => halone) ?_ ?_
    (fun name hlasting => .inl (hsame (hlasting i)))
  · simp only [Disk.created, Function.update_self]
    refine ⟨Function.update_self _ _ _, disk.files.entry_create_self _ _, Nat.zero_le _, ?_⟩
    rw [List.take_zero]
    exact disk.files.data_create_self _ _
  · intro j k file hentry hentry'
    by_cases hj : (party j).pid = (party i).pid
    · by_cases hk : (party k).pid = (party i).pid
      · rw [hj, hk]
      · rw [hj, hself] at hentry
        rw [hsame (temporary_ne hk)] at hentry'
        cases hentry
        exact absurd hentry' (h.opened_own hnone hk)
    · by_cases hk : (party k).pid = (party i).pid
      · rw [hk, hself] at hentry'
        rw [hsame (temporary_ne hj)] at hentry
        cases hentry'
        exact absurd hentry (h.opened_own hnone hj)
      · rw [hsame (temporary_ne hj)] at hentry
        rw [hsame (temporary_ne hk)] at hentry'
        exact h.temporaries j k file hentry hentry'
  · intro j name hj hentry
    have hji : j ≠ i := by
      rintro rfl
      simp [Disk.created] at hj
    simp only [Disk.created, Function.update_of_ne hji] at hj
    by_cases hname : name = temporary (party i).pid
    · subst hname
      rw [hself] at hentry
      rcases disk.files.create_file (temporary (party i).pid) (.made i) with hown | ⟨-, hfresh⟩
      · exact h.unmade j _ hj (hown.trans hentry)
      · rw [hfresh] at hentry
        cases hentry
        exact hji rfl
    · exact h.unmade j name hj (hsame hname ▸ hentry)

theorem Sound.leaves_wrote {disk : Disk ι} (h : Sound host party init disk) {i : ι}
    {file : File ι} {catalog : Catalog} {written : Nat}
    (hphase : disk.phase i = .writing file catalog written) (n : Nat) :
    Leaves party i disk (disk.wrote host i file catalog written n) := by
  have hstands := h.stands i
  rw [hphase] at hstands
  obtain ⟨-, hentry, -, -⟩ := hstands
  refine ⟨fun _ hj => Function.update_of_ne hj _ _, fun _ _ => rfl, fun _ hown => hown, ?_, ?_⟩
  · intro file' hunnamed _
    refine ⟨disk.files.data_write_ne ?_ _ _, hunnamed⟩
    rintro rfl
    exact hunnamed _ hentry
  · intro j file' catalog' written' hj hwriting
    refine ⟨rfl, disk.files.data_write_ne ?_ _ _⟩
    rintro rfl
    have hstands := h.stands j
    rw [hwriting] at hstands
    -- one file under two temporary names would be one process writing twice
    refine h.apart j i hj (h.temporaries _ _ _ hstands.2.1 hentry) ?_ ?_
    · rw [hwriting]
      trivial
    · rw [hphase]
      trivial

/-- `write`: the next piece of the text, on the party's own file. -/
theorem Sound.wrote {disk : Disk ι} (h : Sound host party init disk) {i : ι} {file : File ι}
    {catalog : Catalog} {written : Nat} (hphase : disk.phase i = .writing file catalog written)
    (n : Nat) : Sound host party init (disk.wrote host i file catalog written n) := by
  have hstands := h.stands i
  rw [hphase] at hstands
  obtain ⟨hsome, hentry, hle, hdata⟩ := hstands
  refine h.of_leaves (h.leaves_wrote hphase n) ?_ ?_ h.temporaries h.unmade (fun _ _ => .inl rfl)
  · have hlength : (((storedBytes host catalog).drop written).take n).length
        = min n ((storedBytes host catalog).length - written) := by simp
    simp only [Disk.wrote, Disk.moved, Function.update_self]
    refine ⟨hsome, hentry, by omega, ?_⟩
    rw [disk.files.data_write_self, hdata, Directory.splice_take hle]
  · intro _ j hj hpid hother
    refine h.apart j i hj hpid hother ?_
    rw [hphase]
    trivial

/-- What a rename finds and leaves: the party's file, complete by now,
goes over from the temporary name to the target. -/
theorem Sound.rename_inv {disk : Disk ι} (h : Sound host party init disk) {i : ι} {file : File ι}
    {catalog : Catalog} {files : Directory String (File ι) UInt8}
    (htarget : Lasting party (party i).target)
    (hphase : disk.phase i = .writing file catalog (storedBytes host catalog).length)
    (hrename : disk.files.rename (temporary (party i).pid) (party i).target = some files) :
    disk.storing i = some catalog ∧ disk.files.entry (temporary (party i).pid) = some file ∧
      disk.files.data file = storedBytes host catalog ∧ files.data = disk.files.data ∧
      files.entry (party i).target = some file ∧
      files.entry (temporary (party i).pid) = none ∧
      ∀ name, name ≠ temporary (party i).pid → name ≠ (party i).target →
        files.entry name = disk.files.entry name := by
  have hstands := h.stands i
  rw [hphase] at hstands
  obtain ⟨hsome, hentry, -, hdata⟩ := hstands
  rw [List.take_length] at hdata
  have hnot : disk.files.entry (party i).target ≠ some file := fun heq =>
    (h.settled _ _ htarget heq).unnamed _ hentry
  exact ⟨hsome, hentry, hdata, Directory.rename_inv hentry hnot hrename⟩

/-- `rename`: the target leads to the party's file, and the temporary name
to none. -/
theorem Sound.renamed {disk : Disk ι} (h : Sound host party init disk) {i : ι} {file : File ι}
    {catalog : Catalog} {files : Directory String (File ι) UInt8}
    (htarget : Lasting party (party i).target)
    (hphase : disk.phase i = .writing file catalog (storedBytes host catalog).length)
    (hrename : disk.files.rename (temporary (party i).pid) (party i).target = some files) :
    Sound host party init { disk.moved i .stored with files } := by
  obtain ⟨hsome, hentry, hdata, hsame, hnew, hold, hothers⟩ :=
    h.rename_inv htarget hphase hrename
  have hgone {j : ι} {file' : File ι}
      (hentry' : files.entry (temporary (party j).pid) = some file') :
      (party j).pid ≠ (party i).pid ∧
        disk.files.entry (temporary (party j).pid) = some file' := by
    have hpid : (party j).pid ≠ (party i).pid := by
      intro hpid
      rw [hpid, hold] at hentry'
      cases hentry'
    have hne : temporary (party j).pid ≠ temporary (party i).pid := fun heq =>
      hpid (temporary_injective heq)
    exact ⟨hpid, hothers _ hne (Ne.symm (htarget j)) ▸ hentry'⟩
  have hleaves : Leaves party i disk { disk.moved i .stored with files } := {
    phase := fun _ hj => Function.update_of_ne hj _ _
    others := fun _ _ => rfl
    own := fun _ hown => hown
    settled := fun file' hunnamed _ =>
      ⟨congrFun hsame file', fun j hentry' => hunnamed j (hgone hentry').2⟩
    writers := by
      intro j file' catalog' written hj hwriting
      refine ⟨hothers _ (fun heq => ?_) (Ne.symm (htarget _)), congrFun hsame file'⟩
      refine h.apart j i hj (temporary_injective heq) ?_ ?_
      · rw [hwriting]
        trivial
      · rw [hphase]
        trivial }
  have hstored : (disk.moved i .stored).phase i = .stored := Function.update_self _ _ _
  refine h.of_leaves hleaves ?_ ?_ ?_ ?_ ?_
  · simp only [hstored]
    trivial
  · intro hnow
    simp only [hstored] at hnow
    cases hnow
  · intro j k file' hentry₁ hentry₂
    exact h.temporaries j k file' (hgone hentry₁).2 (hgone hentry₂).2
  · intro j name hj hentry'
    by_cases hname : name = (party i).target
    · subst hname
      -- the file the target leads to now had a temporary name before
      have hfile : some (File.made j) = some file := hentry'.symm.trans hnew
      exact h.unmade j _ hj (hfile ▸ hentry)
    · by_cases hname' : name = temporary (party i).pid
      · subst hname'
        rw [hold] at hentry'
        cases hentry'
      · exact h.unmade j name hj (hothers name hname' hname ▸ hentry')
  · intro name hlasting
    by_cases hname : name = (party i).target
    · subst hname
      refine .inr ⟨file, hnew, fun j hentry' => ?_, fun j hj heq => ?_, ?_⟩
      · exact (hgone hentry').1 (h.temporaries _ _ _ (hgone hentry').2 hentry)
      · exact h.unmade j _ hj (heq ▸ hentry)
      · exact .inr ⟨i, catalog, rfl, hsome, congrArg some ((congrFun hsame file).trans hdata)⟩
    · exact .inl (hothers name (hlasting _) hname)

/-- `remove_file` behind a rename that failed. -/
theorem Sound.removed {disk : Disk ι} (h : Sound host party init disk) {i : ι}
    (hphase : disk.phase i = .cleaning) :
    Sound host party init
      { disk.moved i .failed with files := disk.files.unlink (temporary (party i).pid) } := by
  have hgone {name : String} {file : File ι}
      (hentry : (disk.files.unlink (temporary (party i).pid)).entry name = some file) :
      disk.files.entry name = some file := by
    by_cases hname : name = temporary (party i).pid
    · subst hname
      rw [disk.files.entry_unlink_self] at hentry
      cases hentry
    · rwa [disk.files.entry_unlink_ne hname] at hentry
  have hleaves : Leaves party i disk
      { disk.moved i .failed with files := disk.files.unlink (temporary (party i).pid) } := {
    phase := fun _ hj => Function.update_of_ne hj _ _
    others := fun _ _ => rfl
    own := fun _ hown => hown
    settled := fun file hunnamed _ => ⟨rfl, fun j hentry => hunnamed j (hgone hentry)⟩
    writers := by
      intro j file catalog written hj hwriting
      refine ⟨disk.files.entry_unlink_ne (fun heq => ?_), rfl⟩
      refine h.apart j i hj (temporary_injective heq) ?_ ?_
      · rw [hwriting]
        trivial
      · rw [hphase]
        trivial }
  have hfailed : (disk.moved i .failed).phase i = .failed := Function.update_self _ _ _
  refine h.of_leaves hleaves ?_ ?_ ?_ ?_ ?_
  · simp only [hfailed]
    trivial
  · intro hnow
    simp only [hfailed] at hnow
    cases hnow
  · exact fun j k file hentry hentry' =>
      h.temporaries j k file (hgone hentry) (hgone hentry')
  · exact fun j name hj hentry => h.unmade j name hj (hgone hentry)
  · exact fun name hlasting => .inl (disk.files.entry_unlink_ne (hlasting _))

omit [DecidableEq ι] in
/-- A process dies: its files stay, as far as they were written. -/
theorem Sound.died {disk disk' : Disk ι} (h : Sound host party init disk)
    (hfiles : disk'.files = disk.files) (hstoring : disk'.storing = disk.storing)
    (hphase : ∀ i, disk'.phase i = .dead ∨ disk'.phase i = disk.phase i) :
    Sound host party init disk' := by
  have hfrom {i : ι} (hi : (disk'.phase i).Storing) : (disk.phase i).Storing := by
    rcases hphase i with hdead | hsame
    · rw [hdead] at hi
      cases hi
    · exact hsame ▸ hi
  refine ⟨fun i => ?_, fun i j hij hpid hi hj => h.apart i j hij hpid (hfrom hi) (hfrom hj), ?_, ?_,
    fun name file hlasting hentry => ?_, ?_⟩
  · rcases hphase i with hdead | hsame
    · rw [hdead]
      trivial
    · rw [hsame]
      exact (h.stands i).congr hfiles hstoring
  · rw [hfiles]
    exact h.temporaries
  · rw [hfiles, hstoring]
    exact h.unmade
  · rw [hfiles] at hentry
    obtain ⟨hunnamed, hmade, hseen⟩ := h.settled name file hlasting hentry
    refine ⟨by rwa [hfiles], by rwa [hstoring], ?_⟩
    rw [Seen, hfiles, hstoring]
    exact hseen
  · rw [hfiles]
    exact h.absent

/-! ## Every call, and whole runs -/

/-- **One store at a time in a process**: where a party creates its
temporary file, no other party of its process is storing. -/
def Alone (party : ι → Party) (disk : Disk ι) : Call ι → Prop
  | .create i => ∀ j, j ≠ i → (party j).pid = (party i).pid → ¬ (disk.phase j).Storing
  | _ => True

omit [DecidableEq ι] in
/-- Parties in processes of their own are alone. -/
theorem alone_of_injective (h : Function.Injective (fun i => (party i).pid)) (disk : Disk ι)
    (call : Call ι) : Alone party disk call := by
  cases call with
  | create i => exact fun j hj hpid => absurd (h hpid) hj
  | _ => trivial

omit [DecidableEq ι] in
theorem stands_mutated {disk : Disk ι} {i : ι} (hnone : disk.storing i = none)
    (mutation : Mutation) (bytes : Option (List UInt8)) :
    Stands host party init disk i (mutated host mutation bytes) := by
  unfold mutated
  split
  · split
    · exact hnone
    · trivial
  · trivial

omit [DecidableEq ι] in
theorem not_storing_mutated (mutation : Mutation) (bytes : Option (List UInt8)) :
    ¬ (mutated host mutation bytes : Phase ι).Storing := by
  unfold mutated
  split
  · split <;> exact id
  · exact id

/-- **The step lemma**: a call that meets the condition keeps the
invariant. -/
theorem Sound.step {disk disk' : Disk ι} {call : Call ι}
    (htargets : ∀ i, Lasting party (party i).target)
    (h : Sound host party init disk) (halone : Alone party disk call)
    (hstep : Disk.step host party call disk = some disk') : Sound host party init disk' := by
  have houtcome := outcome_of_step hstep
  -- where the party stands before the call
  have hstands (i : ι) {phase : Phase ι} (hphase : disk.phase i = phase) :
      Stands host party init disk i phase := hphase ▸ h.stands i
  cases houtcome with
  | absent hphase hentry =>
    refine h.moved ⟨hstands _ hphase, .inl (h.absent _ (htargets _) hentry).symm⟩ ?_
    exact fun hnow => hnow.elim
  | opened hphase hentry =>
    refine h.moved ⟨hstands _ hphase, h.settled _ _ (htargets _) hentry, rfl⟩ ?_
    exact fun hnow => hnow.elim
  | @ended i n file got hphase hend =>
    obtain ⟨hnone, hsettled, hgot⟩ := hstands _ hphase
    have hwhole : got = disk.files.data file := by
      rw [hgot]
      exact List.take_of_length_le (List.drop_eq_nil_iff.mp hend)
    refine h.moved ⟨hnone, ?_⟩ (fun hnow => hnow.elim)
    exact hwhole ▸ hsettled.seen
  | @got i n file got hphase =>
    obtain ⟨hnone, hsettled, hgot⟩ := hstands _ hphase
    refine h.moved ⟨hnone, hsettled, ?_⟩ (fun hnow => hnow.elim)
    rw [List.length_append, ← Directory.take_append_piece, ← hgot]
  | mutated hphase =>
    exact h.moved (stands_mutated (hstands _ hphase).1 _ _)
      (fun hnow => (not_storing_mutated _ _ hnow).elim)
  | created hphase => exact h.created (hstands _ hphase) halone
  | wrote hphase => exact h.wrote hphase _
  | renamed hphase hrename => exact h.renamed (htargets _) hphase hrename
  | renameFailed hphase =>
    refine h.moved trivial (fun _ => ?_)
    rw [hphase]
    trivial
  | removed hphase => exact h.removed hphase
  | failed => exact h.moved trivial (fun hnow => hnow.elim)
  | @died pid =>
    refine h.died rfl rfl (fun i => ?_)
    by_cases hpid : (party i).pid = pid
    · exact .inl (if_pos hpid)
    · exact .inr (if_neg hpid)

/-- A party at the start: before its load, or about to store. -/
def Phase.Ready : Phase ι → Prop
  | .idle | .holding _ => True
  | _ => False

omit [DecidableEq ι] in
theorem Sound.start {phase : ι → Phase ι} (hready : ∀ i, (phase i).Ready) :
    Sound host party init (Disk.start init phase) := by
  have hentry {name : String} {file : File ι}
      (h : (Disk.start init phase).files.entry name = some file) : file = .original name := by
    obtain ⟨_, -, rfl⟩ := Option.map_eq_some_iff.mp h
    rfl
  refine ⟨fun i => ?_, fun i j _ _ hi => ?_, ?_, ?_, ?_, ?_⟩
  · have := hready i
    simp only [Disk.start]
    cases hphase : phase i <;> rw [hphase] at this <;> first | rfl | exact this.elim
  · have := hready i
    simp only [Disk.start] at hi
    cases hphase : phase i <;> rw [hphase] at this hi <;> first | exact hi.elim | exact this.elim
  · intro i j file h h'
    have := (hentry h).symm.trans (hentry h')
    exact temporary_injective (File.original.inj this)
  · intro i name _ h
    cases hentry h
  · intro name file hlasting h
    obtain rfl := hentry h
    refine ⟨fun i h' => ?_, fun i _ => by simp, .inl ?_⟩
    · exact hlasting i (File.original.inj (hentry h'))
    · obtain ⟨bytes, hbytes, -⟩ := Option.map_eq_some_iff.mp h
      simp only [Disk.start, hbytes, Option.getD_some]
  · intro name _ h
    exact Option.map_eq_none_iff.mp h

/-- A party that was about to store `given`, from then on. -/
def Phase.Given (given : Catalog) : Phase ι → Prop
  | .idle | .reading _ _ | .loaded _ => False
  | .holding catalog => catalog = given
  | _ => True

/-- What is left of a party that starts by storing, and of what it was
given. -/
def Gives (given : Catalog) (i : ι) (disk : Disk ι) : Prop :=
  (disk.phase i).Given given ∧ ∀ catalog, disk.storing i = some catalog → catalog = given

theorem Gives.moved {given : Catalog} {i j : ι} {disk : Disk ι} (h : Gives given i disk)
    {phase : Phase ι} (hown : j = i → phase.Given given) : Gives given i (disk.moved j phase) := by
  refine ⟨?_, h.2⟩
  by_cases hji : j = i
  · subst hji
    have hphase : (disk.moved j phase).phase j = phase := Function.update_self _ _ _
    rw [hphase]
    exact hown rfl
  · have hphase : (disk.moved j phase).phase i = disk.phase i :=
      Function.update_of_ne (Ne.symm hji) _ _
    rw [hphase]
    exact h.1

/-- A party that starts by storing stores what it was given. -/
theorem Gives.step {disk disk' : Disk ι} {call : Call ι} {i : ι} {given : Catalog}
    (h : Gives given i disk) (hstep : Disk.step host party call disk = some disk') :
    Gives given i disk' := by
  -- where it stands before one of its own calls
  have hown {j : ι} {phase : Phase ι} (hphase : disk.phase j = phase) (hji : j = i) :
      phase.Given given := hphase ▸ hji ▸ h.1
  cases outcome_of_step hstep with
  | absent hphase => exact h.moved (fun hji => (hown hphase hji).elim)
  | opened hphase => exact h.moved (fun hji => (hown hphase hji).elim)
  | ended hphase => exact h.moved (fun hji => (hown hphase hji).elim)
  | got hphase => exact h.moved (fun hji => (hown hphase hji).elim)
  | mutated hphase => exact h.moved (fun hji => (hown hphase hji).elim)
  | @created j catalog hphase =>
    have hmoved : Gives given i (disk.moved j
        (.writing (disk.files.create (temporary (party j).pid) (.made j)).1 catalog 0)) :=
      h.moved (fun _ => trivial)
    refine ⟨hmoved.1, fun catalog' hstoring => ?_⟩
    simp only [Disk.created] at hstoring
    by_cases hji : j = i
    · simp only [hji, Function.update_self, Option.some.injEq] at hstoring
      exact hstoring ▸ hown hphase hji
    · simp only [Function.update_of_ne (Ne.symm hji)] at hstoring
      exact h.2 catalog' hstoring
  | wrote => exact h.moved (fun _ => trivial)
  | renamed => exact h.moved (fun _ => trivial)
  | renameFailed => exact h.moved (fun _ => trivial)
  | removed => exact h.moved (fun _ => trivial)
  | failed => exact h.moved (fun _ => trivial)
  | @died pid =>
    refine ⟨?_, h.2⟩
    simp only
    split
    · trivial
    · exact h.1

/-- **A name holds a whole document**: where each process stores one
catalog at a time and no target is named like a temporary file, every
name that is none holds at every moment what it held at the start or the
document of one store call made for it, and so does what a load read. -/
theorem whole_documents (host : Host) (party : ι → Party) (init : String → Option (List UInt8))
    (phase : ι → Phase ι) (hready : ∀ i, (phase i).Ready)
    (htargets : ∀ i, Lasting party (party i).target) {calls : List (Call ι)} {disk : Disk ι}
    (halone : Run.Under (Disk.step host party) (Alone party) calls (Disk.start init phase))
    (hrun : Run.after (Disk.step host party) calls (Disk.start init phase) = some disk) :
    (∀ name, Lasting party name → Seen host party init disk name (disk.files.contents name)) ∧
    (∀ i bytes, disk.phase i = .loaded bytes →
      Seen host party init disk (party i).target bytes) ∧
    (∀ i given catalog, phase i = .holding given → disk.storing i = some catalog →
      catalog = given) := by
  have hsound : Sound host party init disk :=
    Run.invariant_under (fun _ _ _ h halone hstep => h.step htargets halone hstep)
      (Sound.start hready) halone hrun
  refine ⟨fun name hlasting => ?_, fun i bytes hphase => ?_, fun i given catalog hphase => ?_⟩
  · cases hentry : disk.files.entry name with
    | none =>
      refine .inl ?_
      rw [Directory.contents, hentry, hsound.absent name hlasting hentry]
      rfl
    | some file =>
      rw [Directory.contents, hentry]
      exact (hsound.settled name file hlasting hentry).seen
  · have hstands := hsound.stands i
    rw [hphase] at hstands
    exact hstands.2
  · have hstart : Gives given i (Disk.start init phase) := by
      refine ⟨?_, fun catalog h => ?_⟩
      · simp only [Disk.start, hphase]
        rfl
      · cases h
    have hgives : Gives given i disk :=
      Run.invariant (fun _ _ _ h hstep => h.step hstep) hstart hrun
    exact hgives.2 catalog

end

/-! ## Two parties of one process -/

/-- The first party of two stores a catalog of one name, the second the
empty one. -/
def twoStores : Bool → Phase Bool
  | false => .holding (Catalog.naming (Path.ofText "/srv/a"))
  | true => .holding Catalog.default

/-- The parties, in processes `first` and `second`. -/
def twoParties (first second : UInt32) : Bool → Party
  | false => ⟨first, "a.json", .remove "work"⟩
  | true => ⟨second, "b.json", .remove "work"⟩

theorem lasting_twoParties (first second : UInt32) (i : Bool) :
    Lasting (twoParties first second) (twoParties first second i).target := by
  intro j h
  have hfirst := congrArg (fun name => name.toList.head?) h
  cases i <;> simp [twoParties, temporary] at hfirst

theorem ready_twoStores (i : Bool) : (twoStores i).Ready := by
  cases i <;> trivial

/-- The first party writes its document, the second begins to write its
own, the first renames. -/
def overlapping : List (Call Bool) :=
  [.create false, .write false 1000, .create true, .write true 5, .rename false]

/-- Nothing is there at the start. -/
def nothing : String → Option (List UInt8) := fun _ => none

/-- The disk behind those calls, for parties in the two processes. -/
def overlapped (first second : UInt32) : Option (Disk Bool) :=
  Run.after (Disk.step (Host.reading []) (twoParties first second)) overlapping
    (Disk.start nothing twoStores)

theorem overlapped_isSome : (overlapped 7 8).isSome := by decide +kernel

/-- In processes of their own, both parties leave whole documents. -/
theorem whole_documents_processes :
    let disk := (overlapped 7 8).get overlapped_isSome
    ∀ name, Lasting (twoParties 7 8) name →
      Seen (Host.reading []) (twoParties 7 8) nothing disk name (disk.files.contents name) := by
  have hpids : Function.Injective (fun i => (twoParties 7 8 i).pid) := by
    intro i j h
    cases i <;> cases j <;> first | rfl | cases h
  exact (whole_documents (Host.reading []) (twoParties 7 8) nothing twoStores ready_twoStores
    (lasting_twoParties 7 8) (.of_forall (alone_of_injective hpids) _ _)
    (Option.some_get overlapped_isSome).symm).1

/-- In one process, the first party's name ends up with the piece the
second had written. -/
theorem threads_mix_documents :
    ¬ ∀ host (party : Bool → Party) init phase, (∀ i, (phase i).Ready) →
      (∀ i, Lasting party (party i).target) → ∀ calls disk,
      Run.after (Disk.step host party) calls (Disk.start init phase) = some disk →
      ∀ i, Seen host party init disk (party i).target
        (disk.files.contents (party i).target) := by
  intro h
  have hsome : (overlapped 7 7).isSome := by decide +kernel
  obtain ⟨disk, hrun⟩ := Option.isSome_iff_exists.mp hsome
  have hpiece : (overlapped 7 7).bind (fun disk => disk.files.contents "a.json")
      = some [0x7B, 0x0A, 0x20, 0x20, 0x22] := by decide +kernel
  have hstoring : (overlapped 7 7).bind (fun disk => (disk.storing false).map
      (fun catalog => (storedBytes (Host.reading []) catalog).length)) ≠ some 5 := by decide +kernel
  rw [hrun, Option.bind_some] at hpiece hstoring
  rcases h (Host.reading []) (twoParties 7 7) nothing twoStores ready_twoStores
    (lasting_twoParties 7 7) overlapping disk hrun false
    with hinit | ⟨i, catalog, htarget, hi, hwhole⟩
  · exact absurd (hpiece.symm.trans hinit) (by decide)
  · have hfalse : i = false := by
      cases i
      · rfl
      · exact absurd htarget (by decide)
    subst hfalse
    have hbytes := Option.some.inj (hpiece.symm.trans hwhole)
    rw [hi, Option.map_some, ← hbytes] at hstoring
    exact hstoring rfl

end NostdbServer
