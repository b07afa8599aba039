import NostdbServer.CatalogReplace
import NostdbServer.Lib.Register

/-!
# CatalogRegister — the directory as atomic registers

What `load` and `store` are for, without their calls: every name is an
atomic register. A store takes effect at its rename, a load at its open,
however many reads and writes there are and whatever the others do between
them (`linearizable`). A call fails or a process dies before that moment,
and then the operation had no effect.
-/

namespace NostdbServer

open Register

variable {ι : Type}

/-- What a register holds: the bytes under its name, or nothing. -/
abbrev Held := Option (List UInt8)

/-- The operation that takes effect at a call: a load at its open, a store
at its rename. -/
def effect (host : Host) (party : ι → Party) : Call ι → Disk ι → Option (Op ι String Held)
  | .open i, disk =>
      some (.get i (party i).target (disk.files.contents (party i).target))
  | .rename i, disk =>
      match disk.phase i with
      | .writing _ catalog _ => some (.put i (party i).target (some (storedBytes host catalog)))
      | _ => none
  | _, _ => none

section

variable (host : Host) (party : ι → Party) (init : String → Held)

/-- What the history has of a party, where it stands: the value a load
took, as soon as the file is open, and the store of one that has stored. -/
def Told (history : List (Op ι String Held)) (disk : Disk ι) (i : ι) : Phase ι → Prop
  | .idle => .put i ∉ history.map Op.kind ∧ .get i ∉ history.map Op.kind
  | .reading file _ => .put i ∉ history.map Op.kind ∧
      .get i (party i).target (some (disk.files.data file)) ∈ history
  | .loaded bytes => .put i ∉ history.map Op.kind ∧ .get i (party i).target bytes ∈ history
  | .holding _ | .writing _ _ _ | .cleaning => .put i ∉ history.map Op.kind
  | .stored => ∃ catalog, disk.storing i = some catalog ∧
      .put i (party i).target (some (storedBytes host catalog)) ∈ history
  | .failed | .dead => True

/-- An operation is one of the party's own: a get of its target, or a put
of the document it began to store. -/
def Own (disk : Disk ι) : Op ι String Held → Prop
  | .get i name _ => name = (party i).target
  | .put i name value => name = (party i).target ∧
      ∃ catalog, disk.storing i = some catalog ∧ value = some (storedBytes host catalog)

/-- The refinement: the history is one of registers, and what stands under
each lasting name is what its register holds behind it. -/
structure Refines (history : List (Op ι String Held)) (disk : Disk ι) : Prop where
  sound : Sound host party init disk
  legal : Legal init history
  holds : ∀ name, Lasting party name → disk.files.contents name = values init history name
  told : ∀ i, Told host party history disk i (disk.phase i)
  own : ∀ op ∈ history, Own host party disk op
  once : (history.map Op.kind).Nodup

variable {host party init} {history : List (Op ι String Held)} {disk disk' : Disk ι}

/-! ## What stays -/

/-- A call of party `i` leaves where the others stand, what was stored,
and the settled files. -/
structure Spares (party : ι → Party) (i : ι) (disk disk' : Disk ι) : Prop where
  phase : ∀ j, j ≠ i → disk'.phase j = disk.phase j
  storing : ∀ j catalog, disk.storing j = some catalog → disk'.storing j = some catalog
  data : ∀ file, (∀ j, disk.files.entry (temporary (party j).pid) ≠ some file) →
    (disk.storing i = none → file ≠ .made i) → disk'.files.data file = disk.files.data file

theorem Leaves.spares {i : ι} (h : Leaves party i disk disk') : Spares party i disk disk' where
  phase := h.phase
  storing _ _ hj := h.storing hj
  data file hunnamed hmade := (h.settled file hunnamed hmade).1

/-- What stands under a lasting name stays where the name stays. -/
theorem Spares.contents {i : ι} (h : Spares party i disk disk')
    (hsound : Sound host party init disk) {name : String} (hlasting : Lasting party name)
    (hentry : disk'.files.entry name = disk.files.entry name) :
    disk'.files.contents name = disk.files.contents name := by
  rw [Directory.contents, Directory.contents, hentry]
  cases hold : disk.files.entry name with
  | none => rfl
  | some file =>
    have hsettled := hsound.settled name file hlasting hold
    exact congrArg some (h.data file hsettled.unnamed (hsettled.made i))

theorem Own.mono {op : Op ι String Held} (h : Own host party disk op)
    (hstoring : ∀ j catalog, disk.storing j = some catalog → disk'.storing j = some catalog) :
    Own host party disk' op := by
  cases op with
  | get i name value => exact h
  | put i name value =>
    obtain ⟨hname, catalog, hi, hvalue⟩ := h
    exact ⟨hname, catalog, hstoring i catalog hi, hvalue⟩

/-- Another party is told of as before. -/
theorem Spares.told {i j : ι} (h : Spares party i disk disk')
    (hsound : Sound host party init disk) (hj : j ≠ i) {ops : List (Op ι String Held)}
    (hops : ∀ op ∈ ops, op.kind = .put i ∨ op.kind = .get i)
    (htold : Told host party history disk j (disk.phase j)) :
    Told host party (history ++ ops) disk' j (disk'.phase j) := by
  have hfresh {kind : Kind ι} (hkind : kind = .put j ∨ kind = .get j)
      (hold : kind ∉ history.map Op.kind) : kind ∉ (history ++ ops).map Op.kind := by
    rw [List.map_append, List.mem_append, not_or]
    refine ⟨hold, fun hnew => ?_⟩
    -- the operations of the call are party `i`'s, and `j` is another
    obtain ⟨op, hop, rfl⟩ := List.mem_map.mp hnew
    rcases hops op hop with hi | hi <;> rcases hkind with hk | hk <;> rw [hi] at hk <;> cases hk <;>
      exact hj rfl
  rw [h.phase j hj]
  cases hphase : disk.phase j with
  | idle =>
    rw [hphase] at htold
    exact ⟨hfresh (.inl rfl) htold.1, hfresh (.inr rfl) htold.2⟩
  | reading file got =>
    rw [hphase] at htold
    have hstands := hsound.stands j
    rw [hphase] at hstands
    -- whatever name leads to the file by now, nobody writes it
    have hdata := h.data file hstands.2.1.unnamed (hstands.2.1.made i)
    refine ⟨hfresh (.inl rfl) htold.1, ?_⟩
    rw [hdata]
    exact List.mem_append_left _ htold.2
  | loaded bytes =>
    rw [hphase] at htold
    exact ⟨hfresh (.inl rfl) htold.1, List.mem_append_left _ htold.2⟩
  | holding | writing | cleaning =>
    rw [hphase] at htold
    exact hfresh (.inl rfl) htold
  | stored =>
    rw [hphase] at htold
    obtain ⟨catalog, hstoring, hput⟩ := htold
    exact ⟨catalog, h.storing j catalog hstoring, List.mem_append_left _ hput⟩
  | failed => trivial
  | dead => trivial

/-- The frame rule of the refinement: what is left to show is of the
operation that took effect and of the party it is of. -/
theorem Refines.frame (h : Refines host party init history disk)
    (hsound' : Sound host party init disk') {i : ι} (hspares : Spares party i disk disk')
    {ops : List (Op ι String Held)} (hops : ∀ op ∈ ops, op.kind = .put i ∨ op.kind = .get i)
    (hlegal : Legal init (history ++ ops))
    (hholds : ∀ name, Lasting party name →
      disk'.files.contents name = values init (history ++ ops) name)
    (htold : Told host party (history ++ ops) disk' i (disk'.phase i))
    (hown : ∀ op ∈ ops, Own host party disk' op)
    (honce : ((history ++ ops).map Op.kind).Nodup) :
    Refines host party init (history ++ ops) disk' := by
  refine ⟨hsound', hlegal, hholds, fun j => ?_, fun op hop => ?_, honce⟩
  · by_cases hj : j = i
    · exact hj ▸ htold
    · exact hspares.told h.sound hj hops (h.told j)
  · rcases List.mem_append.mp hop with hold | hnew
    · exact (h.own op hold).mono hspares.storing
    · exact hown op hnew

/-- A call at which nothing takes effect. -/
theorem Refines.silent (h : Refines host party init history disk)
    (hsound' : Sound host party init disk') {i : ι} (hspares : Spares party i disk disk')
    (hentry : ∀ name, Lasting party name → disk'.files.entry name = disk.files.entry name)
    (htold : Told host party history disk' i (disk'.phase i)) :
    Refines host party init history disk' := by
  have hnone : ∀ op ∈ ([] : List (Op ι String Held)), op.kind = .put i ∨ op.kind = .get i := by
    simp
  have hframe := h.frame hsound' hspares hnone
  rw [List.append_nil] at hframe
  refine hframe h.legal (fun name hlasting => ?_) htold (by simp) h.once
  rw [hspares.contents h.sound hlasting (hentry name hlasting)]
  exact h.holds name hlasting

variable [DecidableEq ι]

/-! ## Each call -/

/-- A call of party `i` that changes no file. -/
theorem Refines.moved (h : Refines host party init history disk) {i : ι} {phase : Phase ι}
    (hsound' : Sound host party init (disk.moved i phase))
    (htold : Told host party history disk i phase) :
    Refines host party init history (disk.moved i phase) := by
  refine h.silent hsound' (leaves_moved disk i phase).spares (fun _ _ => rfl) ?_
  have hphase : (disk.moved i phase).phase i = phase := Function.update_self _ _ _
  rw [hphase]
  cases phase <;> exact htold

/-- A load takes what is there, as soon as the file is open. -/
theorem Refines.opens (h : Refines host party init history disk)
    (htargets : ∀ i, Lasting party (party i).target) {i : ι} {phase : Phase ι}
    (hphase : disk.phase i = .idle) (hsound' : Sound host party init (disk.moved i phase))
    (htold : ∀ history' : List (Op ι String Held), .put i ∉ history'.map Op.kind →
      .get i (party i).target (disk.files.contents (party i).target) ∈ history' →
      Told host party history' disk i phase) :
    Refines host party init
      (history ++ [.get i (party i).target (disk.files.contents (party i).target)])
      (disk.moved i phase) := by
  have hidle := h.told i
  rw [hphase] at hidle
  have hmoved : (disk.moved i phase).phase i = phase := Function.update_self _ _ _
  refine h.frame hsound' (leaves_moved disk i phase).spares ?_ ?_ ?_ ?_ ?_ ?_
  · simp [Op.kind]
  · exact h.legal.snoc (h.holds _ (htargets i))
  · intro name hlasting
    rw [values_append]
    exact h.holds name hlasting
  · rw [hmoved]
    have hnow := htold (history ++ [.get i (party i).target
      (disk.files.contents (party i).target)]) (by simpa [Op.kind] using hidle.1) (by simp)
    cases phase <;> exact hnow
  · simp [Own]
  · rw [List.map_append, List.nodup_append]
    refine ⟨h.once, by simp, ?_⟩
    intro kind hkind kind' hkind' heq
    obtain rfl : kind' = .get i := by simpa [Op.kind] using hkind'
    exact hidle.2 (heq ▸ hkind)

/-- A store puts its document at the rename. -/
theorem Refines.renamed (h : Refines host party init history disk)
    (htargets : ∀ i, Lasting party (party i).target) {i : ι} {file : File ι} {catalog : Catalog}
    {files : Directory String (File ι) UInt8}
    (hphase : disk.phase i = .writing file catalog (storedBytes host catalog).length)
    (hrename : disk.files.rename (temporary (party i).pid) (party i).target = some files) :
    Refines host party init
      (history ++ [.put i (party i).target (some (storedBytes host catalog))])
      { disk.moved i .stored with files } := by
  obtain ⟨hstoring, -, hwhole, hdata, hnew, -, hothers⟩ :=
    h.sound.rename_inv (htargets i) hphase hrename
  have hwriting := h.told i
  rw [hphase] at hwriting
  have hspares : Spares party i disk { disk.moved i .stored with files } := {
    phase := fun _ hj => Function.update_of_ne hj _ _
    storing := fun _ _ hj => hj
    data := fun file _ _ => congrFun hdata file }
  have hstored : (disk.moved i .stored).phase i = .stored := Function.update_self _ _ _
  refine h.frame (h.sound.renamed (htargets i) hphase hrename) hspares ?_ ?_ ?_ ?_ ?_ ?_
  · simp [Op.kind]
  · exact h.legal.snoc trivial
  · -- the register that was put is the one name whose contents are others
    intro name hlasting
    rw [values_append, values_cons, values_nil, Op.apply]
    by_cases hname : name = (party i).target
    · subst hname
      rw [Function.update_self, Directory.contents, hnew, Option.map_some, hdata, hwhole]
    · rw [Function.update_of_ne hname, ← h.holds name hlasting]
      exact hspares.contents h.sound hlasting (hothers name (hlasting i) hname)
  · simp only [hstored]
    exact ⟨catalog, hstoring, by simp⟩
  · intro op hop
    obtain rfl := List.mem_singleton.mp hop
    exact ⟨rfl, catalog, hstoring, rfl⟩
  · rw [List.map_append, List.nodup_append]
    refine ⟨h.once, by simp, ?_⟩
    intro kind hkind kind' hkind' heq
    obtain rfl : kind' = .put i := by simpa [Op.kind] using hkind'
    exact hwriting (heq ▸ hkind)

omit [DecidableEq ι] in
/-- A process dies, and what its parties did not do yet has no effect. -/
theorem Refines.died (h : Refines host party init history disk) (hfiles : disk'.files = disk.files)
    (hstoring : disk'.storing = disk.storing)
    (hphase : ∀ i, disk'.phase i = .dead ∨ disk'.phase i = disk.phase i) :
    Refines host party init history disk' := by
  refine ⟨h.sound.died hfiles hstoring hphase, h.legal, ?_, fun i => ?_, fun op hop => ?_, h.once⟩
  · rw [hfiles]
    exact h.holds
  · rcases hphase i with hdead | hsame
    · rw [hdead]
      trivial
    · have htold := h.told i
      rw [hsame]
      -- only these two read the directory as well as the history
      cases hold : disk.phase i with
      | stored =>
        rw [hold] at htold
        simpa only [Told, hstoring] using htold
      | reading =>
        rw [hold] at htold
        simpa only [Told, hfiles] using htold
      | _ =>
        rw [hold] at htold
        exact htold
  · refine (h.own op hop).mono (fun j catalog hj => ?_)
    rw [hstoring]
    exact hj

omit [DecidableEq ι] in
/-- What a load and a mutation come to: the party holds a catalog, or has
failed. -/
theorem told_mutated {i : ι} (hput : .put i ∉ history.map Op.kind) (mutation : Mutation)
    (bytes : Held) : Told host party history disk i (mutated host mutation bytes) := by
  unfold mutated
  split
  · split
    · exact hput
    · trivial
  · trivial

/-- **The step lemma**: a call is an operation on the registers, or
changes nothing they hold. -/
theorem Refines.step {call : Call ι} (h : Refines host party init history disk)
    (htargets : ∀ i, Lasting party (party i).target) (halone : Alone party disk call)
    (hstep : Disk.step host party call disk = some disk') :
    Refines host party init (history ++ (effect host party call disk).toList) disk' := by
  have hsound' := h.sound.step htargets halone hstep
  -- what the history has of the party before the call
  have htold (i : ι) {phase : Phase ι} (hphase : disk.phase i = phase) :
      Told host party history disk i phase := hphase ▸ h.told i
  have hsilent (heffect : effect host party call disk = none)
      (h' : Refines host party init history disk') :
      Refines host party init (history ++ (effect host party call disk).toList) disk' := by
    rwa [heffect, Option.toList_none, List.append_nil]
  cases outcome_of_step hstep with
  | @absent i hphase hentry =>
    refine h.opens htargets hphase hsound' (fun history' hput hget => ⟨hput, ?_⟩)
    rwa [Directory.contents, hentry] at hget
  | @opened i file hphase hentry =>
    refine h.opens htargets hphase hsound' (fun history' hput hget => ⟨hput, ?_⟩)
    rwa [Directory.contents, hentry] at hget
  | @ended i n file got hphase hend =>
    obtain ⟨-, -, hgot⟩ : Stands host party init disk i (.reading file got) :=
      hphase ▸ h.sound.stands i
    have hwhole : got = disk.files.data file := by
      rw [hgot]
      exact List.take_of_length_le (List.drop_eq_nil_iff.mp hend)
    obtain ⟨hput, hget⟩ := htold i hphase
    refine hsilent rfl (h.moved hsound' ⟨hput, ?_⟩)
    rwa [hwhole]
  | @got i n file got hphase =>
    obtain ⟨hput, hget⟩ := htold i hphase
    exact hsilent rfl (h.moved hsound' ⟨hput, hget⟩)
  | mutated hphase => exact hsilent rfl (h.moved hsound' (told_mutated (htold _ hphase).1 _ _))
  | @created i catalog hphase =>
    have hnone : disk.storing i = none := by
      have hstands := h.sound.stands i
      rwa [hphase] at hstands
    refine hsilent rfl (h.silent hsound' (h.sound.leaves_created catalog hnone halone).spares ?_ ?_)
    · exact fun name hlasting => disk.files.entry_create_ne _ (hlasting i)
    · simp only [Disk.created, Function.update_self]
      exact htold i hphase
  | @wrote i n file catalog written hphase =>
    refine hsilent rfl (h.silent hsound' (h.sound.leaves_wrote hphase n).spares (fun _ _ => rfl) ?_)
    simp only [Disk.wrote, Disk.moved, Function.update_self]
    exact htold i hphase
  | @renamed i file catalog files hphase hrename =>
    have heffect : effect host party (.rename i) disk
        = some (.put i (party i).target (some (storedBytes host catalog))) := by
      simp only [effect, hphase]
    rw [heffect]
    exact h.renamed htargets hphase hrename
  | @renameFailed i file catalog hphase =>
    have hput : .put i ∉ history.map Op.kind := htold i hphase
    exact hsilent rfl (h.moved hsound' hput)
  | @removed i hphase =>
    have hspares : Spares party i disk { disk.moved i .failed with
        files := disk.files.unlink (temporary (party i).pid) } := {
      phase := fun _ hj => Function.update_of_ne hj _ _
      storing := fun _ _ hj => hj
      data := fun _ _ _ => rfl }
    have hfailed : (disk.moved i .failed).phase i = .failed := Function.update_self _ _ _
    refine hsilent rfl (h.silent hsound' hspares ?_ ?_)
    · exact fun name hlasting => disk.files.entry_unlink_ne (hlasting i)
    · simp only [hfailed]
      trivial
  | failed => exact hsilent rfl (h.moved hsound' trivial)
  | @died pid =>
    refine hsilent rfl (h.died rfl rfl (fun i => ?_))
    by_cases hpid : (party i).pid = pid
    · exact .inl (if_pos hpid)
    · exact .inr (if_neg hpid)

omit [DecidableEq ι] in
theorem Refines.start {phase : ι → Phase ι} (hready : ∀ i, (phase i).Ready) :
    Refines host party init [] (Disk.start init phase) := by
  refine ⟨Sound.start hready, trivial, fun name _ => Disk.contents_start init phase name,
    fun i => ?_, fun op hop => (List.not_mem_nil hop).elim, List.nodup_nil⟩
  have hi := hready i
  simp only [Disk.start]
  cases hphase : phase i <;> rw [hphase] at hi <;> first | exact hi.elim | simp [Told]

/-! ## Whole runs -/

/-- **The directory is atomic registers**: where each process stores one
catalog at a time, the loads and stores of every run, in the order of the
opens and the renames, are a legal history. Each party has one of each at
most, of its own target, and puts what it began to store. A lasting name
holds what its register holds; a load that has read to the end has what it
took, and a store that is done has put its document. -/
theorem linearizable (host : Host) (party : ι → Party) (init : String → Held)
    (phase : ι → Phase ι) (hready : ∀ i, (phase i).Ready)
    (htargets : ∀ i, Lasting party (party i).target) {calls : List (Call ι)} {disk : Disk ι}
    (halone : Run.Under (Disk.step host party) (Alone party) calls (Disk.start init phase))
    (hrun : Run.after (Disk.step host party) calls (Disk.start init phase) = some disk) :
    let history := Run.labels (Disk.step host party) (effect host party) calls
      (Disk.start init phase)
    Legal init history ∧ (history.map Op.kind).Nodup ∧ (∀ op ∈ history, Own host party disk op) ∧
    (∀ name, Lasting party name → disk.files.contents name = values init history name) ∧
    (∀ i bytes, disk.phase i = .loaded bytes → .get i (party i).target bytes ∈ history) ∧
    (∀ i, disk.phase i = .stored → ∃ catalog, disk.storing i = some catalog ∧
      .put i (party i).target (some (storedBytes host catalog)) ∈ history) := by
  intro history
  have hrefines : Refines host party init history disk :=
    Run.history_under (fun _ _ _ _ h halone hstep => h.step htargets halone hstep)
      (Refines.start hready) halone hrun
  refine ⟨hrefines.legal, hrefines.once, hrefines.own, hrefines.holds, fun i bytes hphase => ?_,
    fun i hphase => ?_⟩
  · have htold := hrefines.told i
    rw [hphase] at htold
    exact htold.2
  · have htold := hrefines.told i
    rwa [hphase] at htold

/-! ## A store that nobody interrupts -/

omit [DecidableEq ι] in
/-- Nothing but its temporary name leads to the file a party writes. -/
theorem Sound.only (h : Sound host party init disk) {i : ι} {file : File ι} {catalog : Catalog}
    {written : Nat} (hphase : disk.phase i = .writing file catalog written) {name : String}
    (hname : name ≠ temporary (party i).pid) : disk.files.entry name ≠ some file := by
  intro hentry
  obtain ⟨-, hown, -⟩ : Stands host party init disk i (.writing file catalog written) :=
    hphase ▸ h.stands i
  by_cases hlasting : Lasting party name
  · exact (h.settled name file hlasting hentry).unnamed i hown
  · simp only [Lasting, not_forall, not_not] at hlasting
    obtain ⟨j, rfl⟩ := hlasting
    exact hname (congrArg temporary (h.temporaries j i file hentry hown))

omit [DecidableEq ι] in
/-- Where its entry and the other files are as they were, a name of another
file holds what it held. -/
theorem contents_congr {name : String} {file : File ι}
    (hentry : disk'.files.entry name = disk.files.entry name)
    (hne : disk'.files.entry name ≠ some file)
    (hdata : ∀ file', file' ≠ file → disk'.files.data file' = disk.files.data file') :
    disk'.files.contents name = disk.files.contents name := by
  rw [Directory.contents, Directory.contents, ← hentry]
  cases hold : disk'.files.entry name with
  | none => rfl
  | some file' =>
    refine congrArg some (hdata file' ?_)
    rintro rfl
    exact hne hold

/-- The writes of a store, of any sizes. -/
theorem Sound.writes (ns : List Nat) {i : ι} {file : File ι} {catalog : Catalog} {written : Nat}
    (h : Sound host party init disk) (hphase : disk.phase i = .writing file catalog written) :
    ∃ disk', Run.after (Disk.step host party) (ns.map (.write i)) disk = some disk' ∧
      Sound host party init disk' ∧
      disk'.phase i
        = .writing file catalog (min (storedBytes host catalog).length (written + ns.sum)) ∧
      ∀ name, name ≠ temporary (party i).pid →
        disk'.files.contents name = disk.files.contents name := by
  induction ns generalizing disk written with
  | nil =>
    obtain ⟨-, -, hle, -⟩ : Stands host party init disk i (.writing file catalog written) :=
      hphase ▸ h.stands i
    refine ⟨disk, rfl, h, ?_, fun _ _ => rfl⟩
    rw [hphase, List.sum_nil, Nat.add_zero, Nat.min_eq_right hle]
  | cons n ns ih =>
    have hstep : Disk.step host party (.write i n) disk
        = some (disk.wrote host i file catalog written n) := by
      simp only [Disk.step, hphase]
    have hlength : (((storedBytes host catalog).drop written).take n).length
        = min n ((storedBytes host catalog).length - written) := by simp
    -- behind one write the party is one that has written more
    have hnext : (disk.wrote host i file catalog written n).phase i = .writing file catalog
        (written + (((storedBytes host catalog).drop written).take n).length) :=
      Function.update_self _ _ _
    have hsound := h.wrote hphase n
    obtain ⟨disk', hrun, hsound', hphase', hcontents⟩ := ih hsound hnext
    refine ⟨disk', Run.after_cons_iff.mpr ⟨_, hstep, hrun⟩, hsound', ?_, fun name hname => ?_⟩
    · obtain ⟨-, -, hle, -⟩ : Stands host party init disk i (.writing file catalog written) :=
        hphase ▸ h.stands i
      rw [hphase', hlength, List.sum_cons]
      congr 1
      omega
    · rw [hcontents name hname]
      exact contents_congr rfl (hsound.only hnext hname)
        (fun file' hne => disk.files.data_write_ne hne _ _)

/-- The rename finds the temporary file. -/
theorem Sound.rename_isSome (h : Sound host party init disk) {i : ι} {file : File ι}
    {catalog : Catalog} {written : Nat} (htarget : Lasting party (party i).target)
    (hphase : disk.phase i = .writing file catalog written) :
    ∃ files, disk.files.rename (temporary (party i).pid) (party i).target = some files := by
  obtain ⟨-, hown, -⟩ : Stands host party init disk i (.writing file catalog written) :=
    hphase ▸ h.stands i
  have hnew := h.only hphase (htarget i)
  simp only [Directory.rename, hown, if_neg hnew]
  exact ⟨_, rfl⟩

/-- **A store that nobody interrupts is done**: from every state a run can
come to, whatever the processes that died have left, however the writes are
cut, the document is under the target and the temporary file is gone, and
no other name is touched. -/
theorem store_completes (host : Host) (party : ι → Party) (init : String → Held)
    (phase : ι → Phase ι) (hready : ∀ i, (phase i).Ready)
    (htargets : ∀ i, Lasting party (party i).target) {calls : List (Call ι)} {disk : Disk ι}
    (halone : Run.Under (Disk.step host party) (Alone party) calls (Disk.start init phase))
    (hrun : Run.after (Disk.step host party) calls (Disk.start init phase) = some disk) {i : ι}
    {catalog : Catalog} (hphase : disk.phase i = .holding catalog)
    (hfree : ∀ j, j ≠ i → (party j).pid = (party i).pid → ¬ (disk.phase j).Storing)
    {ns : List Nat} (hns : (storedBytes host catalog).length ≤ ns.sum) :
    ∃ disk', Run.after (Disk.step host party)
        (.create i :: ns.map (.write i) ++ [.rename i]) disk = some disk' ∧
      disk'.phase i = .stored ∧
      disk'.files.contents (party i).target = some (storedBytes host catalog) ∧
      disk'.files.contents (temporary (party i).pid) = none ∧
      ∀ name, name ≠ (party i).target → name ≠ temporary (party i).pid →
        disk'.files.contents name = disk.files.contents name := by
  have hsound : Sound host party init disk :=
    Run.invariant_under (fun _ _ _ h halone hstep => h.step htargets halone hstep)
      (Sound.start hready) halone hrun
  have hnone : disk.storing i = none := by
    have hstands := hsound.stands i
    rwa [hphase] at hstands
  -- the temporary file is opened, whoever left one there
  have hcreate : Disk.step host party (.create i) disk = some (disk.created party i catalog) := by
    simp only [Disk.step, hphase]
  have hcreated : Sound host party init (disk.created party i catalog) :=
    hsound.created hnone hfree
  have hopened : (disk.created party i catalog).phase i
      = .writing (disk.files.create (temporary (party i).pid) (.made i)).1 catalog 0 :=
    Function.update_self _ _ _
  obtain ⟨written, hwrites, hwritten, hlast, hsame⟩ := hcreated.writes ns hopened
  rw [Nat.zero_add, Nat.min_eq_left hns] at hlast
  -- all of the document is there, and it goes over to the target
  obtain ⟨files, hrename⟩ := hwritten.rename_isSome (htargets i) hlast
  obtain ⟨-, -, hdata, hdatas, htarget, hgone, hothers⟩ :=
    hwritten.rename_inv (htargets i) hlast hrename
  have hlaststep : Disk.step host party (.rename i) written
      = some { written.moved i .stored with files } := by
    simp only [Disk.step, hlast, if_pos, hrename, Option.map_some]
  refine ⟨{ written.moved i .stored with files }, ?_, Function.update_self _ _ _, ?_, ?_, ?_⟩
  · refine Run.after_cons_iff.mpr ⟨_, hcreate, Run.after_append.mpr ⟨written, hwrites, ?_⟩⟩
    exact Run.after_cons_iff.mpr ⟨_, hlaststep, rfl⟩
  · rw [Directory.contents, htarget, Option.map_some, hdatas, hdata]
  · rw [Directory.contents, hgone, Option.map_none]
  · intro name hname hname'
    have hrenamed : files.contents name = written.files.contents name := by
      rw [Directory.contents, Directory.contents, hothers name hname' hname, hdatas]
    have hcreates : (disk.created party i catalog).files.contents name
        = disk.files.contents name :=
      contents_congr (disk.files.entry_create_ne _ hname') (hcreated.only hopened hname')
        (fun file' hne => disk.files.data_create_ne hne)
    exact hrenamed.trans ((hsame name hname').trans hcreates)

end

/-! ## Two parties and a crash -/

/-- Each party loads before the other stores, the first stores, and the
second dies in the middle of its own store. -/
def interrupted : List (Call Bool) :=
  [.open false, .open true, .mutate false, .mutate true, .create false, .write false 1000,
    .create true, .write true 5, .rename false, .dies 8]

/-- The parties at the start of their loads. -/
def idleParties : Bool → Phase Bool := fun _ => .idle

/-- The disk behind those calls. -/
def interruptedDisk : Option (Disk Bool) :=
  Run.after (Disk.step (Host.reading []) (twoParties 7 8)) interrupted
    (Disk.start nothing idleParties)

theorem interruptedDisk_isSome : interruptedDisk.isSome := by decide +kernel

theorem twoParties_pids : Function.Injective (fun i => (twoParties 7 8 i).pid) := by
  intro i j h
  cases i <;> cases j <;> first | rfl | cases h

theorem alone_twoParties (host : Host) (calls : List (Call Bool)) (disk : Disk Bool) :
    Run.Under (Disk.step host (twoParties 7 8)) (Alone (twoParties 7 8)) calls disk :=
  .of_forall (alone_of_injective twoParties_pids) _ _

/-- The store that was cut short has no effect. -/
theorem linearizable_interrupted :
    let disk := interruptedDisk.get interruptedDisk_isSome
    let history := Run.labels (Disk.step (Host.reading []) (twoParties 7 8))
      (effect (Host.reading []) (twoParties 7 8)) interrupted (Disk.start nothing idleParties)
    Legal nothing history ∧ (history.map Op.kind).Nodup ∧
    (∀ name, Lasting (twoParties 7 8) name →
      disk.files.contents name = values nothing history name) := by
  obtain ⟨hlegal, honce, -, hholds, -⟩ := linearizable (Host.reading []) (twoParties 7 8) nothing
    idleParties (fun _ => trivial) (lasting_twoParties 7 8) (alone_twoParties _ _ _)
    (Option.some_get interruptedDisk_isSome).symm
  exact ⟨hlegal, honce, hholds⟩

/-- The second party dies in the middle of its store, before the first
begins. -/
def deserted : Option (Disk Bool) :=
  Run.after (Disk.step (Host.reading []) (twoParties 7 8)) [.create true, .write true 5, .dies 8]
    (Disk.start nothing twoStores)

theorem deserted_isSome : deserted.isSome := by decide +kernel

theorem holding_deserted : (deserted.get deserted_isSome).phase false
    = .holding (Catalog.naming (Path.ofText "/srv/a")) := by
  rfl

/-- The first party is done all the same, with a short write first. -/
theorem store_completes_deserted :
    let catalog := Catalog.naming (Path.ofText "/srv/a")
    let disk := deserted.get deserted_isSome
    ∃ disk', Run.after (Disk.step (Host.reading []) (twoParties 7 8))
        [.create false, .write false 3, .write false 1000, .rename false] disk = some disk' ∧
      disk'.files.contents "a.json" = some (storedBytes (Host.reading []) catalog) ∧
      disk'.files.contents (temporary 8) = disk.files.contents (temporary 8) := by
  have hlength : (storedBytes (Host.reading []) (Catalog.naming (Path.ofText "/srv/a"))).length
      ≤ [3, 1000].sum := by decide +kernel
  obtain ⟨disk', hrun, -, hdone, -, hothers⟩ := store_completes (Host.reading []) (twoParties 7 8)
    nothing twoStores ready_twoStores (lasting_twoParties 7 8) (alone_twoParties _ _ _)
    (Option.some_get deserted_isSome).symm holding_deserted
    (fun j hj hpid => absurd (twoParties_pids hpid) hj) hlength
  exact ⟨disk', hrun, hdone, hothers _ (by decide) (by decide)⟩

end NostdbServer
