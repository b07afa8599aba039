import NostdbServer.CatalogNames
import NostdbServer.CatalogRegister
import NostdbServer.CatalogTruncation

/-!
# CatalogCrash — what is left when a process dies, read as a catalog

A process that dies while it stores leaves its temporary file as far as
it was written, and nobody removes it. Under that name there is the first
part of one document, never a mixture (`Pieces`), and `load` does not take
the first part of a document for a catalog. So whatever is found under
whatever name is refused, or is a catalog some party began to store, whole
(`never_misread`).
-/

namespace NostdbServer

variable {ι : Type}

section

variable (host : Host) (party : ι → Party) (init : String → Held)

/-- The first part of the document of a store that was begun. -/
def Piece (disk : Disk ι) (bytes : List UInt8) : Prop :=
  ∃ i catalog n, disk.storing i = some catalog ∧ bytes = (storedBytes host catalog).take n

/-- Every temporary name leads to what it held at the start, or to the
first part of a document. -/
def Pieces (disk : Disk ι) : Prop :=
  ∀ i file, disk.files.entry (temporary (party i).pid) = some file →
    init (temporary (party i).pid) = some (disk.files.data file) ∨
      Piece host disk (disk.files.data file)

/-- Every catalog that is held or stored is one that the operations
build. -/
structure Genuine (disk : Disk ι) : Prop where
  held : ∀ i catalog, disk.phase i = .holding catalog → Catalog.Reachable host catalog
  stored : ∀ i catalog, disk.storing i = some catalog → Catalog.Reachable host catalog

variable {host party init} {disk disk' : Disk ι}

/-! ## The first parts -/

theorem Piece.mono {bytes : List UInt8} (h : Piece host disk bytes)
    (hstoring : ∀ i catalog, disk.storing i = some catalog → disk'.storing i = some catalog) :
    Piece host disk' bytes := by
  obtain ⟨i, catalog, n, hi, hbytes⟩ := h
  exact ⟨i, catalog, n, hstoring i catalog hi, hbytes⟩

/-- The frame rule: what is left to show is of the temporary names whose
file is another one now, or has other bytes. -/
theorem Pieces.frame (h : Pieces host party init disk)
    (hstoring : ∀ i catalog, disk.storing i = some catalog → disk'.storing i = some catalog)
    (hfiles : ∀ i file, disk'.files.entry (temporary (party i).pid) = some file →
      (disk.files.entry (temporary (party i).pid) = some file ∧
        disk'.files.data file = disk.files.data file) ∨
      Piece host disk' (disk'.files.data file)) :
    Pieces host party init disk' := by
  intro i file hentry
  rcases hfiles i file hentry with ⟨hold, hdata⟩ | hpiece
  · rw [hdata]
    exact (h i file hold).imp_right (fun hpiece => hpiece.mono hstoring)
  · exact .inr hpiece

/-- The file a party writes holds the first part of its document. -/
theorem Sound.piece (h : Sound host party init disk) {i : ι} {file : File ι} {catalog : Catalog}
    {written : Nat} (hphase : disk.phase i = .writing file catalog written) :
    Piece host disk (disk.files.data file) := by
  have hstands := h.stands i
  rw [hphase] at hstands
  exact ⟨i, catalog, written, hstands.1, hstands.2.2.2⟩

variable [DecidableEq ι]

theorem Pieces.created (h : Pieces host party init disk) (hsound : Sound host party init disk)
    {i : ι} {catalog : Catalog} (hnone : disk.storing i = none)
    (hsound' : Sound host party init (disk.created party i catalog)) :
    Pieces host party init (disk.created party i catalog) := by
  refine h.frame (fun j stored hj => ?_) (fun j file hentry => ?_)
  · have hne : j ≠ i := by
      rintro rfl
      rw [hnone] at hj
      cases hj
    exact (Function.update_of_ne hne _ _).trans hj
  · by_cases hpid : (party j).pid = (party i).pid
    · -- the name leads to the file that was just opened
      refine .inr ?_
      rw [hpid, Disk.created, disk.files.entry_create_self] at hentry
      cases hentry
      exact hsound'.piece (Function.update_self _ _ _)
    · rw [Disk.created, disk.files.entry_create_ne _ (temporary_ne hpid)] at hentry
      refine .inl ⟨hentry, disk.files.data_create_ne ?_⟩
      rintro rfl
      exact hsound.opened_own hnone hpid hentry

theorem Pieces.wrote (h : Pieces host party init disk) {i : ι} {file : File ι}
    {catalog : Catalog} {written n : Nat}
    (hsound' : Sound host party init (disk.wrote host i file catalog written n)) :
    Pieces host party init (disk.wrote host i file catalog written n) := by
  refine h.frame (fun _ _ hj => hj) (fun j file' hentry => ?_)
  by_cases hfile : file' = file
  · subst hfile
    exact .inr (hsound'.piece (Function.update_self _ _ _))
  · exact .inl ⟨hentry, disk.files.data_write_ne hfile _ _⟩

/-- **The step lemma** of the temporary names. -/
theorem Pieces.step {call : Call ι} (h : Pieces host party init disk)
    (htargets : ∀ i, Lasting party (party i).target)
    (hsound : Sound host party init disk) (hsound' : Sound host party init disk')
    (hstep : Disk.step host party call disk = some disk') : Pieces host party init disk' := by
  cases outcome_of_step hstep with
  | @created i catalog hphase =>
    have hstands := hsound.stands i
    rw [hphase] at hstands
    exact h.created hsound hstands hsound'
  | wrote => exact h.wrote hsound'
  | @renamed i file catalog files hphase hrename =>
    obtain ⟨-, -, -, hdata, -, hgone, hothers⟩ := hsound.rename_inv (htargets i) hphase hrename
    refine h.frame (fun _ _ hj => hj) (fun j file' hentry => .inl ⟨?_, congrFun hdata file'⟩)
    have hne : temporary (party j).pid ≠ temporary (party i).pid := by
      intro heq
      rw [heq, hgone] at hentry
      cases hentry
    exact hothers _ hne (Ne.symm (htargets i j)) ▸ hentry
  | @removed i hphase =>
    refine h.frame (fun _ _ hj => hj) (fun j file hentry => .inl ⟨?_, rfl⟩)
    have hne : temporary (party j).pid ≠ temporary (party i).pid := by
      intro heq
      rw [heq, disk.files.entry_unlink_self] at hentry
      cases hentry
    rwa [disk.files.entry_unlink_ne hne] at hentry
  | _ => exact h

/-! ## The catalogs -/

/-- A party comes to hold what `held` says, and no store begins. -/
theorem Genuine.moved (h : Genuine host disk) {i : ι} {phase : Phase ι}
    (hphase : disk'.phase = Function.update disk.phase i phase)
    (hstoring : disk'.storing = disk.storing)
    (hheld : ∀ catalog, phase = .holding catalog → Catalog.Reachable host catalog) :
    Genuine host disk' := by
  refine ⟨fun j catalog hj => ?_, hstoring ▸ h.stored⟩
  rw [hphase] at hj
  by_cases hji : j = i
  · subst hji
    rw [Function.update_self] at hj
    exact hheld catalog hj
  · rw [Function.update_of_ne hji] at hj
    exact h.held j catalog hj

omit [DecidableEq ι] in
/-- A catalog that was loaded and mutated. -/
theorem reachable_mutated {mutation : Mutation} {bytes : Held} {catalog : Catalog}
    (h : (mutated host mutation bytes : Phase ι) = .holding catalog) :
    Catalog.Reachable host catalog := by
  unfold mutated at h
  split at h
  · rename_i loaded hload
    have hreach := reachable_of_load hload
    split at h
    · cases h
      cases mutation with
      | insert name path => exact .insert hreach name path
      | remove name => exact .remove hreach name
    · cases h
  · cases h

/-- **The step lemma** of the catalogs. -/
theorem Genuine.step {call : Call ι} (h : Genuine host disk)
    (hstep : Disk.step host party call disk = some disk') : Genuine host disk' := by
  cases outcome_of_step hstep with
  | mutated => exact h.moved rfl rfl (fun _ hheld => reachable_mutated hheld)
  | @created i catalog hphase =>
    have hmoved : Genuine host (disk.moved i
        (.writing (disk.files.create (temporary (party i).pid) (.made i)).1 catalog 0)) :=
      h.moved rfl rfl (fun _ hheld => by cases hheld)
    refine ⟨hmoved.held, fun j stored hj => ?_⟩
    simp only [Disk.created] at hj
    by_cases hji : j = i
    · subst hji
      rw [Function.update_self, Option.some.injEq] at hj
      exact hj ▸ h.held j catalog hphase
    · rw [Function.update_of_ne hji] at hj
      exact h.stored j stored hj
  | @died pid =>
    refine ⟨fun j catalog hj => ?_, h.stored⟩
    simp only at hj
    split at hj
    · cases hj
    · exact h.held j catalog hj
  | absent | opened | ended | got | wrote | renamed | renameFailed | removed | failed =>
    refine h.moved rfl rfl ?_
    intro catalog hheld
    cases hheld

/-! ## Whole runs -/

/-- What is kept of a disk, whoever dies: of its names, of what stands
under the temporary ones, and of its catalogs. -/
structure Remains (host : Host) (party : ι → Party) (init : String → Held)
    (disk : Disk ι) : Prop where
  sound : Sound host party init disk
  pieces : Pieces host party init disk
  genuine : Genuine host disk

theorem Remains.step {call : Call ι} (h : Remains host party init disk)
    (htargets : ∀ i, Lasting party (party i).target) (halone : Alone party disk call)
    (hstep : Disk.step host party call disk = some disk') : Remains host party init disk' := by
  have hsound := h.sound.step htargets halone hstep
  exact ⟨hsound, h.pieces.step htargets h.sound hsound hstep, h.genuine.step hstep⟩

omit [DecidableEq ι] in
theorem Remains.start {phase : ι → Phase ι} (hready : ∀ i, (phase i).Ready)
    (hgiven : ∀ i given, phase i = .holding given → Catalog.Reachable host given) :
    Remains host party init (Disk.start init phase) := by
  refine ⟨Sound.start hready, fun i file hentry => .inl ?_, hgiven, fun i catalog h => by cases h⟩
  have hcontents := Disk.contents_start init phase (temporary (party i).pid)
  rw [Directory.contents, hentry] at hcontents
  exact hcontents.symm

omit [DecidableEq ι] in
/-- What is under any name was there at the start, or is the first part
of a document. -/
theorem Remains.found (h : Remains host party init disk) {name : String} {bytes : List UInt8}
    (hthere : disk.files.contents name = some bytes) :
    init name = some bytes ∨ Piece host disk bytes := by
  obtain ⟨file, hentry, rfl⟩ := Option.map_eq_some_iff.mp hthere
  by_cases hlasting : Lasting party name
  · rcases (h.sound.settled name file hlasting hentry).seen with hinit | ⟨i, catalog, -, hi, hall⟩
    · exact .inl hinit.symm
    · refine .inr ⟨i, catalog, (storedBytes host catalog).length, hi, ?_⟩
      rw [List.take_length]
      exact Option.some.inj hall
  · simp only [Lasting, not_forall, not_not] at hlasting
    obtain ⟨i, rfl⟩ := hlasting
    exact h.pieces i file hentry

end

/-- **A catalog is never misread**: where each process stores one catalog
at a time, whatever processes died at whatever calls, what is under a name
that is no temporary file's was there at the start, or loads as the whole
of a catalog that some party began to store there. What is under any name
was there at the start, or is refused, or loads as such a catalog. -/
theorem never_misread [DecidableEq ι] (host : Host) (hreads : host.ReadsWhole)
    (party : ι → Party) (init : String → Held) (phase : ι → Phase ι)
    (hready : ∀ i, (phase i).Ready)
    (hgiven : ∀ i given, phase i = .holding given → Catalog.Reachable host given)
    (htargets : ∀ i, Lasting party (party i).target) {calls : List (Call ι)} {disk : Disk ι}
    (halone : Run.Under (Disk.step host party) (Alone party) calls (Disk.start init phase))
    (hrun : Run.after (Disk.step host party) calls (Disk.start init phase) = some disk)
    (hprints : ∀ i catalog, disk.storing i = some catalog → host.Prints catalog.toDocument)
    {name : String} {bytes : List UInt8} (hthere : disk.files.contents name = some bytes) :
    (Lasting party name → init name = some bytes ∨ ∃ i catalog, (party i).target = name ∧
      disk.storing i = some catalog ∧
      Catalog.load host (readToString (some bytes)) = .ok catalog.asDisplayed) ∧
    (init name = some bytes ∨
      (∃ error, Catalog.load host (readToString (some bytes)) = .error error) ∨
      ∃ i catalog, disk.storing i = some catalog ∧
        Catalog.load host (readToString (some bytes)) = .ok catalog.asDisplayed) := by
  have hremains : Remains host party init disk :=
    Run.invariant_under (fun _ _ _ h halone hstep => h.step htargets halone hstep)
      (Remains.start hready hgiven) halone hrun
  constructor
  · intro hlasting
    obtain ⟨file, hentry, rfl⟩ := Option.map_eq_some_iff.mp hthere
    rcases (hremains.sound.settled name file hlasting hentry).seen with
      hinit | ⟨i, catalog, htarget, hi, hall⟩
    · exact .inl hinit.symm
    · refine .inr ⟨i, catalog, htarget, hi, ?_⟩
      rw [hall]
      exact load_storedBytes (hremains.genuine.stored i catalog hi).wf
        (hprints i catalog hi).inverts
  · refine (hremains.found hthere).imp_right ?_
    rintro ⟨i, catalog, n, hi, rfl⟩
    have hreach := hremains.genuine.stored i catalog hi
    -- a first part lacks more than the newline, or is the whole to `load`
    by_cases hcut : n + 1 < (storedBytes host catalog).length
    · obtain ⟨error, herror, -⟩ :=
        Catalog.load_cut (hprints i catalog hi) hreads (hreach.numeric hreads) hcut
      exact .inl ⟨error, herror⟩
    · exact .inr ⟨i, catalog, hi,
        Catalog.load_whole (hprints i catalog hi) hreach.wf (Nat.not_lt.mp hcut)⟩

/-! ## What a connection opens meanwhile -/

/-- A load by the catalog's name, to the end of the file, in a run of the
directory whose stores are read back. -/
structure Loads [DecidableEq ι] (host : Host) (party : ι → Party) (init : String → Held)
    (phase : ι → Phase ι) (name : String) (disk : Disk ι) (i : ι) (bytes : Held) : Prop where
  ran : ∃ calls, Run.Under (Disk.step host party) (Alone party) calls (Disk.start init phase) ∧
    Run.after (Disk.step host party) calls (Disk.start init phase) = some disk
  loaded : disk.phase i = .loaded bytes
  target : (party i).target = name
  inverts : ∀ j catalog, disk.storing j = some catalog →
    Catalog.Inverts host catalog.toDocument

/-- What such a load makes of the file is what the initial one makes, or
the whole of a catalog that was stored. -/
theorem Loads.whole [DecidableEq ι] {host : Host} {party : ι → Party} {init : String → Held}
    {phase : ι → Phase ι} {name : String} {disk : Disk ι} {i : ι} {bytes : Held}
    (h : Loads host party init phase name disk i bytes) (hready : ∀ i, (phase i).Ready)
    (hgiven : ∀ i given, phase i = .holding given → Catalog.Reachable host given)
    (htargets : ∀ i, Lasting party (party i).target) :
    bytes = init name ∨ ∃ j stored, (party j).target = name ∧ disk.storing j = some stored ∧
      bytes = some (storedBytes host stored) ∧
      Catalog.load host (readToString bytes) = .ok stored.asDisplayed := by
  obtain ⟨calls, halone, hrun⟩ := h.ran
  have hremains : Remains host party init disk :=
    Run.invariant_under (fun _ _ _ h halone hstep => h.step htargets halone hstep)
      (Remains.start hready hgiven) halone hrun
  have hstands := hremains.sound.stands i
  rw [h.loaded] at hstands
  -- what was read is what stood under the target when the file was opened
  rcases hstands.2 with hinit | ⟨j, stored, htarget, hj, rfl⟩
  · exact .inl (hinit.trans (congrArg init h.target))
  · refine .inr ⟨j, stored, htarget.trans h.target, hj, rfl, ?_⟩
    exact load_storedBytes (hremains.genuine.stored j stored hj).wf (h.inverts j stored hj)

/-- A path a connection opened was recorded under a bare name that its
client asked to open, in the catalog which that request's load read, of the
bytes `bytes` of the disk `disk`: the initial one, or the whole document
of one that a party stored there. -/
def OpensStored {E : Engine} (env : Env E) (stream : Stream) (party : ι → Party)
    (init : String → Held) (name : String) (disk : Nat → Disk ι) (bytes : Nat → Held) (n : Nat)
    (path : Path) : Prop :=
  ∃ k < n, ∃ request database catalog entry,
    (connection env stream k).nextRequest env = some request ∧
    request.operation = .openSession ∧ request.database = some database ∧
    Message.BareName database ∧ catalog.get database = some entry ∧ path = entry.path ∧
    Catalog.load env.host (env.catalogAt (connection env stream k).world.loads) = .ok catalog ∧
    (bytes (connection env stream k).world.loads = init name ∨ ∃ j stored,
      (party j).target = name ∧
      (disk (connection env stream k).world.loads).storing j = some stored ∧
      bytes (connection env stream k).world.loads = some (storedBytes env.host stored) ∧
      catalog = stored.asDisplayed)

/-- **A connection opens what was stored**: where the catalog is rewritten
while it is served, by any parties that come and die, every path that is
opened was asked for by a bare name, and is recorded under it in what the
load for that request read: the initial catalog or one a party stored,
whole. No load is refused where the initial one is not. -/
theorem opens_what_was_stored [DecidableEq ι] {E : Engine} (env : Env E) (stream : Stream)
    (party : ι → Party) (init : String → Held) (phase : ι → Phase ι) (name : String)
    (disk : Nat → Disk ι) (reader : Nat → ι) (bytes : Nat → Held)
    (hready : ∀ i, (phase i).Ready)
    (hgiven : ∀ i given, phase i = .holding given → Catalog.Reachable env.host given)
    (htargets : ∀ i, Lasting party (party i).target)
    (hloads : ∀ n, Loads env.host party init phase name (disk n) (reader n) (bytes n))
    (hread : ∀ n, env.catalogAt n = readToString (bytes n)) :
    (∀ n, ∀ path ∈ openedPaths (connection env stream n).world.log,
      OpensStored env stream party init name disk bytes n path) ∧
    (∀ catalog, Catalog.load env.host (readToString (init name)) = .ok catalog →
      ∀ n, ∃ catalog, Catalog.load env.host (env.catalogAt n) = .ok catalog) := by
  constructor
  · intro n path hpath
    obtain ⟨k, hk, request, database, catalog, entry, hnext, hop, hdatabase, hbare, hload, hentry,
      hat⟩ := askedFor_run env stream n path hpath
    refine ⟨k, hk, request, database, catalog, entry, hnext, hop, hdatabase, hbare, hentry, hat,
      hload, ?_⟩
    rw [hread] at hload
    refine ((hloads _).whole hready hgiven htargets).imp_right ?_
    rintro ⟨j, stored, htarget, hj, hbytes, hstored⟩
    exact ⟨j, stored, htarget, hj, hbytes, Except.ok.inj (hload.symm.trans hstored)⟩
  · intro catalog hinit n
    rw [hread]
    rcases (hloads n).whole hready hgiven htargets with hsame | ⟨j, stored, -, -, -, hstored⟩
    · exact ⟨catalog, hsame ▸ hinit⟩
    · exact ⟨stored.asDisplayed, hstored⟩

/-! ## A process that dies -/

/-- The first party stores its document; the second dies when it has
written five bytes of its own. -/
def crashing : List (Call Bool) :=
  [.create false, .write false 1000, .create true, .write true 5, .rename false, .dies 8]

/-- The disk behind those calls. -/
def crashed : Option (Disk Bool) :=
  Run.after (Disk.step (Host.printing oneAndNone) (twoParties 7 8)) crashing
    (Disk.start nothing twoStores)

theorem crashed_isSome : crashed.isSome := by decide +kernel

theorem twoStores_mem {i : Bool} {given : Catalog} (h : twoStores i = .holding given) :
    given ∈ oneAndNone := by
  cases i <;> cases h <;> simp [oneAndNone]

theorem storing_crashed {i : Bool} {catalog : Catalog}
    (h : (crashed.get crashed_isSome).storing i = some catalog) : catalog ∈ oneAndNone := by
  obtain ⟨given, hgiven⟩ : ∃ given, twoStores i = .holding given := by
    cases i <;> exact ⟨_, rfl⟩
  have hstart : Gives given i (Disk.start nothing twoStores) := by
    refine ⟨?_, fun catalog h => by cases h⟩
    simp only [Disk.start, hgiven]
    rfl
  have hgives : Gives given i (crashed.get crashed_isSome) :=
    Run.invariant (fun _ _ _ h hstep => h.step hstep) hstart
      (Option.some_get crashed_isSome).symm
  exact hgives.2 catalog h ▸ twoStores_mem hgiven

/-- What the process that died wrote. -/
def leftover : List UInt8 := [0x7B, 0x0A, 0x20, 0x20, 0x22]

theorem contents_crashed :
    (crashed.get crashed_isSome).files.contents (temporary 8) = some leftover := by
  have h : crashed.bind (fun disk => disk.files.contents (temporary 8)) = some leftover := by
    decide +kernel
  rwa [← Option.some_get crashed_isSome, Option.bind_some] at h

/-- The bytes the second party left are in the way of nobody. -/
theorem never_misread_crashed :
    let host := Host.printing oneAndNone
    let disk := crashed.get crashed_isSome
    (Lasting (twoParties 7 8) (temporary 8) → nothing (temporary 8) = some leftover ∨
      ∃ i catalog, (twoParties 7 8 i).target = temporary 8 ∧ disk.storing i = some catalog ∧
        Catalog.load host (readToString (some leftover)) = .ok catalog.asDisplayed) ∧
    (nothing (temporary 8) = some leftover ∨
      (∃ error, Catalog.load host (readToString (some leftover)) = .error error) ∨
      ∃ i catalog, disk.storing i = some catalog ∧
        Catalog.load host (readToString (some leftover)) = .ok catalog.asDisplayed) :=
  never_misread (Host.printing oneAndNone) readsWhole_oneAndNone (twoParties 7 8) nothing
    twoStores ready_twoStores (fun _ _ h => reachable_oneAndNone (twoStores_mem h))
    (lasting_twoParties 7 8) (alone_twoParties _ _ _)
    (Option.some_get crashed_isSome).symm (fun _ _ h => prints_oneAndNone (storing_crashed h))
    contents_crashed

/-! ## A client that opens what another stored -/

/-- A client that opens a session on `work`. -/
def openingStored : List Value :=
  [sayHello, ask "r1" "open_session" [("database", .string "work")]]

/-- A host that reads its frames and the catalog of one name. -/
def storedHost : Host :=
  Host.reading (((Catalog.naming (Path.ofText "/srv/a")).toDocument.writePretty ++ "\n",
      (Catalog.naming (Path.ofText "/srv/a")).toDocument)
    :: openingStored.map (fun value => (value.write, value)))

/-- A client of the catalog that stores, and the daemon that loads. -/
def clientAndDaemon : Bool → Party
  | false => ⟨7, "catalog.json", .remove "work"⟩
  | true => ⟨8, "catalog.json", .remove "work"⟩

def storesThenLoads : Bool → Phase Bool
  | false => .holding (Catalog.naming (Path.ofText "/srv/a"))
  | true => .idle

/-- The disk when the daemon has loaded. -/
def loadedDisk : Option (Disk Bool) :=
  Run.after (Disk.step storedHost clientAndDaemon)
    [.create false, .write false 1000, .rename false, .open true, .read true 999, .read true 999]
    (Disk.start nothing storesThenLoads)

theorem loadedDisk_isSome : loadedDisk.isSome := by decide +kernel

/-- The daemon of that disk. -/
def storedEnv : Env Engine.journal :=
  Env.journal storedHost Limits.default
    (readToString (some (storedBytes storedHost (Catalog.naming (Path.ofText "/srv/a")))))

theorem loads_loadedDisk : Loads storedHost clientAndDaemon nothing storesThenLoads "catalog.json"
    (loadedDisk.get loadedDisk_isSome) true
    (some (storedBytes storedHost (Catalog.naming (Path.ofText "/srv/a")))) where
  ran := by
    have hpids : Function.Injective (fun i => (clientAndDaemon i).pid) := by
      intro i j h
      cases i <;> cases j <;> first | rfl | cases h
    exact ⟨_, .of_forall (alone_of_injective hpids) _ _, (Option.some_get loadedDisk_isSome).symm⟩
  loaded := by rfl
  target := rfl
  inverts := by
    intro j catalog hj
    cases j with
    | false =>
      have hstoring : (loadedDisk.get loadedDisk_isSome).storing false
          = some (Catalog.naming (Path.ofText "/srv/a")) := by rfl
      obtain rfl := Option.some.inj (hstoring.symm.trans hj)
      simp [Catalog.Inverts, storedHost, Host.reading]
    | true =>
      have hstoring : (loadedDisk.get loadedDisk_isSome).storing true = none := by rfl
      rw [hstoring] at hj
      cases hj

/-- What the daemon opens for its client is where the other client put
it. -/
theorem opens_what_was_stored_work :
    ∃ request database catalog entry j stored,
      (connection storedEnv (.saying openingStored) 0).nextRequest storedEnv = some request ∧
      request.operation = .openSession ∧ request.database = some database ∧
      catalog.get database = some entry ∧ Path.ofText "/srv/a" = entry.path ∧
      (loadedDisk.get loadedDisk_isSome).storing j = some stored ∧
      catalog = stored.asDisplayed := by
  have hopened : Path.ofText "/srv/a"
      ∈ openedPaths (connection storedEnv (.saying openingStored) 1).world.log := by
    decide +kernel
  obtain ⟨k, hk, request, database, catalog, entry, hnext, hop, hdatabase, -, hentry, hat, -,
    hstored⟩ := (opens_what_was_stored storedEnv (.saying openingStored) clientAndDaemon nothing
      storesThenLoads "catalog.json" (fun _ => loadedDisk.get loadedDisk_isSome) (fun _ => true)
      (fun _ => some (storedBytes storedHost (Catalog.naming (Path.ofText "/srv/a"))))
      (fun i => by cases i <;> trivial)
      (fun i given h => by
        cases i <;> cases h
        exact .insert .default _ _)
      (fun i j => by cases i <;> cases j <;> decide)
      (fun _ => loads_loadedDisk) (fun _ => rfl)).1 1 _ hopened
  obtain rfl : k = 0 := by omega
  rcases hstored with hnothing | ⟨j, stored, -, hj, -, hcatalog⟩
  · cases hnothing
  · exact ⟨request, database, catalog, entry, j, stored, hnext, hop, hdatabase, hentry, hat, hj,
      hcatalog⟩

end NostdbServer
