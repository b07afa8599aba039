import NostdbServer.CatalogRoundTrip
import NostdbServer.Lib.Directory
import NostdbServer.Lib.Run

/-!
# CatalogStore — loads and stores in one directory

`Catalog::store` and `Catalog::load` as the system calls they make, for
any number of parties in any interleaving. A party is one run of load,
mutation and store, or of a part of it: it starts before its load, or
already holding the catalog it is to store. A process is the parties that
share its identifier, so the threads of one process are among them.

The catalog is loaded through one open file, in reads of any size. It is
stored by creating or truncating the temporary file, writing it in pieces
of any size, and renaming it over the target. Any call may fail, and any
process may die at any step.
-/

namespace NostdbServer

open Utf8

/-- What a client does to the catalog it loaded. -/
inductive Mutation where
  | insert (name : String) (path : Path)
  | remove (name : String)

namespace Mutation

/-- Whether `insert` accepts it; `remove` refuses nothing. -/
def Accepted : Mutation → Prop
  | .insert name path => Catalog.insertProblems name path = []
  | .remove _ => True

instance (mutation : Mutation) : Decidable mutation.Accepted :=
  match mutation with
  | .insert name path => inferInstanceAs (Decidable (Catalog.insertProblems name path = []))
  | .remove _ => inferInstanceAs (Decidable True)

/-- The catalog behind it. -/
def apply : Mutation → Catalog → Catalog
  | .insert name path, catalog => (catalog.insert name path).2
  | .remove name, catalog => (catalog.remove name).2

end Mutation

/-- A party: its process, the file its path names, and what it does to
the catalog it loads. -/
structure Party where
  pid : UInt32
  target : String
  mutation : Mutation

/-- The name of the temporary file of a process. -/
def temporary (pid : UInt32) : String := ".catalog.json." ++ toString pid.toNat ++ ".partial"

theorem temporary_injective : Function.Injective temporary := by
  intro a b h
  have hdigits : Nat.toDigits 10 a.toNat = Nat.toDigits 10 b.toNat := by
    simpa [temporary, Nat.repr_eq_ofList_toDigits] using congrArg String.toList h
  apply UInt32.toNat_inj.mp
  rw [← Nat.ofDigitChars_ten_toDigits (n := a.toNat), hdigits, Nat.ofDigitChars_ten_toDigits]

/-- The bytes `store` writes. -/
def storedBytes (host : Host) (catalog : Catalog) : List UInt8 := utf8 (catalog.storeText host)

/-- `fs::read_to_string` of the bytes read, or of no file. -/
def readToString : Option (List UInt8) → ReadToString
  | none => .notFound
  | some bytes =>
      match ofUtf8? bytes with
      | some text => .text text
      | none => .failed "stream did not contain valid UTF-8"

/-- A file: one that was there at the start, or one a party made. -/
inductive File (ι : Type) where
  | original (name : String)
  | made (party : ι)
  deriving DecidableEq

/-- Where a party stands. -/
inductive Phase (ι : Type) where
  | idle
  | reading (file : File ι) (got : List UInt8)
  | loaded (bytes : Option (List UInt8))
  | holding (catalog : Catalog)
  | writing (file : File ι) (catalog : Catalog) (written : Nat)
  /-- The rename failed, and the temporary file is still to be removed. -/
  | cleaning
  | stored
  | failed
  | dead

/-- The directory, where each party stands, and (for stating properties
only) the catalog each party began to store. -/
structure Disk (ι : Type) where
  files : Directory String (File ι) UInt8
  phase : ι → Phase ι
  storing : ι → Option Catalog

variable {ι : Type}

/-- The directory at the start, with the given files. -/
def Disk.start (init : String → Option (List UInt8)) (phase : ι → Phase ι) : Disk ι where
  files := {
    entry := fun name => (init name).map (fun _ => .original name)
    data := fun
      | .original name => (init name).getD []
      | .made _ => [] }
  phase := phase
  storing _ := none

theorem Disk.contents_start (init : String → Option (List UInt8)) (phase : ι → Phase ι)
    (name : String) : (Disk.start init phase).files.contents name = init name := by
  cases hinit : init name with
  | none => simp [Directory.contents, Disk.start, hinit]
  | some bytes => simp [Directory.contents, Disk.start, hinit]

/-- One call of one party, or the death of a process. -/
inductive Call (ι : Type) where
  /-- `load` opens the file. -/
  | open (party : ι)
  /-- `load` reads into a buffer of `n + 1` bytes. -/
  | read (party : ι) (n : Nat)
  /-- The bytes are parsed, and the mutation is applied. -/
  | mutate (party : ι)
  /-- `store` creates or truncates the temporary file. -/
  | create (party : ι)
  /-- `store` writes `n` bytes more. -/
  | write (party : ι) (n : Nat)
  | rename (party : ι)
  /-- The rename fails. -/
  | renameFails (party : ι)
  | removeFile (party : ι)
  /-- A call other than the rename fails. -/
  | fails (party : ι)
  | dies (pid : UInt32)

variable [DecidableEq ι]

/-- The disk with a party moved on. -/
def Disk.moved (disk : Disk ι) (i : ι) (phase : Phase ι) : Disk ι :=
  { disk with phase := Function.update disk.phase i phase }

/-- The disk with a party's temporary file created or truncated. -/
def Disk.created (disk : Disk ι) (party : ι → Party) (i : ι) (catalog : Catalog) : Disk ι :=
  let opened := disk.files.create (temporary (party i).pid) (.made i)
  { files := opened.2
    phase := Function.update disk.phase i (.writing opened.1 catalog 0)
    storing := Function.update disk.storing i (some catalog) }

/-- The disk with up to `n` bytes more of a party's document written. -/
def Disk.wrote (disk : Disk ι) (host : Host) (i : ι) (file : File ι) (catalog : Catalog)
    (written n : Nat) : Disk ι :=
  let chunk := ((storedBytes host catalog).drop written).take n
  { disk.moved i (.writing file catalog (written + chunk.length)) with
    files := disk.files.write file written chunk }

/-- What `load` and the mutation make of the bytes. -/
def mutated (host : Host) (mutation : Mutation) (bytes : Option (List UInt8)) : Phase ι :=
  match Catalog.load host (readToString bytes) with
  | .ok catalog => if mutation.Accepted then .holding (mutation.apply catalog) else .failed
  | .error _ => .failed

/-- The disk after a call, `none` where the party does not stand at it. -/
def Disk.step (host : Host) (party : ι → Party) : Call ι → Disk ι → Option (Disk ι)
  | .open i, disk =>
      match disk.phase i with
      | .idle =>
          match disk.files.entry (party i).target with
          | none => some (disk.moved i (.loaded none))
          | some file => some (disk.moved i (.reading file []))
      | _ => none
  | .read i n, disk =>
      match disk.phase i with
      | .reading file got =>
          match ((disk.files.data file).drop got.length).take (n + 1) with
          | [] => some (disk.moved i (.loaded (some got)))
          | chunk => some (disk.moved i (.reading file (got ++ chunk)))
      | _ => none
  | .mutate i, disk =>
      match disk.phase i with
      | .loaded bytes => some (disk.moved i (mutated host (party i).mutation bytes))
      | _ => none
  | .create i, disk =>
      match disk.phase i with
      | .holding catalog => some (disk.created party i catalog)
      | _ => none
  | .write i n, disk =>
      match disk.phase i with
      | .writing file catalog written => some (disk.wrote host i file catalog written n)
      | _ => none
  | .rename i, disk =>
      match disk.phase i with
      | .writing _ catalog written =>
          if written = (storedBytes host catalog).length then
            (disk.files.rename (temporary (party i).pid) (party i).target).map
              (fun files => { disk.moved i .stored with files })
          else none
      | _ => none
  | .renameFails i, disk =>
      match disk.phase i with
      | .writing _ catalog written =>
          if written = (storedBytes host catalog).length then some (disk.moved i .cleaning)
          else none
      | _ => none
  | .removeFile i, disk =>
      match disk.phase i with
      | .cleaning =>
          some { disk.moved i .failed with
            files := disk.files.unlink (temporary (party i).pid) }
      | _ => none
  | .fails i, disk =>
      match disk.phase i with
      | .idle | .reading _ _ | .holding _ | .writing _ _ _ | .cleaning =>
          some (disk.moved i .failed)
      | _ => none
  | .dies pid, disk =>
      some { disk with phase := fun i => if (party i).pid = pid then .dead else disk.phase i }

/-! ## What a call can do -/

/-- Every outcome of a call, with where the party stood. -/
inductive Outcome (host : Host) (party : ι → Party) (disk : Disk ι) : Call ι → Disk ι → Prop where
  | absent {i} (hphase : disk.phase i = .idle)
      (hentry : disk.files.entry (party i).target = none) :
      Outcome host party disk (.open i) (disk.moved i (.loaded none))
  | opened {i file} (hphase : disk.phase i = .idle)
      (hentry : disk.files.entry (party i).target = some file) :
      Outcome host party disk (.open i) (disk.moved i (.reading file []))
  | ended {i n file got} (hphase : disk.phase i = .reading file got)
      (hend : (disk.files.data file).drop got.length = []) :
      Outcome host party disk (.read i n) (disk.moved i (.loaded (some got)))
  | got {i n file got} (hphase : disk.phase i = .reading file got) :
      Outcome host party disk (.read i n)
        (disk.moved i
          (.reading file (got ++ ((disk.files.data file).drop got.length).take (n + 1))))
  | mutated {i bytes} (hphase : disk.phase i = .loaded bytes) :
      Outcome host party disk (.mutate i)
        (disk.moved i (NostdbServer.mutated host (party i).mutation bytes))
  | created {i catalog} (hphase : disk.phase i = .holding catalog) :
      Outcome host party disk (.create i) (disk.created party i catalog)
  | wrote {i n file catalog written} (hphase : disk.phase i = .writing file catalog written) :
      Outcome host party disk (.write i n) (disk.wrote host i file catalog written n)
  | renamed {i file catalog files}
      (hphase : disk.phase i = .writing file catalog (storedBytes host catalog).length)
      (hrename : disk.files.rename (temporary (party i).pid) (party i).target = some files) :
      Outcome host party disk (.rename i) { disk.moved i .stored with files }
  | renameFailed {i file catalog}
      (hphase : disk.phase i = .writing file catalog (storedBytes host catalog).length) :
      Outcome host party disk (.renameFails i) (disk.moved i .cleaning)
  | removed {i} (hphase : disk.phase i = .cleaning) :
      Outcome host party disk (.removeFile i)
        { disk.moved i .failed with files := disk.files.unlink (temporary (party i).pid) }
  | failed {i} : Outcome host party disk (.fails i) (disk.moved i .failed)
  | died {pid} : Outcome host party disk (.dies pid)
      { disk with phase := fun i => if (party i).pid = pid then .dead else disk.phase i }

/-- **What a call does** is one of the outcomes. -/
theorem outcome_of_step {host : Host} {party : ι → Party} {call : Call ι} {disk disk' : Disk ι}
    (h : Disk.step host party call disk = some disk') : Outcome host party disk call disk' := by
  cases call with
  | «open» i =>
    simp only [Disk.step] at h
    split at h
    · rename_i hphase
      split at h
      · rename_i hentry
        cases h
        exact .absent hphase hentry
      · rename_i file hentry
        cases h
        exact .opened hphase hentry
    · cases h
  | read i n =>
    simp only [Disk.step] at h
    split at h
    · rename_i file got hphase
      split at h
      · rename_i hchunk
        cases h
        -- a buffer of at least one byte comes back empty at the end alone
        have hend : (disk.files.data file).drop got.length = [] := by
          simpa using hchunk
        exact .ended hphase hend
      · cases h
        exact .got hphase
    · cases h
  | mutate i =>
    simp only [Disk.step] at h
    split at h
    · rename_i bytes hphase
      cases h
      exact .mutated hphase
    · cases h
  | create i =>
    simp only [Disk.step] at h
    split at h
    · rename_i catalog hphase
      cases h
      exact .created hphase
    · cases h
  | write i n =>
    simp only [Disk.step] at h
    split at h
    · rename_i file catalog written hphase
      cases h
      exact .wrote hphase
    · cases h
  | rename i =>
    simp only [Disk.step] at h
    split at h
    · rename_i file catalog written hphase
      split at h
      · rename_i hwhole
        subst hwhole
        obtain ⟨files, hrename, rfl⟩ := Option.map_eq_some_iff.mp h
        exact .renamed hphase hrename
      · cases h
    · cases h
  | renameFails i =>
    simp only [Disk.step] at h
    split at h
    · rename_i file catalog written hphase
      split at h
      · rename_i hwhole
        subst hwhole
        cases h
        exact .renameFailed hphase
      · cases h
    · cases h
  | removeFile i =>
    simp only [Disk.step] at h
    split at h
    · rename_i hphase
      cases h
      exact .removed hphase
    · cases h
  | fails i =>
    simp only [Disk.step] at h
    split at h <;> first | (cases h; exact .failed) | cases h
  | dies pid =>
    simp only [Disk.step] at h
    cases h
    exact .died

end NostdbServer
