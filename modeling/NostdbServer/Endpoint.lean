import Mathlib.Data.UInt
import NostdbServer.Catalog
import NostdbServer.Lifecycle

/-!
# Endpoint — where the daemon listens, and who can reach it

`src/endpoint.rs` and the directory half of `src/lock.rs`. The lock file and
the socket are in one directory, `~/.nostdb/run` (`address_parent`), and
both `acquire` and `bind` create it and restrict it first.

`Endpoint.step` refines the lifecycle by those calls, one step each: the
directory may be made by any process under any umask, or be there with any
mode, and another process may move between the reading of a mode and its
change. Forgetting the modes gives back a run of the lifecycle
(`run_lifecycle`), and where a process has bound the socket the directory is
restricted (`endpoint_restricted`).
-/

namespace NostdbServer

open Utf8

/-! ## The locations -/

namespace Path

/-- `Path::join` on Unix. -/
def join (path : Path) (name : Path) : Path :=
  if name.isAbsolute then name
  else if path = [] ∨ path.getLast? = some 0x2F then path ++ name
  else path ++ 0x2F :: name

/-- A reversed path without the separators and the `.` components at its
end. A root stays. -/
def trimmed : List UInt8 → List UInt8
  | [] => []
  | byte :: rest =>
      if byte = 0x2F ∧ rest ≠ [] then trimmed rest
      else if byte = 0x2E ∧ rest.head? = some 0x2F then trimmed rest
      else byte :: rest

/-- `Path::parent` on Unix. -/
def parent (path : Path) : Option Path :=
  let bytes := trimmed path.reverse
  if bytes = [] ∨ bytes = [0x2F] then none
  else some (trimmed (bytes.dropWhile (· ≠ 0x2F))).reverse

end Path

/-- The home directory of `HOME`, which must not be empty. Either way of
having none is of kind `NotFound`. -/
def homeDirectory (home : Option Path) (message : String) : Except String Path :=
  match home.filter (· ≠ []) with
  | none => .error message
  | some home => .ok (Path.join home (utf8 ".nostdb"))

namespace Endpoint

/-- `run_directory`, with the value of `HOME`. -/
def runDirectory (home : Option Path) : Except String Path :=
  (homeDirectory home "HOME is unset, so the per-user endpoint has no location").map
    (Path.join · (utf8 "run"))

/-- `address`. -/
def address (home : Option Path) : Except String Path :=
  (runDirectory home).map (Path.join · (utf8 "nostdb.sock"))

/-- `lock_path`. -/
def lockPath (home : Option Path) : Except String Path :=
  (runDirectory home).map (Path.join · (utf8 "daemon.lock"))

end Endpoint

/-- `Catalog::default_path`. -/
def Catalog.defaultPath (home : Option Path) : Except String Path :=
  (homeDirectory home "HOME is unset, so the per-user catalog has no location").map
    (Path.join · (utf8 "catalog.json"))

namespace Path

/-- A component: a name with no separator, which is not `.`. -/
def IsName (name : Path) : Prop := name ≠ [] ∧ name ≠ [0x2E] ∧ 0x2F ∉ name

instance (name : Path) : Decidable name.IsName := inferInstanceAs (Decidable (_ ∧ _ ∧ _))

/-- A path that ends in a name is as it is. -/
theorem trimmed_name {name : Path} (h : name.IsName) (before : Path) :
    trimmed (name.reverse ++ 0x2F :: before) = name.reverse ++ 0x2F :: before := by
  obtain ⟨hne, hdot, hslash⟩ := h
  cases hrev : name.reverse with
  | nil => exact absurd (List.reverse_eq_nil_iff.mp hrev) hne
  | cons byte rest =>
    have hbyte : byte ≠ 0x2F := by
      rintro rfl
      exact hslash (List.mem_reverse.mp (hrev ▸ List.mem_cons_self))
    have hrest : ¬ (byte = 0x2E ∧ (rest ++ 0x2F :: before).head? = some 0x2F) := by
      rintro ⟨rfl, hhead⟩
      cases rest with
      | nil =>
        have hname := congrArg List.reverse hrev
        rw [List.reverse_reverse] at hname
        exact hdot hname
      | cons next rest =>
        rw [List.cons_append, List.head?_cons] at hhead
        refine hslash (List.mem_reverse.mp ?_)
        rw [hrev, Option.some.inj hhead]
        exact List.mem_cons_of_mem _ List.mem_cons_self
    rw [List.cons_append, trimmed, if_neg (fun hcond => hbyte hcond.1), if_neg hrest]

/-- A relative name joined to a path that does not end in a separator. -/
theorem join_name {path name : Path} (hname : name.IsName) (hne : path ≠ [])
    (hlast : path.getLast? ≠ some 0x2F) : path.join name = path ++ 0x2F :: name := by
  have hrelative : name.isAbsolute = false := by
    rcases name with _ | ⟨byte, name⟩
    · rfl
    · have hbyte : byte ≠ 0x2F := fun heq => hname.2.2 (heq ▸ List.mem_cons_self)
      simp [isAbsolute, hbyte]
  rw [join, hrelative]
  simp only [Bool.false_eq_true, if_false]
  exact if_neg (not_or.mpr ⟨hne, hlast⟩)

/-- The directory of a name in a path that ends in a name is that path. -/
theorem parent_join {before directory name : Path} (hdirectory : directory.IsName)
    (hname : name.IsName) :
    parent ((before ++ 0x2F :: directory).join name) = some (before ++ 0x2F :: directory) := by
  have hlast : (before ++ 0x2F :: directory).getLast? ≠ some 0x2F := by
    intro hlast
    rw [List.getLast?_append_cons, List.getLast?_cons_of_ne_nil hdirectory.1] at hlast
    exact hdirectory.2.2 (List.mem_of_getLast? hlast)
  have hjoin : (before ++ 0x2F :: directory).join name
      = before ++ 0x2F :: directory ++ 0x2F :: name := join_name hname (by simp) hlast
  have htrimmed := trimmed_name hdirectory before.reverse
  have hreverse : (before ++ 0x2F :: directory ++ 0x2F :: name).reverse
      = name.reverse ++ 0x2F :: (directory.reverse ++ 0x2F :: before.reverse) := by
    simp
  have hdrop : (name.reverse ++ 0x2F :: (directory.reverse ++ 0x2F :: before.reverse)).dropWhile
      (· ≠ 0x2F) = 0x2F :: (directory.reverse ++ 0x2F :: before.reverse) := by
    rw [List.dropWhile_append_of_pos]
    · simp
    · intro byte hbyte
      refine decide_eq_true (fun heq => hname.2.2 ?_)
      exact List.mem_reverse.mp (heq ▸ hbyte)
  have hlong : ¬ (name.reverse ++ 0x2F :: (directory.reverse ++ 0x2F :: before.reverse) = [] ∨
      name.reverse ++ 0x2F :: (directory.reverse ++ 0x2F :: before.reverse) = [0x2F]) := by
    rintro (hnil | hroot)
    · simp at hnil
    · have hlength := congrArg List.length hroot
      simp only [List.length_append, List.length_cons, List.length_nil] at hlength
      omega
  rw [hjoin, parent]
  simp only [hreverse, trimmed_name hname, if_neg hlong, hdrop]
  rw [trimmed, if_pos ⟨rfl, by simp⟩, htrimmed]
  simp

/-- A path ends as the name it was joined with. -/
theorem getLast?_join (path : Path) {name : Path} (hname : name ≠ []) :
    (path.join name).getLast? = name.getLast? := by
  unfold join
  split
  · rfl
  · split
    · exact List.getLast?_append_of_ne_nil path hname
    · rw [List.getLast?_append_cons, List.getLast?_cons_of_ne_nil hname]

end Path

namespace Endpoint

/-- The run directory is a path that ends in its name. -/
theorem runDirectory_eq {home : Option Path} {run : Path} (h : runDirectory home = .ok run) :
    ∃ before : Path, run = before ++ 0x2F :: utf8 "run" := by
  simp only [runDirectory, homeDirectory] at h
  split at h
  · cases h
  · rename_i directory _
    have hname : Path.IsName (utf8 "run") := by decide
    have hlast := Path.getLast?_join directory (show utf8 ".nostdb" ≠ [] by decide)
    have hne : Path.join directory (utf8 ".nostdb") ≠ [] := by
      intro hnil
      rw [hnil] at hlast
      exact absurd hlast (by decide)
    have hslash : (utf8 ".nostdb").getLast? ≠ some 0x2F := by decide
    cases h
    exact ⟨_, Path.join_name hname hne (hlast ▸ hslash)⟩

/-- The socket and the lock file are two files of the run directory. -/
theorem address_parent {home : Option Path} {run : Path} (h : runDirectory home = .ok run) :
    ∃ socket lock, address home = .ok socket ∧ lockPath home = .ok lock ∧
      socket.parent = some run ∧ lock.parent = some run ∧ socket ≠ lock := by
  obtain ⟨before, hrun⟩ := runDirectory_eq h
  have hrunName : Path.IsName (utf8 "run") := by decide
  have hsocket : Path.IsName (utf8 "nostdb.sock") := by decide
  have hlock : Path.IsName (utf8 "daemon.lock") := by decide
  refine ⟨_, _, by rw [address, h]; rfl, by rw [lockPath, h]; rfl, ?_, ?_, ?_⟩
  · rw [hrun]
    exact Path.parent_join hrunName hsocket
  · rw [hrun]
    exact Path.parent_join hrunName hlock
  · intro heq
    have hlast : run.getLast? ≠ some 0x2F := by
      have hend : (0x2F :: utf8 "run").getLast? ≠ some 0x2F := by decide
      rw [hrun, List.getLast?_append_of_ne_nil _ (by simp)]
      exact hend
    have hne : run ≠ [] := by simp [hrun]
    have heq : Path.join run (utf8 "nostdb.sock") = Path.join run (utf8 "daemon.lock") := heq
    rw [Path.join_name hsocket hne hlast, Path.join_name hlock hne hlast] at heq
    exact absurd (List.append_cancel_left heq) (by decide)

/-! ## Modes -/

/-- The permission bits of a file, `Permissions::mode`. -/
abbrev Mode := UInt32

/-- Only the user can reach what is in the directory. -/
def Mode.Private (mode : Mode) : Prop := mode &&& 0o777 = 0o700

instance (mode : Mode) : Decidable mode.Private := inferInstanceAs (Decidable (_ = _))

/-- The mode a call makes a file with. -/
def Mode.made (umask : Mode) : Mode := 0o777 &&& ~~~umask

/-- `restrict_to_current_user`, where `mode` was read and `now` is the mode
its `set_permissions` finds. -/
def restrictToCurrentUser (mode now : Mode) : Mode :=
  if mode &&& 0o777 ≠ 0o700 then 0o700 else now

theorem restrictToCurrentUser_private {mode now : Mode} (h : mode.Private → now.Private) :
    (restrictToCurrentUser mode now).Private := by
  unfold restrictToCurrentUser
  split
  · rfl
  · rename_i hprivate
    exact h (not_not.mp hprivate)

/-! ## The lifecycle with its directory -/

open Lifecycle (Daemon Query Holder Socket Sole)

/-- How far a call has made the directory ready. -/
inductive Progress where
  | before
  /-- `create_dir_all` returned. -/
  | created
  /-- The directory's mode was read. -/
  | read (mode : Mode)
  | restricted
  deriving DecidableEq

/-- The lifecycle, the directory's mode where it exists, the socket's, and
how far each party has made the directory ready: in `acquire`, and a second
time in `bind`. -/
structure State (ι κ : Type) where
  base : Lifecycle.State ι κ
  directory : Option Mode
  socketMode : Mode
  progress : Holder ι κ → Progress

variable {ι κ : Type}

/-- Nobody has begun; the directory may be there with any mode. -/
def State.start (socket : Socket ι) (directory : Option Mode) (socketMode : Mode) :
    State ι κ where
  base := .start socket
  directory := directory
  socketMode := socketMode
  progress _ := .before

inductive Step (ι κ : Type) where
  /-- `create_dir_all`. -/
  | creates (p : Holder ι κ) (umask : Mode)
  /-- `metadata` of the directory. -/
  | reads (p : Holder ι κ)
  /-- The comparison, and `set_permissions` where it is needed. -/
  | restricts (p : Holder ι κ)
  /-- A call of the lifecycle; a socket is bound under a umask. -/
  | calls (a : Lifecycle.Step ι κ) (umask : Mode)

/-- Where a party is before its lock file, or before its socket. -/
def Preparing (s : Lifecycle.State ι κ) : Holder ι κ → Prop
  | .daemon i => s.daemon i = .idle ∨ s.daemon i = .locked
  | .query k => s.query k = .idle

instance (s : Lifecycle.State ι κ) : ∀ p, Decidable (Preparing s p)
  | .daemon i => inferInstanceAs (Decidable (s.daemon i = .idle ∨ s.daemon i = .locked))
  | .query k => inferInstanceAs (Decidable (s.query k = .idle))

/-- The party a call needs the directory ready for. -/
def readies : Lifecycle.Step ι κ → Option (Holder ι κ)
  | .openLock i => some (.daemon i)
  | .removeLeftover i => some (.daemon i)
  | .queryOpens k => some (.query k)
  | _ => none

/-- The socket's mode behind a call. -/
def socketModeAfter (a : Lifecycle.Step ι κ) (umask mode : Mode) : Mode :=
  match a with
  | .bind _ => .made umask
  | .restrict _ => 0o600
  | _ => mode

variable [DecidableEq ι] [DecidableEq κ]

def State.progressed (s : State ι κ) (p : Holder ι κ) (progress : Progress) : State ι κ :=
  { s with progress := Function.update s.progress p progress }

/-- The state behind a call of the lifecycle that had what it needs. -/
def State.called (s : State ι κ) (a : Lifecycle.Step ι κ) (umask : Mode)
    (base : Lifecycle.State ι κ) : State ι κ where
  base := base
  directory := s.directory
  socketMode := socketModeAfter a umask s.socketMode
  progress :=
    match readies a with
    | some p => Function.update s.progress p .before
    | none => s.progress

/-- Whether the party that needs it has the directory ready. -/
def State.Ready (s : State ι κ) (a : Lifecycle.Step ι κ) : Prop :=
  ∀ p ∈ readies a, s.progress p = .restricted

instance (s : State ι κ) (a : Lifecycle.Step ι κ) : Decidable (s.Ready a) :=
  inferInstanceAs (Decidable (∀ p ∈ readies a, _))

/-- The state after a step, `none` where it cannot be taken. -/
def step : Step ι κ → State ι κ → Option (State ι κ)
  | .creates p umask, s =>
      if Preparing s.base p ∧ s.progress p = .before then
        some { s.progressed p .created with directory := some (s.directory.getD (.made umask)) }
      else none
  | .reads p, s =>
      if Preparing s.base p ∧ s.progress p = .created then
        s.directory.map (fun mode => s.progressed p (.read mode))
      else none
  | .restricts p, s =>
      match s.progress p with
      | .read mode =>
          if Preparing s.base p then
            some { s.progressed p .restricted with
              directory := s.directory.map (restrictToCurrentUser mode) }
          else none
      | _ => none
  | .calls a umask, s =>
      if s.Ready a then (Lifecycle.step a s.base).map (s.called a umask) else none

/-- The call of the lifecycle a step is, if it is one. -/
def Step.call : Step ι κ → Option (Lifecycle.Step ι κ)
  | .calls a _ => some a
  | _ => none

/-! ## What a step can do -/

/-- Every outcome of a step. -/
inductive Outcome (s : State ι κ) : Step ι κ → State ι κ → Prop where
  | created {p umask} (hpreparing : Preparing s.base p) (hprogress : s.progress p = .before) :
      Outcome s (.creates p umask)
        { s.progressed p .created with directory := some (s.directory.getD (.made umask)) }
  | read {p mode} (hpreparing : Preparing s.base p) (hmode : s.directory = some mode) :
      Outcome s (.reads p) (s.progressed p (.read mode))
  | restricted {p mode} (hpreparing : Preparing s.base p) (hprogress : s.progress p = .read mode) :
      Outcome s (.restricts p) { s.progressed p .restricted with
        directory := s.directory.map (restrictToCurrentUser mode) }
  | called {a umask base} (hready : s.Ready a) (hstep : Lifecycle.step a s.base = some base) :
      Outcome s (.calls a umask) (s.called a umask base)

/-- **What a step does** is one of the outcomes. -/
theorem outcome_of_step {a : Step ι κ} {s t : State ι κ} (h : step a s = some t) :
    Outcome s a t := by
  cases a with
  | creates p umask =>
    simp only [step] at h
    split at h
    · rename_i hcond
      cases h
      exact .created hcond.1 hcond.2
    · cases h
  | reads p =>
    simp only [step] at h
    split at h
    · rename_i hcond
      obtain ⟨mode, hmode, rfl⟩ := Option.map_eq_some_iff.mp h
      exact .read hcond.1 hmode
    · cases h
  | restricts p =>
    simp only [step] at h
    split at h
    · rename_i mode hprogress
      split at h
      · rename_i hpreparing
        cases h
        exact .restricted hpreparing hprogress
      · cases h
    · cases h
  | calls a umask =>
    simp only [step] at h
    split at h
    · rename_i hready
      obtain ⟨base, hstep, rfl⟩ := Option.map_eq_some_iff.mp h
      exact .called hready hstep
    · cases h

/-- **A run is a run of the lifecycle** with more between its calls. -/
theorem run_lifecycle {steps : List (Step ι κ)} {s t : State ι κ}
    (hrun : Run.after step steps s = some t) :
    Run.after Lifecycle.step (steps.filterMap Step.call) s.base = some t.base := by
  have hsilent (a : Step ι κ) (s t : State ι κ) (hcall : a.call = none)
      (hstep : step a s = some t) : t.base = s.base := by
    cases outcome_of_step hstep with
    | called => cases hcall
    | _ => rfl
  have hseen (a : Step ι κ) (b : Lifecycle.Step ι κ) (s t : State ι κ) (hcall : a.call = some b)
      (hstep : step a s = some t) : Lifecycle.step b s.base = some t.base := by
    cases outcome_of_step hstep with
    | called hready hbase =>
      cases hcall
      exact hbase
    | _ => cases hcall
  exact Run.after_filterMap hsilent hseen hrun

/-! ## Nobody else reaches the socket -/

/-- Only the user can reach what is in the directory. -/
def State.Restricted (s : State ι κ) : Prop := ∃ mode, s.directory = some mode ∧ mode.Private

/-- How a call of the lifecycle moves the process that makes it. -/
inductive Moves : Lifecycle.Step ι κ → ι → Daemon → Daemon → Prop
  | openLock {i} : Moves (.openLock i) i .idle .opened
  | locked {i} : Moves (.tryLock i) i .opened .locked
  | alreadyRunning {i} : Moves (.tryLock i) i .opened .alreadyRunning
  | removeLeftover {i} : Moves (.removeLeftover i) i .locked .unlinked
  | bind {i} : Moves (.bind i) i .unlinked .bound
  | restrict {i} : Moves (.restrict i) i .bound .running
  | dropListener {i removed} : Moves (.dropListener i removed) i .running .closing
  | dropGuard {i before} : Moves (.dropGuard i) i before .exited
  | fails {i before} : Moves (.fails i) i before .exited
  | failing {i before} (hguarding : before.Guarding) : Moves (.fails i) i before .failing
  | crashes {i before} : Moves (.crashes i) i before .crashed

/-- **What a call does to a process**: nothing, or one of its moves. -/
theorem daemon_of_step {a : Lifecycle.Step ι κ} {s t : Lifecycle.State ι κ}
    (h : Lifecycle.step a s = some t) (i : ι) :
    t.daemon i = s.daemon i ∨ Moves a i (s.daemon i) (t.daemon i) := by
  have hmoved {j : ι} {daemon : Daemon} (hj : Moves a j (s.daemon j) daemon) :
      (s.moved j daemon).daemon i = s.daemon i ∨
        Moves a i (s.daemon i) ((s.moved j daemon).daemon i) := by
    by_cases hij : i = j
    · subst hij
      right
      simpa only [Lifecycle.State.moved, Function.update_self] using hj
    · left
      simp only [Lifecycle.State.moved, Function.update_of_ne hij]
  cases a with
  | openLock j =>
    simp only [Lifecycle.step] at h
    split at h <;> cases h
    rename_i hdaemon
    exact hmoved (hdaemon ▸ .openLock)
  | tryLock j =>
    simp only [Lifecycle.step] at h
    split at h
    · rename_i hdaemon
      split at h <;> cases h
      · exact hmoved (hdaemon ▸ .locked)
      · exact hmoved (hdaemon ▸ .alreadyRunning)
    · cases h
  | removeLeftover j =>
    simp only [Lifecycle.step] at h
    split at h <;> cases h
    rename_i hdaemon
    exact hmoved (hdaemon ▸ .removeLeftover)
  | bind j =>
    simp only [Lifecycle.step] at h
    split at h <;> cases h
    rename_i hdaemon _
    exact hmoved (hdaemon ▸ .bind)
  | restrict j =>
    simp only [Lifecycle.step] at h
    split at h <;> cases h
    rename_i hdaemon
    exact hmoved (hdaemon ▸ .restrict)
  | dropListener j removed =>
    simp only [Lifecycle.step] at h
    split at h <;> cases h
    rename_i hdaemon
    exact hmoved (hdaemon ▸ .dropListener)
  | dropGuard j =>
    simp only [Lifecycle.step] at h
    split at h <;> cases h <;> exact hmoved .dropGuard
  | fails j =>
    simp only [Lifecycle.step] at h
    split at h <;> cases h
    · exact hmoved .fails
    · exact hmoved .fails
    all_goals
      rename_i hdaemon
      exact hmoved (.failing (hdaemon ▸ trivial))
  | crashes j =>
    cases h
    exact hmoved .crashes
  | queryTries k =>
    simp only [Lifecycle.step] at h
    split at h
    · split at h <;> cases h <;> exact .inl rfl
    · cases h
  | queryCrashes k =>
    cases h
    exact .inl rfl
  | queryOpens k | queryDrops k | queryFails k =>
    simp only [Lifecycle.step] at h
    split at h <;> cases h <;> exact .inl rfl

/-- A status query gets to the lock by opening its file. -/
theorem query_of_step {a : Lifecycle.Step ι κ} {s t : Lifecycle.State ι κ}
    (h : Lifecycle.step a s = some t) {k : κ} (hopened : t.query k = .opened) :
    s.query k = .opened ∨ a = .queryOpens k := by
  have hasked {j : κ} {query : Query} (hj : query = .opened → a = .queryOpens j)
      (hnow : (s.asked j query).query k = .opened) : s.query k = .opened ∨ a = .queryOpens k := by
    by_cases hkj : k = j
    · subst hkj
      simp only [Lifecycle.State.asked, Function.update_self] at hnow
      exact .inr (hj hnow)
    · simp only [Lifecycle.State.asked, Function.update_of_ne hkj] at hnow
      exact .inl hnow
  cases a with
  | queryOpens j =>
    simp only [Lifecycle.step] at h
    split at h <;> cases h
    exact hasked (fun _ => rfl) hopened
  | queryTries j =>
    simp only [Lifecycle.step] at h
    split at h
    · split at h <;> cases h <;> exact hasked (by simp) hopened
    · cases h
  | queryDrops j | queryFails j =>
    simp only [Lifecycle.step] at h
    split at h <;> cases h <;> exact hasked (by simp) hopened
  | queryCrashes j =>
    cases h
    exact hasked (by simp) hopened
  | crashes j =>
    cases h
    exact .inl hopened
  | tryLock j =>
    simp only [Lifecycle.step] at h
    split at h
    · split at h <;> cases h <;> exact .inl hopened
    · cases h
  | openLock j | removeLeftover j | bind j | restrict j | dropListener j removed | dropGuard j
  | fails j =>
    simp only [Lifecycle.step] at h
    split at h <;> cases h <;> exact .inl hopened

/-- **What a call does to the address**: nothing, or it clears it, or the
caller binds it. -/
theorem socket_of_step {a : Lifecycle.Step ι κ} {s t : Lifecycle.State ι κ}
    (h : Lifecycle.step a s = some t) :
    t.socket = s.socket ∨ t.socket = .absent ∨
      ∃ i, a = .bind i ∧ s.daemon i = .unlinked ∧ t.socket = .boundBy i := by
  cases a with
  | bind j =>
    simp only [Lifecycle.step] at h
    split at h <;> cases h
    rename_i hdaemon _
    exact .inr (.inr ⟨j, rfl, hdaemon, rfl⟩)
  | removeLeftover j =>
    simp only [Lifecycle.step] at h
    split at h <;> cases h
    exact .inr (.inl rfl)
  | dropListener j removed =>
    simp only [Lifecycle.step] at h
    split at h <;> cases h
    cases removed
    · exact .inl rfl
    · exact .inr (.inl rfl)
  | tryLock j | queryTries j =>
    simp only [Lifecycle.step] at h
    split at h
    · split at h <;> cases h <;> exact .inl rfl
    · cases h
  | crashes j | queryCrashes k =>
    cases h
    exact .inl rfl
  | openLock j | restrict j | dropGuard j | fails j | queryOpens k | queryDrops k | queryFails k =>
    simp only [Lifecycle.step] at h
    split at h <;> cases h <;> exact .inl rfl

/-- A process that got past its lock file, and is alive. -/
def Passed (daemon : Daemon) : Prop := daemon ≠ .idle ∧ daemon ≠ .exited ∧ daemon ≠ .crashed

omit [DecidableEq ι] [DecidableEq κ] in
/-- A process gets past its lock file by opening it. -/
theorem Moves.passed {a : Lifecycle.Step ι κ} {i : ι} {before after : Daemon}
    (h : Moves a i before after) (hpassed : Passed after) : Passed before ∨ a = .openLock i := by
  cases h with
  | openLock => exact .inr rfl
  | dropGuard | fails => exact absurd rfl hpassed.2.1
  | crashes => exact absurd rfl hpassed.2.2
  | failing hguarding =>
    left
    cases before <;> first | exact hguarding.elim | simp [Passed]
  | _ => exact .inl (by simp [Passed])

omit [DecidableEq ι] [DecidableEq κ] in
/-- A process begins to run by narrowing its socket. -/
theorem Moves.running {a : Lifecycle.Step ι κ} {i : ι} {before after : Daemon}
    (h : Moves a i before after) (hrunning : after = .running) : a = .restrict i := by
  cases h with
  | restrict => rfl
  | _ => cases hrunning

/-- The invariant: whoever found or made the directory private, it is, and
whoever relied on it can; a daemon that is running has narrowed its own
socket. -/
structure Guarded (s : State ι κ) : Prop where
  sole : Sole s.base
  read : ∀ p mode, s.progress p = .read mode →
    ∃ now, s.directory = some now ∧ (mode.Private → now.Private)
  restricted : ∀ p, s.progress p = .restricted → s.Restricted
  passed : ∀ i, Passed (s.base.daemon i) → s.Restricted
  asked : ∀ k, s.base.query k = .opened → s.Restricted
  socket : ∀ i, s.base.socket = .boundBy i → s.Restricted
  mode : ∀ i, s.base.daemon i = .running → s.socketMode = 0o600

omit [DecidableEq ι] [DecidableEq κ] in
theorem guarded_start {socket : Socket ι} (hsocket : ∀ i, socket ≠ .boundBy i)
    (directory : Option Mode) (socketMode : Mode) :
    Guarded (State.start socket directory socketMode : State ι κ) where
  sole := Lifecycle.sole_start socket
  read _ _ h := by cases h
  restricted _ h := by cases h
  passed _ h := absurd rfl h.1
  asked _ h := by cases h
  socket i h := absurd h (hsocket i)
  mode _ h := by cases h

namespace Guarded

variable {s t : State ι κ}

/-- A party made the directory ready one step further, and what was private
stays so. -/
theorem progressed (h : Guarded s) {p : Holder ι κ}
    {progress : Progress} {directory : Option Mode}
    (hnow : ∀ now, s.directory = some now →
      ∃ now', directory = some now' ∧ (now.Private → now'.Private))
    (hread : ∀ mode, progress = .read mode →
      ∃ now, directory = some now ∧ (mode.Private → now.Private))
    (hrestricted : progress = .restricted → ∃ now, directory = some now ∧ now.Private) :
    Guarded { s.progressed p progress with directory } := by
  have hkeep (hs : s.Restricted) :
      State.Restricted { s.progressed p progress with directory } := by
    obtain ⟨now, hdirectory, hprivate⟩ := hs
    obtain ⟨now', hdirectory', himp⟩ := hnow now hdirectory
    exact ⟨now', hdirectory', himp hprivate⟩
  refine ⟨h.sole, fun q mode hq => ?_, fun q hq => ?_, fun i hi => hkeep (h.passed i hi),
    fun k hk => hkeep (h.asked k hk), fun i hi => hkeep (h.socket i hi), h.mode⟩
  · by_cases hqp : q = p
    · subst hqp
      simp only [State.progressed, Function.update_self] at hq
      exact hread mode hq
    · simp only [State.progressed, Function.update_of_ne hqp] at hq
      obtain ⟨now, hdirectory, hprivate⟩ := h.read q mode hq
      obtain ⟨now', hdirectory', himp⟩ := hnow now hdirectory
      exact ⟨now', hdirectory', fun hmode => himp (hprivate hmode)⟩
  · by_cases hqp : q = p
    · subst hqp
      simp only [State.progressed, Function.update_self] at hq
      exact hrestricted hq
    · simp only [State.progressed, Function.update_of_ne hqp] at hq
      exact hkeep (h.restricted q hq)

/-- A call of the lifecycle touches the directory's mode nowhere, and
begins only where it needs no readying or has it. -/
theorem called (h : Guarded s) {a : Lifecycle.Step ι κ} {umask : Mode}
    {base : Lifecycle.State ι κ} (hready : s.Ready a)
    (hbase : Lifecycle.step a s.base = some base) : Guarded (s.called a umask base) := by
  -- what was readied is used up, and nothing else is new
  have hprogress (p : Holder ι κ) : (s.called a umask base).progress p = .before ∨
      (s.called a umask base).progress p = s.progress p := by
    simp only [State.called]
    cases readies a with
    | none => exact .inr rfl
    | some q =>
      by_cases hpq : p = q
      · subst hpq
        exact .inl (Function.update_self _ _ _)
      · exact .inr (Function.update_of_ne hpq _ _)
  have hreadied {p : Holder ι κ} (ha : readies a = some p) : s.Restricted :=
    h.restricted p (hready p ha)
  have hpassed (i : ι) (hi : Passed (base.daemon i)) : s.Restricted := by
    rcases daemon_of_step hbase i with hsame | hmoves
    · exact h.passed i (hsame ▸ hi)
    · rcases hmoves.passed hi with hbefore | ha
      · exact h.passed i hbefore
      · exact hreadied (p := .daemon i) (ha ▸ rfl)
  have hasked (k : κ) (hk : base.query k = .opened) : s.Restricted := by
    rcases query_of_step hbase hk with hbefore | ha
    · exact h.asked k hbefore
    · exact hreadied (p := .query k) (ha ▸ rfl)
  refine ⟨h.sole.step hbase, fun p mode hp => ?_, fun p hp => ?_, hpassed, hasked,
    fun i hi => ?_, fun i hi => ?_⟩
  · rcases hprogress p with hq | hq <;> rw [hp] at hq
    · cases hq
    · exact h.read p mode hq.symm
  · rcases hprogress p with hq | hq <;> rw [hp] at hq
    · cases hq
    · exact h.restricted p hq.symm
  · have hi : base.socket = .boundBy i := hi
    rcases socket_of_step hbase with hsame | habsent | ⟨j, -, hdaemon, hbound⟩
    · exact h.socket i (hsame ▸ hi)
    · rw [habsent] at hi
      cases hi
    · exact h.passed j (by simp [Passed, hdaemon])
  · have hi : base.daemon i = .running := hi
    rcases daemon_of_step hbase i with hsame | hmoves
    · have hbefore : s.base.daemon i = .running := hsame ▸ hi
      have hguarding : (s.base.daemon i).Guarding := by rw [hbefore]; trivial
      cases a with
      | bind j =>
        -- the process that is running holds the guard, so no other one is about to bind
        simp only [Lifecycle.step] at hbase
        split at hbase <;> cases hbase
        rename_i hdaemon _ _
        have hj : (s.base.daemon j).Guarding := by rw [hdaemon]; trivial
        obtain rfl := h.sole.consistent.guarding_unique hguarding hj
        rw [hbefore] at hdaemon
        cases hdaemon
      | restrict j => rfl
      | _ => exact h.mode i hbefore
    · obtain rfl := hmoves.running hi
      rfl

/-- **The step lemma**: every write of the directory's mode makes it
private, so a mode that was read private is still so when nothing is
written for it. -/
theorem step (h : Guarded s) {a : Step ι κ} (hstep : Endpoint.step a s = some t) : Guarded t := by
  cases outcome_of_step hstep with
  | created hpreparing hprogress =>
    refine h.progressed (fun now hnow => ?_) (fun mode hmode => ?_) (fun hdone => ?_)
    · exact ⟨now, by rw [hnow]; rfl, id⟩
    · cases hmode
    · cases hdone
  | read hpreparing hmode =>
    refine h.progressed (fun now hnow => ⟨now, hnow, id⟩) (fun mode hread => ?_) (fun hdone => ?_)
    · cases hread
      exact ⟨_, hmode, id⟩
    · cases hdone
  | @restricted p mode hpreparing hprogress =>
    obtain ⟨now, hdirectory, hprivate⟩ := h.read p mode hprogress
    refine h.progressed (fun now hnow => ?_) (fun mode hread => ?_) (fun _ => ?_)
    · refine ⟨restrictToCurrentUser mode now, by rw [hnow]; rfl, fun hnow => ?_⟩
      exact restrictToCurrentUser_private (fun _ => hnow)
    · cases hread
    · exact ⟨restrictToCurrentUser mode now, by rw [hdirectory]; rfl,
        restrictToCurrentUser_private hprivate⟩
  | called hready hbase => exact h.called hready hbase

end Guarded

/-- **Nobody else reaches the socket**: in every state that processes can
reach, under any umasks and from any mode the directory was left with, the
directory is private while the file at the address is bound by a process
that ever was, also between the binding and the narrowing of the socket, and
whenever an attempt on the lock is made, by `start` or by `is_running`; and
the socket of a daemon that is running has the mode 0600 and is its own. -/
theorem endpoint_restricted {socket : Socket ι} (hsocket : ∀ i, socket ≠ .boundBy i)
    {directory : Option Mode} {socketMode : Mode} {steps : List (Step ι κ)} {s : State ι κ}
    (hrun : Run.after step steps (State.start socket directory socketMode) = some s) :
    (∀ i, s.base.socket = .boundBy i → s.Restricted) ∧
    (∀ i, s.base.daemon i = .opened → s.Restricted) ∧
    (∀ k, s.base.query k = .opened → s.Restricted) ∧
    ∀ i, s.base.daemon i = .running →
      s.base.socket = .boundBy i ∧ s.socketMode = 0o600 ∧ s.Restricted := by
  have hguarded : Guarded s := Run.invariant (fun _ _ _ h hstep => h.step hstep)
    (guarded_start hsocket directory socketMode) hrun
  refine ⟨hguarded.socket, fun i hi => hguarded.passed i (by simp [Passed, hi]), hguarded.asked,
    fun i hi => ?_⟩
  have haddress := hguarded.sole.address i (.inr hi)
  exact ⟨haddress, hguarded.mode i hi, hguarded.socket i haddress⟩

/-- A process binds the socket in a directory that was left open to all,
and crashes before it has narrowed it; somebody asks for the status. -/
def crashing : List (Step (Fin 2) Unit) :=
  [.creates (.daemon 0) 0o022, .reads (.daemon 0), .restricts (.daemon 0),
    .calls (.openLock 0) 0o022, .calls (.tryLock 0) 0o022, .creates (.daemon 0) 0o022,
    .reads (.daemon 0), .restricts (.daemon 0), .calls (.removeLeftover 0) 0o022,
    .calls (.bind 0) 0o022, .calls (.crashes 0) 0o022, .creates (.query ()) 0o022,
    .reads (.query ()), .restricts (.query ()), .calls (.queryOpens ()) 0o022]

theorem crashing_isSome :
    (Run.after step crashing (State.start .leftover (some 0o777) 0)).isSome := by decide +kernel

/-- The socket is still there and the lock is about to be attempted, and
nobody else can reach them. -/
theorem endpoint_restricted_crashing :
    let s := (Run.after step crashing (State.start .leftover (some 0o777) 0)).get crashing_isSome
    s.base.socket = .boundBy 0 ∧ s.base.query () = .opened ∧ s.Restricted := by
  intro s
  have hopened : s.base.query () = .opened := by decide +kernel
  have hrestricted := (endpoint_restricted (by simp) (Option.some_get crashing_isSome).symm).2.2.1
  exact ⟨by decide +kernel, hopened, hrestricted () hopened⟩

/-! ## Starting again -/

/-- The directory is made ready, with no other process between. -/
def readying (p : Holder ι κ) (umask : Mode) : List (Step ι κ) :=
  [.creates p umask, .reads p, .restricts p]

/-- `start` up to the attempt on the lock. -/
def attempting (i : ι) (umask : Mode) : List (Step ι κ) :=
  readying (.daemon i) umask ++ [.calls (.openLock i) umask, .calls (.tryLock i) umask]

/-- `bind`. -/
def binding (i : ι) (umask : Mode) : List (Step ι κ) :=
  readying (.daemon i) umask ++
    [.calls (.removeLeftover i) umask, .calls (.bind i) umask, .calls (.restrict i) umask]

def State.readied (s : State ι κ) (p : Holder ι κ) (mode : Mode) : State ι κ :=
  { s.progressed p .restricted with directory := some mode }

theorem after_readying {s : State ι κ} {p : Holder ι κ} (hpreparing : Preparing s.base p)
    (hprogress : s.progress p = .before) (umask : Mode) : ∃ mode : Mode, mode.Private ∧
      ∀ rest, Run.after step (readying p umask ++ rest) s
        = Run.after step rest (s.readied p mode) := by
  refine ⟨restrictToCurrentUser (s.directory.getD (.made umask)) (s.directory.getD (.made umask)),
    restrictToCurrentUser_private id, fun rest => ?_⟩
  simp [readying, Run.after, step, hpreparing, hprogress, State.progressed, State.readied]

theorem after_calls {s : State ι κ} {a : Lifecycle.Step ι κ} {umask : Mode}
    {base : Lifecycle.State ι κ} (hready : s.Ready a) (hbase : Lifecycle.step a s.base = some base)
    (rest : List (Step ι κ)) :
    Run.after step (.calls a umask :: rest) s = Run.after step rest (s.called a umask base) := by
  simp only [Run.after, step, if_pos hready, hbase, Option.map_some, Option.bind_some]

/-- A call that is made with the directory ready. -/
theorem State.ready_readied (s : State ι κ) {p : Holder ι κ} (mode : Mode)
    {a : Lifecycle.Step ι κ} (ha : ∀ q ∈ readies a, q = p) : (s.readied p mode).Ready a := by
  intro q hq
  obtain rfl := ha q hq
  exact Function.update_self _ _ _

/-- A free lock is acquired, and a held one is not. -/
theorem after_attempting {s : State ι κ} {i : ι} (hidle : s.base.daemon i = .idle)
    (hprogress : s.progress (.daemon i) = .before) (umask : Mode) : ∃ t,
      (∀ rest, Run.after step (attempting i umask ++ rest) s = Run.after step rest t) ∧
      t.base.socket = s.base.socket ∧ t.progress (.daemon i) = .before ∧
      t.base.daemon i = if s.base.lock = none then .locked else .alreadyRunning := by
  obtain ⟨mode, -, hready⟩ := after_readying (p := .daemon i) (.inl hidle) hprogress umask
  have hopen : Lifecycle.step (.openLock i) (s.readied (.daemon i) mode).base
      = some (s.base.moved i .opened) := by
    simp only [Lifecycle.step, State.readied, State.progressed, hidle]
  have hready' := s.ready_readied (p := .daemon i) mode (a := .openLock i) (by simp [readies])
  generalize hopened : (s.readied (.daemon i) mode).called (.openLock i) umask
    (s.base.moved i .opened) = opened
  have hdaemon : opened.base.daemon i = .opened := by
    rw [← hopened]
    exact Function.update_self _ _ _
  have hlock : opened.base.lock = s.base.lock := by rw [← hopened]; rfl
  have hsocket : opened.base.socket = s.base.socket := by rw [← hopened]; rfl
  have hbefore : opened.progress (.daemon i) = .before := by
    rw [← hopened]
    exact Function.update_self _ _ _
  have hrest (rest : List (Step ι κ)) : Run.after step (attempting i umask ++ rest) s
      = Run.after step (.calls (.tryLock i) umask :: rest) opened := by
    rw [attempting, List.append_assoc, hready, List.cons_append, List.singleton_append,
      after_calls hready' hopen, hopened]
  have hneeds : opened.Ready (.tryLock i) := by simp [State.Ready, readies]
  cases hheld : s.base.lock with
  | none =>
    have htry : Lifecycle.step (.tryLock i) opened.base
        = some { opened.base.moved i .locked with lock := some (.daemon i) } := by
      simp only [Lifecycle.step, hdaemon, hlock, hheld]
    exact ⟨_, fun rest => (hrest rest).trans (after_calls hneeds htry rest), hsocket, hbefore,
      Function.update_self _ _ _⟩
  | some holder =>
    have htry : Lifecycle.step (.tryLock i) opened.base
        = some (opened.base.moved i .alreadyRunning) := by
      simp only [Lifecycle.step, hdaemon, hlock, hheld]
    exact ⟨_, fun rest => (hrest rest).trans (after_calls hneeds htry rest), hsocket, hbefore,
      Function.update_self _ _ _⟩

/-- Behind a lock that was acquired, the endpoint is bound, whatever was
left at the address. -/
theorem after_binding {s : State ι κ} {i : ι} (hlocked : s.base.daemon i = .locked)
    (hprogress : s.progress (.daemon i) = .before) (umask : Mode) : ∃ t,
      Run.after step (binding i umask) s = some t ∧ t.base.daemon i = .running := by
  obtain ⟨mode, -, hready⟩ := after_readying (p := .daemon i) (.inr hlocked) hprogress umask
  have hremove : Lifecycle.step (.removeLeftover i) (s.readied (.daemon i) mode).base
      = some { s.base.moved i .unlinked with socket := .absent } := by
    simp only [Lifecycle.step, State.readied, State.progressed, hlocked]
  have hready' := s.ready_readied (p := .daemon i) mode (a := .removeLeftover i)
    (by simp [readies])
  generalize hunlinked : (s.readied (.daemon i) mode).called (.removeLeftover i) umask
    { s.base.moved i .unlinked with socket := .absent } = unlinked
  have hdaemon : unlinked.base.daemon i = .unlinked := by
    rw [← hunlinked]
    exact Function.update_self _ _ _
  have hsocket : unlinked.base.socket = .absent := by rw [← hunlinked]; rfl
  have hbind : Lifecycle.step (.bind i) unlinked.base
      = some { unlinked.base.moved i .bound with socket := .boundBy i } := by
    simp only [Lifecycle.step, hdaemon, hsocket]
  generalize hbound : unlinked.called (.bind i) umask
    { unlinked.base.moved i .bound with socket := .boundBy i } = bound
  have hdaemon' : bound.base.daemon i = .bound := by
    rw [← hbound]
    exact Function.update_self _ _ _
  have hrestrict : Lifecycle.step (.restrict i) bound.base
      = some (bound.base.moved i .running) := by
    simp only [Lifecycle.step, hdaemon']
  refine ⟨bound.called (.restrict i) umask (bound.base.moved i .running), ?_,
    Function.update_self _ _ _⟩
  rw [binding, hready, after_calls hready' hremove, hunlinked,
    after_calls (by simp [State.Ready, readies]) hbind, hbound,
    after_calls (by simp [State.Ready, readies]) hrestrict]
  rfl

/-- **A crash never keeps the next daemon out**: from every state that
processes can reach, wherever the others crashed or stand, a `start` that
nobody comes between becomes the daemon, bound at the address with its own
socket and the directory private, when nobody holds the guard; and where
somebody does it reports a daemon and leaves the address alone. -/
theorem start_recovers {socket : Socket ι} (hsocket : ∀ i, socket ≠ .boundBy i)
    {directory : Option Mode} {socketMode : Mode} {steps : List (Step ι κ)} {s : State ι κ}
    (hrun : Run.after step steps (State.start socket directory socketMode) = some s) {i : ι}
    (hidle : s.base.daemon i = .idle) (hprogress : s.progress (.daemon i) = .before)
    (umask : Mode) :
    ((∀ p, ¬ Lifecycle.HoldsGuard s.base p) → ∃ t,
      Run.after step (attempting i umask ++ binding i umask) s = some t ∧
      t.base.daemon i = .running ∧ t.base.socket = .boundBy i ∧ t.socketMode = 0o600 ∧
      t.Restricted) ∧
    ∀ p, Lifecycle.HoldsGuard s.base p → ∃ t,
      Run.after step (attempting i umask) s = some t ∧
      t.base.daemon i = .alreadyRunning ∧ t.base.socket = s.base.socket := by
  have hguarded : Guarded s := Run.invariant (fun _ _ _ h hstep => h.step hstep)
    (guarded_start hsocket directory socketMode) hrun
  have hconsistent := hguarded.sole.consistent
  obtain ⟨tried, htried, haddress, hbefore, hdaemon⟩ := after_attempting hidle hprogress umask
  constructor
  · intro hfree
    have hlock : s.base.lock = none := by
      cases hlock : s.base.lock with
      | none => rfl
      | some holder =>
        cases holder with
        | daemon j => exact absurd ((hconsistent.daemon j).mpr hlock) (hfree (.daemon j))
        | query k => exact absurd ((hconsistent.query k).mpr hlock) (hfree (.query k))
    rw [if_pos hlock] at hdaemon
    obtain ⟨t, ht, hrunning⟩ := after_binding hdaemon hbefore umask
    have hafter : Run.after step (attempting i umask ++ binding i umask) s = some t :=
      (htried _).trans ht
    have hguarded' : Guarded t := Run.invariant (fun _ _ _ h hstep => h.step hstep) hguarded hafter
    have hbound := hguarded'.sole.address i (.inr hrunning)
    exact ⟨t, hafter, hrunning, hbound, hguarded'.mode i hrunning, hguarded'.socket i hbound⟩
  · intro p hp
    have hlock : s.base.lock ≠ none := by
      cases p with
      | daemon j => simp [(hconsistent.daemon j).mp hp]
      | query k => simp [(hconsistent.query k).mp hp]
    rw [if_neg hlock] at hdaemon
    exact ⟨tried, by simpa [Run.after] using htried [], hdaemon, haddress⟩

/-- The second process takes over. -/
theorem start_recovers_crashing :
    let s := (Run.after step crashing (State.start .leftover (some 0o777) 0)).get crashing_isSome
    ∃ t, Run.after step (attempting 1 0o022 ++ binding 1 0o022) s = some t ∧
      t.base.daemon 1 = .running ∧ t.base.socket = .boundBy 1 ∧ t.socketMode = 0o600 ∧
      t.Restricted := by
  intro s
  have hfree (p : Holder (Fin 2) Unit) : ¬ Lifecycle.HoldsGuard s.base p := by
    cases p with
    | daemon i =>
      have hdaemons : ∀ i, ¬ (s.base.daemon i).Guarding := by decide +kernel
      exact hdaemons i
    | query k =>
      have hqueries : ∀ k, s.base.query k ≠ .holding := by decide +kernel
      exact hqueries k
  exact (start_recovers (by simp) (Option.some_get crashing_isSome).symm (by decide +kernel)
    (by decide +kernel) 0o022).1 hfree

end Endpoint

end NostdbServer
