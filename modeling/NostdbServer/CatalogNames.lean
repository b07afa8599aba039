import NostdbServer.Decoding
import NostdbServer.Handling

/-!
# CatalogNames — the wire and the catalog agree on names

Two validators look at a name: `path_shaped` on the wire and `name_problem`
in the catalog. The second is the stricter (`bareName_of_nameProblem`), so
no registered name is refused as a path; and `Database::open` is called on
what the catalog has under the name, or not at all.
-/

namespace NostdbServer

open Message

variable {E : Engine}

/-- The path an event says `Database::open` was called on. -/
def Event.path : Event E → Option Path
  | .opened path => some path
  | _ => none

/-- The paths `Database::open` was called on, in order. -/
def openedPaths (log : List (Event E)) : List Path := log.filterMap Event.path

/-- Replies, ends and begins open nothing. -/
theorem unseen_path : Unseen (Event.path (E := E)) where
  sent _ _ := rfl
  ends e h := by cases e <;> first | rfl | cases h
  began _ := rfl

theorem openedPaths_append (xs ys : List (Event E)) :
    openedPaths (xs ++ ys) = openedPaths xs ++ openedPaths ys := List.filterMap_append

theorem openedPaths_opened (paths : List Path) :
    openedPaths (paths.map (.opened : Path → Event E)) = paths := by
  induction paths with
  | nil => rfl
  | cons path paths ih => exact congrArg (path :: ·) ih

/-! ## Names of the catalog -/

/-- A name the catalog may hold is no path and carries no sigil. -/
theorem bareName_of_nameProblem {name : String} (h : Catalog.nameProblem name = none) :
    BareName name := by
  unfold Catalog.nameProblem at h
  unfold BareName
  cases hchars : name.toList with
  | nil =>
    rw [hchars] at h
    cases h
  | cons first characters =>
    simp only [hchars] at h
    have hempty : name ≠ "" := by
      rintro rfl
      cases hchars
    by_cases hsigil : first = '@'
    · rw [if_pos hsigil] at h
      cases h
    · rw [if_neg hsigil] at h
      by_cases halnum : first.isAlphanum = true
      · rw [if_pos halnum, Option.map_eq_none_iff, List.find?_eq_none] at h
        -- neither a separator nor a dot is a letter or a digit, and no separator stands behind
        have hfirst (c : Char) (hc : c.isAlphanum = false) : first ≠ c := by
          rintro rfl
          rw [hc] at halnum
          cases halnum
        have hbehind (c : Char) (hc : Catalog.nameCharacter c = false) : c ∉ characters := by
          intro hmem
          have := h c hmem
          rw [hc] at this
          exact this rfl
        refine ⟨hempty, by simpa using hsigil, by simpa using hfirst '.' (by decide), ?_, ?_⟩
        · simp only [List.mem_cons, not_or]
          exact ⟨(hfirst '/' (by decide)).symm, hbehind '/' (by decide)⟩
        · simp only [List.mem_cons, not_or]
          exact ⟨(hfirst '\\' (by decide)).symm, hbehind '\\' (by decide)⟩
      · rw [if_neg halnum] at h
        cases h

/-- Every name of a catalog the operations can build may be sent. -/
theorem bareName_of_registered {host : Host} {catalog : Catalog}
    (h : Catalog.Reachable host catalog) {name : String} {entry : Entry}
    (hentry : catalog.get name = some entry) : BareName name :=
  bareName_of_nameProblem (h.wf.names name entry hentry)

theorem reachable_of_load {host : Host} {read : ReadToString} {catalog : Catalog}
    (h : Catalog.load host read = .ok catalog) : Catalog.Reachable host catalog := by
  unfold Catalog.load at h
  cases read with
  | text text =>
    simp only at h
    split at h
    · rename_i hparse
      cases h
      exact .parse hparse
    · cases h
  | notFound =>
    cases h
    exact .default
  | failed error => cases h

/-! ## What is opened -/

/-- The path recorded under a name. -/
def Catalog.recorded (catalog : Catalog) (name : String) : List Path :=
  (catalog.get name).toList.map Entry.path

/-- `Slot::open` opens what the catalog has, where there is no session. -/
theorem Slot.open_paths {Database : Type} (slot : Slot Database)
    (openDatabase : Path → Except String Database) (name : String) (catalog : Catalog) :
    (slot.open openDatabase name catalog).2.2
      = if slot.session.isSome then [] else catalog.recorded name := by
  unfold Slot.open Catalog.recorded
  cases slot.session with
  | some session => rfl
  | none =>
    cases catalog.get name with
    | none => rfl
    | some entry =>
      simp only
      cases openDatabase entry.path <;> rfl

/-- What the state's loop opens for a request. -/
def State.opens (env : Env E) (request : Request) : State E → List Path
  | .main slot _ world =>
      if request.operation = .openSession then
        match request.database, Catalog.load env.host (env.catalogAt world.loads) with
        | some name, .ok catalog => if slot.session.isSome then [] else catalog.recorded name
        | _, _ => []
      else []
  | _ => []

/-- What is opened is recorded under the name the request carries. -/
theorem State.mem_opens {env : Env E} {request : Request} {state : State E} {path : Path}
    (h : path ∈ state.opens env request) :
    request.operation = .openSession ∧ ∃ name catalog entry, request.database = some name ∧
      Catalog.load env.host (env.catalogAt state.world.loads) = .ok catalog ∧
      catalog.get name = some entry ∧ path = entry.path := by
  cases state with
  | main slot outstanding world =>
    simp only [State.opens] at h
    split at h
    · rename_i hop
      refine ⟨hop, ?_⟩
      split at h
      · rename_i name catalog hname hload
        split at h
        · cases h
        · obtain ⟨entry, hentry, rfl⟩ := List.mem_map.mp h
          exact ⟨name, catalog, entry, hname, hload, Option.mem_toList.mp hentry, rfl⟩
      · cases h
    · cases h
  | _ => cases h

section

variable (env : Env E) (version : UInt64)

theorem openedPaths_openSession (request : Request) (slot : Slot E.Database)
    (outstanding : Finset String) (world : World E) (hop : request.operation = .openSession) :
    openedPaths (openSession env version request slot world).2.2.log
      = openedPaths world.log ++ (State.main slot outstanding world).opens env request := by
  simp only [State.opens, if_pos hop, openSession]
  cases request.database with
  | none => exact (List.append_nil _).symm
  | some name =>
    simp only
    cases Catalog.load env.host (env.catalogAt world.loads) with
    | error error => exact openedPaths_append _ _
    | ok catalog =>
      have hpaths := slot.open_paths (env.openAt world.opens) name catalog
      have hattached (slot' : Slot E.Database) (result : Except OpenError SessionId) :
          openedPaths (attachedBy slot' result : List (Event E)) = [] := by
        cases result with
        | error error => rfl
        | ok id => cases hs : slot'.session <;> simp [attachedBy, hs] <;> rfl
      simp only [World.log_logging, World.log_opening, World.log_loading, openedPaths_append,
        openedPaths_opened, hattached, hpaths, List.append_nil]
      exact congrArg (· ++ _) (List.append_nil _)

theorem openedPaths_runOne (request : Request) (statement : String) (session : Session E.Database)
    (world : World E) :
    openedPaths (runOne env version request statement session world).2.2.log
      = openedPaths world.log := by
  have hran {events : List (Event E)} (h : openedPaths events = []) :
      openedPaths (world.running events).log = openedPaths world.log := by
    rw [World.log_running, openedPaths_append, h, List.append_nil]
  simp only [runOne]
  split
  · rfl
  · split
    · rfl
    · split
      · exact hran rfl
      · split
        · split <;> exact hran rfl
        · exact hran rfl

theorem openedPaths_dispatch (request : Request) (slot : Slot E.Database)
    (outstanding : Finset String) (world : World E) :
    openedPaths (dispatch env version request slot world).2.2.log
      = openedPaths world.log ++ (State.main slot outstanding world).opens env request := by
  by_cases hop : request.operation = .openSession
  · simp only [dispatch, hop]
    exact openedPaths_openSession env version request slot outstanding world hop
  · simp only [State.opens, if_neg hop, List.append_nil, dispatch]
    split
    · rename_i hopen
      exact absurd hopen hop
    · exact filterMap_logging rfl world
    · rfl
    · rfl
    · simp only [queryOnce]
      split
      · rfl
      · split
        · rfl
        · exact openedPaths_runOne env version request _ _ world
    · split <;> rfl
    all_goals rfl

theorem openedPaths_handle (request : Request) (region : Region E) (outstanding : Finset String)
    (world : World E) :
    openedPaths (region.handle env version request world).world.log = openedPaths world.log := by
  have hcourse : openedPaths (region.handle env version request world).world.log
      = openedPaths ((region.courseOf env version request outstanding world).settle
          env).world.log := by
    rw [← Region.handle_eq_settle]
    exact (unseen_path.ofRegion outstanding _).symm
  rw [hcourse]
  simp only [Region.courseOf]
  split
  · exact (unseen_path.unchecked _ _ (fun _ => .refl _ _)).trans (filterMap_logging rfl world)
  · exact (unseen_path.unchecked _ _ (fun _ => .refl _ _)).trans (filterMap_logging rfl world)
  · split
    · exact unseen_path.unchecked _ _ (fun _ => .refl _ _)
    · refine (unseen_path.reply _ _ outstanding _).trans ?_
      simp only [Region.run]
      split
      · rfl
      · split <;> exact filterMap_logging rfl world
  all_goals exact unseen_path.reply _ _ outstanding _

/-- Handling a request, in any state. -/
theorem openedPaths_handled (request : Request) (state : State E) :
    openedPaths (state.handled env version request).log
      = openedPaths state.world.log ++ state.opens env request := by
  cases state with
  | main slot outstanding world => exact openedPaths_dispatch env version request slot outstanding _
  | region region outstanding world =>
    exact (openedPaths_handle env version request region outstanding world).trans
      (List.append_nil _).symm
  | ended how slot world => exact (List.append_nil _).symm

/-- **The step lemma**: a step opens what handling the request it heard
opens. -/
theorem openedPaths_step {state : State E} {place : Place} {result : Except FrameError String}
    {world : World E} (hread : state.received env = some (place, result, world)) :
    openedPaths (step env version state).world.log = openedPaths state.world.log
      ++ (match heardRead env state.outstanding result with
        | .request request => state.opens env request
        | _ => []) := by
  rw [openedPaths, unseen_path.step version (fun _ _ => rfl) hread]
  cases heardRead env state.outstanding result with
  | request request =>
    have hhandled := openedPaths_handled env version request
      (state.withWorld (world.logging [.decoded place request]))
    have hopens : (state.withWorld (world.logging [.decoded place request])).opens env request
        = state.opens env request := by
      cases state <;> cases hread <;> rfl
    have hlog : openedPaths (state.withWorld (world.logging [.decoded place request])).world.log
        = openedPaths state.world.log := by
      have hworld : (state.withWorld (world.logging [.decoded place request])).world
          = world.logging [.decoded place request] := by
        cases state <;> rfl
      rw [hworld, openedPaths, filterMap_logging rfl, State.received_log hread]
      exact filterMap_logging rfl state.world
    rw [hopens, hlog] at hhandled
    exact hhandled
  | _ => exact (List.append_nil _).symm

end

/-! ## The two validators -/

/-- A body that passes every check but that of its `database`, asks for a
session on `name`, and is decoded or refused by that name alone. -/
theorem decodeRequest_openSession {host : Host} {body : String} {outstanding : Finset String}
    {name : String}
    (hvalid : ∀ check : Check, check ≠ .databaseName → check.Passes host body outstanding)
    (hop : member host body "operation" = some (.string "open_session"))
    (hname : member host body "database" = some (.string name)) :
    (BareName name ∧ ∃ request, decodeRequest host body outstanding = .ok request ∧
        request.operation = .openSession ∧ request.database = some name) ∨
      ¬ BareName name ∧ ∃ detail,
        decodeRequest host body outstanding = .error ⟨.databaseIsAPath, detail⟩ := by
  rcases decodeRequest_cases host body outstanding with
    ⟨check, detail, hrefused, -, -, -, -, hfails⟩ | ⟨request, hrequest, hread, hpasses⟩
  · right
    have hcheck : check = .databaseName := by
      by_contra hne
      exact hfails (hvalid check hne)
    subst hcheck
    refine ⟨fun hbare => hfails (fun name' hname' => ?_), detail, hrefused⟩
    rw [hname] at hname'
    cases hname'
    exact hbare
  · left
    refine ⟨hpasses .databaseName name hname, request, hrequest, ?_, ?_⟩
    · have hoperation := hread.operation
      rw [hop, Option.some_inj, Value.string.injEq] at hoperation
      exact Option.some_inj.mp ((Operation.parse_eq_some_iff.mpr hoperation).symm.trans rfl)
    · rw [hread.database, hname]
      rfl

/-- A path a connection opened was recorded, in the catalog it then
loaded, under a bare name that a client asked for. -/
def AskedFor (env : Env E) (stream : Stream) (n : Nat) (path : Path) : Prop :=
  ∃ k < n, ∃ request name catalog entry,
    (connection env stream k).nextRequest env = some request ∧
    request.operation = .openSession ∧ request.database = some name ∧ BareName name ∧
    Catalog.load env.host (env.catalogAt (connection env stream k).world.loads) = .ok catalog ∧
    catalog.get name = some entry ∧ path = entry.path

theorem AskedFor.mono {env : Env E} {stream : Stream} {n : Nat} {path : Path}
    (h : AskedFor env stream n path) : AskedFor env stream (n + 1) path := by
  obtain ⟨k, hk, h⟩ := h
  exact ⟨k, Nat.lt_succ_of_lt hk, h⟩

/-- **The run lemma**: what a connection opened was asked for by name. -/
theorem askedFor_run (env : Env E) (stream : Stream) (n : Nat) :
    ∀ path ∈ openedPaths (connection env stream n).world.log, AskedFor env stream n path := by
  induction n with
  | zero =>
    intro path hpath
    have hnone : openedPaths (connection env stream 0).world.log = [] :=
      unseen_path.start (fun _ _ => rfl) stream
    rw [hnone] at hpath
    cases hpath
  | succ n ih =>
    intro path hpath
    rw [connection_succ] at hpath
    cases hread : (connection env stream n).received env with
    | none =>
      rw [step_of_received_none _ hread] at hpath
      exact (ih path hpath).mono
    | some received =>
      obtain ⟨place, result, world⟩ := received
      rw [openedPaths_step env _ hread, List.mem_append] at hpath
      rcases hpath with hpath | hpath
      · exact (ih path hpath).mono
      · cases hheard : heardRead env (connection env stream n).outstanding result with
        | request request =>
          have hnext := nextRequest_of_heard env hread hheard
          simp only [hheard] at hpath
          obtain ⟨hop, name, catalog, entry, hname, hload, hentry, hat⟩ :=
            State.mem_opens hpath
          exact ⟨n, Nat.lt_succ_self n, request, name, catalog, entry, hnext, hop, hname,
            bareName_of_registered (reachable_of_load hload) hentry, hload, hentry, hat⟩
        | _ =>
          simp only [hheard] at hpath
          cases hpath

/-- **The wire and the catalog agree on names.** No name of a catalog the
operations can build is refused as a path, and `Slot::open` opens what is
recorded under a name and nothing else. So an `open_session` that is
otherwise valid, on a connection without a session, opens the path
recorded under its `database`, or nothing where nothing is; and whatever a
connection opened was asked for by a registered name that is no path. -/
theorem wire_opens_by_name (env : Env E) (stream : Stream) :
    (∀ catalog, Catalog.Reachable env.host catalog → ∀ name,
      ((catalog.get name).isSome → pathShaped name = none) ∧
      (¬ BareName name → catalog.recorded name = []) ∧
      ∀ (slot : Slot E.Database) openDatabase, slot.session = none →
        (slot.open openDatabase name catalog).2.2 = catalog.recorded name) ∧
    (∀ version slot outstanding before body world name catalog,
      slot.session = none → receive env .main before = (.ok body, world) →
      (∀ check : Check, check ≠ .databaseName → check.Passes env.host body outstanding) →
      member env.host body "operation" = some (.string "open_session") →
      member env.host body "database" = some (.string name) →
      Catalog.load env.host (env.catalogAt before.loads) = .ok catalog →
      openedPaths (step env version (.main slot outstanding before)).world.log
        = openedPaths before.log ++ catalog.recorded name) ∧
    ∀ n, ∀ path ∈ openedPaths (connection env stream n).world.log, AskedFor env stream n path := by
  have hunrecorded {catalog : Catalog} (hcatalog : Catalog.Reachable env.host catalog)
      {name : String} (hname : ¬ BareName name) : catalog.recorded name = [] := by
    cases hentry : catalog.get name with
    | none => rw [Catalog.recorded, hentry]; rfl
    | some entry => exact absurd (bareName_of_registered hcatalog hentry) hname
  refine ⟨fun catalog hcatalog name => ⟨?_, hunrecorded hcatalog, ?_⟩, ?_, askedFor_run env stream⟩
  · intro hregistered
    obtain ⟨entry, hentry⟩ := Option.isSome_iff_exists.mp hregistered
    exact pathShaped_eq_none_iff.mpr (bareName_of_registered hcatalog hentry)
  · intro slot openDatabase hnone
    rw [Slot.open_paths, hnone]
    rfl
  · intro version slot outstanding before body world name catalog hnone hreceive hvalid hop hname
      hload
    have hread : (State.main slot outstanding before).received env
        = some (.main, .ok body, world) := by
      rw [State.received, hreceive]
    rw [openedPaths_step env version hread]
    simp only [State.world, State.outstanding, heardRead, heardBody]
    congr 1
    rcases decodeRequest_openSession hvalid hop hname with
      ⟨-, request, hrequest, hopens, hdatabase⟩ | ⟨hpath, detail, hrefused⟩
    · simp only [hrequest, State.opens, if_pos hopens, hdatabase, hload, hnone]
      rfl
    · simp only [hrefused]
      exact (hunrecorded (reachable_of_load hload) hpath).symm

end NostdbServer
