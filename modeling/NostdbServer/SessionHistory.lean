import NostdbServer.Effects

/-!
# SessionHistory — which session a connection holds

The log keeps every session a connection opened. The invariant `Past`
says what they have to do with the slot: identifiers were minted in
order, each name and path is a catalog entry's, the session held is the
one opened last, and every statement ran on a session of the log.

What rests on it here: a request that names another session's identifier
has no effect on the operations that look at the identifier, and an
identifier is never minted twice (`mismatched_session_id`).
-/

namespace NostdbServer

open Response

variable {E : Engine}

/-- Two records of one session: the database may have changed between
them. -/
def Session.Same {α : Type} (a b : Session α) : Prop :=
  a.id = b.id ∧ a.name = b.name ∧ a.path = b.path

theorem Session.Same.refl {α : Type} (a : Session α) : a.Same a := ⟨rfl, rfl, rfl⟩

theorem Session.Same.trans {α : Type} {a b c : Session α} (h : a.Same b) (h' : b.Same c) :
    a.Same c := ⟨h.1.trans h'.1, h.2.1.trans h'.2.1, h.2.2.trans h'.2.2⟩

/-- The session an event opened. -/
def Event.session : Event E → Option (Session E.Database)
  | .attached session => some session
  | _ => none

/-- The request and the session of a statement that was executed. -/
def Event.execution : Event E → Option (Request × Session E.Database)
  | .ran _ request session _ _ => some (request, session)
  | _ => none

/-- The sessions opened, in order. -/
def sessions (log : List (Event E)) : List (Session E.Database) := log.filterMap Event.session

/-- The statements executed, in order. -/
def executions (log : List (Event E)) : List (Request × Session E.Database) :=
  log.filterMap Event.execution

theorem sessions_append (xs ys : List (Event E)) :
    sessions (xs ++ ys) = sessions xs ++ sessions ys := List.filterMap_append

theorem executions_append (xs ys : List (Event E)) :
    executions (xs ++ ys) = executions xs ++ executions ys := List.filterMap_append

/-! ## Growth that opens nothing -/

/-- The log grew, no session was opened, every statement ran on the
session held, and that session is still held or gone. -/
def Grows (slot : Slot E.Database) (w : World E) (slot' : Slot E.Database) (w' : World E) : Prop :=
  ∃ events, w'.log = w.log ++ events ∧ sessions events = [] ∧ slot'.next = slot.next ∧
    (∀ p ∈ executions events, ∃ session, slot.session = some session ∧ session.Same p.2) ∧
    (∀ session', slot'.session = some session' →
      ∃ session, slot.session = some session ∧ session.Same session')

namespace Grows

variable {slot slot' slot'' : Slot E.Database} {w w' w'' : World E}

theorem refl (slot : Slot E.Database) (w : World E) : Grows slot w slot w :=
  ⟨[], (List.append_nil _).symm, rfl, rfl, by simp [executions],
    fun session h => ⟨session, h, .refl session⟩⟩

theorem trans (h : Grows slot w slot' w') (h' : Grows slot' w' slot'' w'') :
    Grows slot w slot'' w'' := by
  obtain ⟨events, hlog, hopened, hnext, hran, hheld⟩ := h
  obtain ⟨events', hlog', hopened', hnext', hran', hheld'⟩ := h'
  refine ⟨events ++ events', by rw [hlog', hlog, List.append_assoc], ?_, hnext'.trans hnext, ?_, ?_⟩
  · rw [sessions_append, hopened, hopened', List.append_nil]
  · intro p hp
    rw [executions_append, List.mem_append] at hp
    rcases hp with hp | hp
    · exact hran p hp
    · obtain ⟨session', hsession', hsame'⟩ := hran' p hp
      obtain ⟨session, hsession, hsame⟩ := hheld session' hsession'
      exact ⟨session, hsession, hsame.trans hsame'⟩
  · intro session'' hsession''
    obtain ⟨session', hsession', hsame'⟩ := hheld' session'' hsession''
    obtain ⟨session, hsession, hsame⟩ := hheld session' hsession'
    exact ⟨session, hsession, hsame.trans hsame'⟩

/-- Events that open and execute nothing. -/
theorem quiet (slot : Slot E.Database) (events : List (Event E)) (h : w'.log = w.log ++ events)
    (hsessions : sessions events = []) (hexecutions : executions events = []) :
    Grows slot w slot w' :=
  ⟨events, h, hsessions, rfl, by simp [hexecutions], fun session h => ⟨session, h, .refl session⟩⟩

/-- The session ends, or changes its database. -/
theorem replace {slot' : Slot E.Database} (hnext : slot'.next = slot.next)
    (hheld : ∀ session', slot'.session = some session' →
      ∃ session, slot.session = some session ∧ session.Same session')
    (h : Grows slot w slot w') : Grows slot w slot' w' := by
  obtain ⟨events, hlog, hopened, -, hran, -⟩ := h
  exact ⟨events, hlog, hopened, hnext, hran, hheld⟩

end Grows

section

variable (env : Env E) (version : UInt64)

theorem grows_send (slot : Slot E.Database) (world : World E) (value : Value) :
    Grows slot world slot (send env world value).2 := .quiet slot _ rfl rfl rfl

theorem grows_receive (slot : Slot E.Database) (place : Place) (world : World E) :
    Grows slot world slot (receive env place world).2 := .quiet slot _ rfl rfl rfl

theorem grows_queryOnce (request : Request) (slot : Slot E.Database) (world : World E) :
    Grows slot world (queryOnce env version request slot world).2.1
      (queryOnce env version request slot world).2.2 := by
  unfold queryOnce
  split
  · exact .refl _ _
  · rename_i session hresolve
    have hsession := (Slot.resolve_eq_ok_iff.mp hresolve).1
    split
    · exact .refl _ _
    · rename_i statement _
      simp only
      -- whatever `run_one` did, it did to the session held
      have hran {events : List (Event E)} {world' : World E} {database : E.Database}
          (hlog : world'.log = world.log ++ events) (hopened : sessions events = [])
          (hexecuted : executions events = [(request, session)]) :
          Grows slot world (slot.holding { session with database }) world' := by
        refine ⟨events, hlog, hopened, rfl, ?_, ?_⟩
        · intro p hp
          rw [hexecuted, List.mem_singleton] at hp
          exact ⟨session, hsession, hp ▸ .refl session⟩
        · intro session' hsession'
          cases hsession'
          exact ⟨session, hsession, ⟨rfl, rfl, rfl⟩⟩
      have hkept : slot.holding session = slot := by rw [Slot.holding, ← hsession]
      unfold runOne
      split
      · simp only [hkept]
        exact .refl _ _
      · split
        · simp only [hkept]
          exact .refl _ _
        · simp only
          split
          · exact hran rfl rfl rfl
          · split
            · split <;> exact hran rfl rfl rfl
            · exact hran rfl rfl rfl

/-- A region's session stays the same when its database is replaced. -/
theorem Region.same_slotWith (region : Region E) (database : E.Database) :
    ∀ session', (region.slotWith database).session = some session' →
      ∃ session, region.slot.session = some session ∧ session.Same session' := by
  intro session' hsession'
  cases hsession'
  exact ⟨region.session, rfl, rfl, rfl, rfl⟩

theorem grows_run (request : Request) (statement : String) (region : Region E) (world : World E) :
    Grows region.slot world region.slot (region.run env version request statement world).2.2 := by
  have hran {events : List (Event E)} {world' : World E} (hlog : world'.log = world.log ++ events)
      (hopened : sessions events = [])
      (hexecuted : executions events = [(request, region.session)]) :
      Grows region.slot world region.slot world' := by
    refine ⟨events, hlog, hopened, rfl, ?_, fun session h => ⟨session, h, .refl session⟩⟩
    intro p hp
    rw [hexecuted, List.mem_singleton] at hp
    exact ⟨region.session, rfl, hp ▸ .refl region.session⟩
  unfold Region.run
  split
  · exact .refl _ _
  · split <;> exact hran rfl rfl rfl

/-! ## The invariant -/

/-- What the sessions of the log have to do with the slot. -/
structure Past (slot : Slot E.Database) (log : List (Event E)) : Prop where
  next : slot.next = UInt64.ofNat ((sessions log).length + 1)
  ids : ∀ (i : Nat) (session : Session E.Database), (sessions log)[i]? = some session →
    session.id = ⟨"s" ++ toString (UInt64.ofNat (i + 1)).toNat⟩
  entries : ∀ session ∈ sessions log, ∃ n catalog entry,
    Catalog.load env.host (env.catalogAt n) = .ok catalog ∧
    catalog.get session.name = some entry ∧ entry.path = session.path
  held : ∀ session, slot.session = some session →
    ∃ opened, (sessions log).getLast? = some opened ∧ opened.Same session
  ran : ∀ p ∈ executions log, ∃ opened ∈ sessions log, opened.Same p.2

theorem past_new : Past env Slot.new ([] : List (Event E)) where
  next := rfl
  ids := by simp [sessions]
  entries := by simp [sessions]
  held := by simp [Slot.new]
  ran := by simp [executions]

/-- Growth that opens nothing keeps the invariant. -/
theorem Past.grows {slot slot' : Slot E.Database} {w w' : World E} (h : Past env slot w.log)
    (hgrows : Grows slot w slot' w') : Past env slot' w'.log := by
  obtain ⟨events, hlog, hopened, hnext, hran, hheld⟩ := hgrows
  have hsessions : sessions w'.log = sessions w.log := by
    rw [hlog, sessions_append, hopened, List.append_nil]
  refine ⟨by rw [hnext, hsessions, h.next], by rw [hsessions]; exact h.ids,
    by rw [hsessions]; exact h.entries, ?_, ?_⟩
  · intro session' hsession'
    obtain ⟨session, hsession, hsame⟩ := hheld session' hsession'
    obtain ⟨opened, hlast, hsame'⟩ := h.held session hsession
    exact ⟨opened, hsessions ▸ hlast, hsame'.trans hsame⟩
  · intro p hp
    rw [hlog, executions_append, List.mem_append] at hp
    rw [hsessions]
    rcases hp with hp | hp
    · exact h.ran p hp
    · obtain ⟨session, hsession, hsame⟩ := hran p hp
      obtain ⟨opened, hlast, hsame'⟩ := h.held session hsession
      exact ⟨opened, List.mem_of_getLast? hlast, hsame'.trans hsame⟩

/-- An opened session is minted next, from the catalog's entry. -/
theorem Past.open {slot : Slot E.Database} {w w' : World E} {session : Session E.Database}
    (h : Past env slot w.log) (events : List (Event E)) (hlog : w'.log = w.log ++ events)
    (hopened : sessions events = [session]) (hexecuted : executions events = [])
    (hid : session.id = slot.nextId)
    (hentry : ∃ n catalog entry, Catalog.load env.host (env.catalogAt n) = .ok catalog ∧
      catalog.get session.name = some entry ∧ entry.path = session.path) :
    Past env ⟨some session, slot.next + 1⟩ w'.log := by
  have hsessions : sessions w'.log = sessions w.log ++ [session] := by
    rw [hlog, sessions_append, hopened]
  refine ⟨?_, ?_, ?_, ?_, ?_⟩
  · simp [hsessions, h.next, UInt64.ofNat_add]
  · intro i opened hi
    rw [hsessions, List.getElem?_append] at hi
    split at hi
    · exact h.ids i opened hi
    · rename_i hlen
      obtain ⟨hi', rfl⟩ : i = (sessions w.log).length ∧ session = opened := by
        rw [List.getElem?_singleton] at hi
        split at hi
        · cases hi
          exact ⟨by omega, rfl⟩
        · cases hi
      rw [hid, Slot.nextId, h.next, hi']
  · intro opened hmem
    rw [hsessions, List.mem_append, List.mem_singleton] at hmem
    rcases hmem with hmem | rfl
    · exact h.entries opened hmem
    · exact hentry
  · intro held hheld
    cases hheld
    exact ⟨session, by rw [hsessions, List.getLast?_concat], .refl session⟩
  · intro p hp
    rw [hlog, executions_append, hexecuted, List.append_nil] at hp
    obtain ⟨opened, hmem, hsame⟩ := h.ran p hp
    exact ⟨opened, by rw [hsessions]; exact List.mem_append_left _ hmem, hsame⟩

theorem sessions_opened (paths : List Path) :
    sessions (paths.map (Event.opened (E := E))) = [] := by
  simp [sessions, Event.session, List.filterMap_map, List.filterMap_eq_nil_iff]

theorem executions_opened (paths : List Path) :
    executions (paths.map (Event.opened (E := E))) = [] := by
  simp [executions, Event.execution, List.filterMap_map, List.filterMap_eq_nil_iff]

theorem past_openSession {slot : Slot E.Database} {world : World E}
    (h : Past env slot world.log) (request : Request) :
    Past env (openSession env version request slot world).2.1
      (openSession env version request slot world).2.2.log := by
  unfold openSession
  split
  · exact h
  · rename_i name _
    simp only
    split
    · exact h.grows env (.quiet slot [.loaded _] rfl rfl rfl)
    · rename_i catalog hload
      cases hopen : slot.open (env.openAt world.opens) name catalog with
      | mk result rest =>
        obtain ⟨slot', paths⟩ := rest
        cases result with
        | ok id =>
          obtain ⟨-, -, entry, database, hentry, -, rfl, -⟩ := Slot.open_ok hopen
          refine h.open env ([.loaded (env.catalogAt world.loads)] ++
            paths.map .opened ++ [.attached ⟨slot.nextId, name, entry.path, database⟩]) ?_ ?_ ?_ rfl
            ⟨world.loads, catalog, entry, hload, hentry, rfl⟩
          · simp [attachedBy]
          · rw [sessions_append, sessions_append, sessions_opened]
            rfl
          · rw [executions_append, executions_append, executions_opened]
            rfl
        | error error =>
          obtain rfl := Slot.open_error hopen
          refine h.grows env (.quiet slot' ([.loaded (env.catalogAt world.loads)] ++
            paths.map .opened) ?_ ?_ ?_)
          · simp [attachedBy]
          · rw [sessions_append, sessions_opened]
            rfl
          · rw [executions_append, executions_opened]
            rfl

theorem past_closed {slot : Slot E.Database} {world : World E} (h : Past env slot world.log) :
    Past env slot.close.2 (world.logging [.closed]).log := by
  have hclosed : Grows slot world slot.close.2 (world.logging [.closed]) := by
    refine .replace rfl ?_ (.quiet slot [.closed] rfl rfl rfl)
    intro session' hsession'
    cases hsession'
  exact h.grows env hclosed

theorem past_dispatch {slot : Slot E.Database} {world : World E} (h : Past env slot world.log)
    (request : Request) :
    Past env (dispatch env version request slot world).2.1
      (dispatch env version request slot world).2.2.log := by
  unfold dispatch
  split
  · exact past_openSession env version h request
  · exact past_closed env h
  · exact h
  · exact h
  · exact h.grows env (grows_queryOnce env version request slot world)
  · split <;> exact h
  · exact h
  · exact h

/-! ## Runs -/

/-- The slot of the state a connection is in. -/
def State.slot : State E → Slot E.Database
  | .main slot _ _ => slot
  | .region inner _ _ => inner.slot
  | .ended _ slot _ => slot

/-- What a connection does behind a read keeps the invariant. -/
theorem past_walk : Walk env version
    (fun s s' => Past env s.slot s.world.log → Past env s'.slot s'.world.log) where
  refl _ := id
  trans h h' := h' ∘ h
  sent state value h := by cases state <;> exact h.grows env (grows_send env _ _ value)
  outstanding _ _ _ _ := id
  dispatched request slot _ _ h := past_dispatch env version
    (h.grows env (.quiet slot [.decoded .main request] rfl rfl rfl)) request
  ended _ _ _ _ := id
  closed _ _ _ _ := past_closed env
  began {request slot session transaction} _ world hresolve _ h := by
    have hslot : (⟨some session, slot.next⟩ : Slot E.Database) = slot := by
      rw [← (Slot.resolve_eq_ok_iff.mp hresolve).1]
    simp only [State.slot, Region.slot, hslot]
    exact h.grows env (.quiet slot [.began session.database] rfl rfl rfl)
  decoded {request} region _ _ _ h :=
    h.grows env (.quiet region.slot [.decoded .region request] rfl rfl rfl)
  answered _ _ _ _ := id
  ran request statement region _ world h :=
    h.grows env (grows_run env version request statement region world)
  committed {request} region _ world _ h := by
    refine h.grows env (.replace rfl ?_ (.quiet region.slot _ (List.append_assoc _ _ _) rfl rfl))
    exact Region.same_slotWith region _
  rolledBack region _ world h := by
    refine h.grows env (.replace rfl ?_ (.quiet region.slot [.rolledBack _] rfl rfl rfl))
    exact Region.same_slotWith region _

/-- **The step lemma**: handling a frame keeps the invariant. -/
theorem past_step {state : State E} (h : Past env state.slot state.world.log) :
    Past env (step env version state).slot (step env version state).world.log := by
  cases hread : state.received env with
  | none =>
    rw [step_of_received_none version hread]
    exact h
  | some read =>
    obtain ⟨place, result, world⟩ := read
    have hwalk := (past_walk env version).step hread
    refine hwalk ?_
    have hgrows : Grows state.slot state.world state.slot world :=
      .quiet state.slot _ (State.received_log hread) rfl rfl
    cases state <;> exact h.grows env hgrows

end

/-- The handshake opens and executes nothing. -/
theorem grows_start (env : Env E) (stream : Stream) :
    Grows Slot.new { stream } (start env stream).2.slot (start env stream).2.world := by
  have hreceive := grows_receive env Slot.new .opening { stream }
  have hhandshake : Grows Slot.new { stream } Slot.new (handshake env { stream }).2 := by
    rcases handshake_world env { stream } with h | ⟨value, h⟩ <;> rw [h]
    · exact hreceive
    · exact hreceive.trans (grows_send env _ _ _)
  rcases start_cases env stream with ⟨how, h⟩ | h <;> rw [h] <;> exact hhandshake

theorem past_start (env : Env E) (stream : Stream) :
    Past env (start env stream).2.slot (start env stream).2.world.log :=
  (past_new env).grows env (grows_start env stream)

/-- **The run lemma**: the invariant holds wherever a connection stands. -/
theorem past_run (env : Env E) (stream : Stream) (n : Nat) :
    Past env (connection env stream n).slot (connection env stream n).world.log := by
  let inv (state : State E) : Prop := Past env state.slot state.world.log
  have hstep : ∀ state, inv state → inv (step env (start env stream).1 state) :=
    fun state h => past_step env _ h
  exact connection_invariant hstep (past_start env stream) n

/-! ## A request that names another session -/

/-- `resolve` refuses an identifier that is not the held session's. -/
theorem resolve_mismatched {α : Type} {slot : Slot α} {id : String}
    (h : ∀ session, slot.session = some session → id ≠ session.id.asStr) :
    ∃ refusal, refusal.rule = .unknownSession ∧ slot.resolve (some id) = .error refusal := by
  cases hresolve : slot.resolve (some id) with
  | error refusal => exact ⟨refusal, Slot.resolve_error hresolve, rfl⟩
  | ok session =>
    obtain ⟨hsession, hid⟩ := Slot.resolve_eq_ok_iff.mp hresolve
    exact absurd (hid id rfl) (h session hsession)

/-- Below the wrap of the counter, the sessions before the one held had
other identifiers. -/
theorem Past.stale {env : Env E} {slot : Slot E.Database} {log : List (Event E)}
    (h : Past env slot log) (hcount : (sessions log).length < 2 ^ 64 - 1)
    {session : Session E.Database} (hsession : slot.session = some session) :
    ∃ earlier opened, sessions log = earlier ++ [opened] ∧ opened.Same session ∧
      ∀ stale ∈ earlier, stale.id ≠ session.id := by
  obtain ⟨opened, hlast, hsame⟩ := h.held session hsession
  obtain ⟨earlier, hsplit⟩ := List.getLast?_eq_some_iff.mp hlast
  refine ⟨earlier, opened, hsplit, hsame, ?_⟩
  intro stale hstale hid
  obtain ⟨i, hi, hget⟩ := List.getElem_of_mem hstale
  have hi' : (sessions log)[i]? = some stale := by
    rw [hsplit, List.getElem?_append_left hi, List.getElem?_eq_getElem hi, hget]
  have hopened : (sessions log)[earlier.length]? = some opened := by
    rw [hsplit, List.getElem?_concat_length]
  have hlength : (sessions log).length = earlier.length + 1 := by
    rw [hsplit, List.length_append, List.length_singleton]
  -- both identifiers are minted from their place in the list
  have hmint : (⟨none, UInt64.ofNat (i + 1)⟩ : Slot Unit).nextId
      = (⟨none, UInt64.ofNat (earlier.length + 1)⟩ : Slot Unit).nextId := by
    rw [Slot.nextId, Slot.nextId, ← h.ids i stale hi', ← h.ids _ opened hopened, hid, hsame.1]
  have hnat := congrArg UInt64.toNat (Slot.nextId_injective hmint)
  rw [UInt64.toNat_ofNat_of_lt' (by simp [UInt64.size]; omega),
    UInt64.toNat_ofNat_of_lt' (by simp [UInt64.size]; omega)] at hnat
  omega

/-- **A request that names another session's identifier.** Outside a
region, `query` and `begin` are refused with `unknown_session`, `commit`
and `rollback` answered with an error; inside one, so are `begin` and
`close_session`. None of them has an effect. The identifier of a session
closed earlier on the connection is another session's: it is not minted
again, so nothing it is looked at by lets it act on a later session. -/
theorem mismatched_session_id (hE : E.Discards) (env : Env E) (version : UInt64) :
    (∀ (request : Request) (id : String) (slot : Slot E.Database) (world : World E),
      request.sessionId = some id →
      (∀ session, slot.session = some session → id ≠ session.id.asStr) →
      (request.operation = .query ∨ request.operation = .begin → ∃ refusal,
        refusal.rule = .unknownSession ∧ dispatch env version request slot world
          = (.send (refusalResponse version (some request.requestId) refusal), slot, world)) ∧
      (request.operation = .commit ∨ request.operation = .rollback → ∃ value, Failed value ∧
        dispatch env version request slot world = (.send value, slot, world))) ∧
    (∀ (request : Request) (id : String) (region : Region E) (world : World E),
      request.sessionId = some id → id ≠ region.session.id.asStr →
      request.operation = .begin ∨ request.operation = .closeSession → ∃ value, Failed value ∧
        replies (region.handle env version request world).world.log = replies world.log ++ [value] ∧
        (region.handle env version request world).Leaves region region.transaction) ∧
    (∀ stream n session,
      let state := connection env stream n
      (sessions state.world.log).length < 2 ^ 64 - 1 → state.slot.session = some session →
      ∃ earlier opened, sessions state.world.log = earlier ++ [opened] ∧ opened.Same session ∧
        ∀ stale ∈ earlier, stale.id ≠ session.id) := by
  refine ⟨?_, ?_, ?_⟩
  · intro request id slot world hid hother
    obtain ⟨refusal, hrule, hresolve⟩ := resolve_mismatched hother
    constructor
    · rintro (hop | hop) <;> refine ⟨refusal, hrule, ?_⟩
      · simp only [dispatch, hop, queryOnce, hid, hresolve]
      · simp only [dispatch, hop, hid, hresolve]
    · rintro (hop | hop) <;>
        exact ⟨_, (failedOutright_errorResponse _).1, by simp only [dispatch, hop]; rfl⟩
  · intro request id region world hid hother hop
    have hleaves {value : Value} (hvalue : Failed value)
        (hturn : region.handle env version request world
          = { region with outstanding := insert request.requestId region.outstanding }.answer env
              request value world) :
        ∃ value, Failed value ∧ replies (region.handle env version request world).world.log
            = replies world.log ++ [value] ∧
          (region.handle env version request world).Leaves region region.transaction := by
      obtain ⟨hleaves, hreplies⟩ := answer_leaves env hE request value { region with
        outstanding := insert request.requestId region.outstanding } world
      rw [hturn]
      refine ⟨value, hvalue, hreplies, ?_⟩
      cases hanswer : { region with
          outstanding := insert request.requestId region.outstanding }.answer env request value
            world <;> rw [hanswer] at hleaves <;> exact hleaves
    rcases hop with hop | hop <;>
      exact hleaves (failedOutright_errorResponse _).1 (by simp only [Region.handle, hop]; rfl)
  · intro stream n session state hcount hsession
    exact (past_run env stream n).stale hcount hsession

/-- A query that names session `s9`, where `s1` is held, is refused. -/
theorem mismatched_session_id_query :
    ∃ refusal, refusal.rule = .unknownSession ∧
      dispatch oneRowEnv 1 { addRow with sessionId := some "s9" } journalSlot
          { stream := ⟨[], [], [], []⟩ }
        = (.send (refusalResponse 1 (some "r1") refusal), journalSlot,
            { stream := ⟨[], [], [], []⟩ }) := by
  refine ((mismatched_session_id Engine.journal_discards oneRowEnv 1).1
    { addRow with sessionId := some "s9" } "s9" journalSlot _ rfl ?_).1 (.inl rfl)
  intro session hsession
  cases hsession
  decide

/-- `commit` outside a region does not look at the identifier: where `s1`
is held and `s9` named, there is no transaction to commit, and the reply
names no rule. -/
theorem commit_outside_names_no_rule :
    ¬ ∀ (request : Request) (id : String) (slot : Slot Engine.journal.Database)
      (world : World Engine.journal), request.sessionId = some id →
      (∀ session, slot.session = some session → id ≠ session.id.asStr) →
      request.operation ∈ [.query, .begin, .commit, .rollback, .closeSession] →
      ∃ refusal, refusal.rule = .unknownSession ∧ dispatch oneRowEnv 1 request slot world
        = (.send (refusalResponse 1 (some request.requestId) refusal), slot, world) := by
  intro h
  have hother : ∀ session, journalSlot.session = some session → "s9" ≠ session.id.asStr := by
    intro session hsession
    cases hsession
    decide
  obtain ⟨refusal, -, hdispatch⟩ := h { addRow with operation := .commit, sessionId := some "s9" }
    "s9" journalSlot { stream := ⟨[], [], [], []⟩ } rfl hother (by decide)
  injection hdispatch with hreply
  injection hreply with hvalue
  have hrule : (refusalResponse 1 (some addRow.requestId) refusal).get "rule"
      = some (.string refusal.rule.asStr) := rule_refusalResponse _ refusal
  rw [← hvalue] at hrule
  simp [errorResponse, get_json, OrdMap.ofList, OrdMap.insertAll, OrdMap.get?_insert] at hrule

end NostdbServer
