import NostdbServer.Lib.Ledger
import NostdbServer.Machine

/-!
# Commits — which commits a connection performs

The log of a connection is read as a ledger over its session's database.
Every turn's events are accepted by the ledger the turn starts with and
lead to the ledger of the state it ends in, and every commit a turn owes
it attempts (`Posted`). Run by run this is `commits_eq_demands`: the
attempts are the demands, in order, and every other end of a transaction
puts back what its beginning found.
-/

namespace NostdbServer

open Response Ledger

variable {E : Engine}

/-! ## The log as a ledger -/

/-- The posting an event is. A read of the main loop is a rest: no
transaction may be open there. -/
def Event.posting : Event E → Option (Posting E.Database)
  | .read .main _ => some .rest
  | .attached session => some (.attach session.database)
  | .closed => some .detach
  | .began database => some (.begin database)
  | .committed _ before _ after => some (.publish before after)
  | .rolledBack after => some (.discard after)
  | _ => none

/-- The request a commit was attempted for. -/
def Event.attempted : Event E → Option Request
  | .committed request _ _ _ => some request
  | _ => none

/-- The request that calls for a commit: a statement outside a region
that ran and recorded writes, or a `commit` decoded inside one. -/
def Event.demanded : Event E → Option Request
  | .ran .main request _ (.ok _) true => some request
  | .decoded .region request => if request.operation = .commit then some request else none
  | _ => none

def postings (log : List (Event E)) : List (Posting E.Database) := log.filterMap Event.posting

/-- The commits attempted, in order. -/
def attempts (log : List (Event E)) : List Request := log.filterMap Event.attempted

/-- The commits called for, in order. -/
def demands (log : List (Event E)) : List Request := log.filterMap Event.demanded

/-- A slot outside any transaction. -/
def Slot.ledger {α : Type} (slot : Slot α) : Ledger α := ⟨slot.session.map Session.database, none⟩

/-- A region holds a transaction that began on the database as it is. -/
def Region.ledger (region : Region E) : Ledger E.Database :=
  ⟨some region.session.database, some region.session.database⟩

/-- The ledger of the state a connection is in. -/
def State.ledger : State E → Ledger E.Database
  | .main slot _ _ => slot.ledger
  | .region inner _ _ => inner.ledger
  | .ended _ slot _ => slot.ledger

/-- The log grew by events that post from `l` to `l'` and attempt the
commits they call for. -/
def Posted (l : Ledger E.Database) (w w' : World E) (l' : Ledger E.Database) : Prop :=
  ∃ events, w'.log = w.log ++ events ∧ Posts l (postings events) l' ∧
    attempts events = demands events

namespace Posted

variable {l l' l'' : Ledger E.Database} {w w' w'' : World E}

theorem refl (l : Ledger E.Database) (w : World E) : Posted l w w l :=
  ⟨[], (List.append_nil _).symm, .nil l, rfl⟩

theorem trans (h : Posted l w w' l') (h' : Posted l' w' w'' l'') : Posted l w w'' l'' := by
  obtain ⟨events, hlog, hposts, hcommits⟩ := h
  obtain ⟨events', hlog', hposts', hcommits'⟩ := h'
  refine ⟨events ++ events', by rw [hlog', hlog, List.append_assoc], ?_, ?_⟩
  · simp only [postings, List.filterMap_append] at hposts hposts' ⊢
    exact hposts.append hposts'
  · simp only [attempts, demands, List.filterMap_append] at hcommits hcommits' ⊢
    rw [hcommits, hcommits']

theorem logging {events : List (Event E)} (hposts : Posts l (postings events) l')
    (hcommits : attempts events = demands events) : Posted l w (w.logging events) l' :=
  ⟨events, rfl, hposts, hcommits⟩

/-- The events may stand behind a change of the counters. -/
theorem of_log {events : List (Event E)} (h : w'.log = w.log ++ events)
    (hposts : Posts l (postings events) l') (hcommits : attempts events = demands events) :
    Posted l w w' l' := ⟨events, h, hposts, hcommits⟩

end Posted

section

variable (env : Env E) (version : UInt64)

theorem posted_send (l : Ledger E.Database) (world : World E) (value : Value) :
    Posted l world (send env world value).2 l := .of_log rfl (.nil l) rfl

theorem posted_receive_region (l : Ledger E.Database) (world : World E) :
    Posted l world (receive env .region world).2 l := .of_log rfl (.nil l) rfl

theorem posted_receive_main (slot : Slot E.Database) (world : World E) :
    Posted slot.ledger world (receive env .main world).2 slot.ledger :=
  .of_log rfl (.one (.rest _)) rfl

theorem posted_opened (l : Ledger E.Database) (world : World E) (paths : List Path) :
    Posted l world (world.opening paths) l := by
  have hquiet : postings (paths.map (Event.opened (E := E))) = [] := by
    simp [postings, Event.posting, List.filterMap_map, List.filterMap_eq_nil_iff]
  have hattempts : attempts (paths.map (Event.opened (E := E))) = [] := by
    simp [attempts, Event.attempted, List.filterMap_map, List.filterMap_eq_nil_iff]
  have hdemands : demands (paths.map (Event.opened (E := E))) = [] := by
    simp [demands, Event.demanded, List.filterMap_map, List.filterMap_eq_nil_iff]
  exact .of_log rfl (by rw [hquiet]; exact .nil l) (by rw [hattempts, hdemands])

/-! ## One request outside a region -/

/-- A statement in its own transaction: begun, and either committed, if
it wrote, or put back. -/
theorem posted_runOne (hE : E.Discards) (request : Request) (statement : String)
    (session : Session E.Database) (world : World E) :
    Posted ⟨some session.database, none⟩ world
      (runOne env version request statement session world).2.2
      ⟨some (runOne env version request statement session world).2.1.database, none⟩ := by
  unfold runOne
  split
  · exact .refl _ _
  · split
    · exact .refl _ _
    · simp only
      split
      · simp only [hE _ _]
        exact .of_log rfl (.cons (.begin _) (.one (.discard _))) rfl
      · split
        · rename_i hwrote
          -- the run recorded writes: the commit it calls for is the one attempted
          split <;> exact .of_log rfl (.cons (.begin _) (.one (.publish _ _)))
            (by rw [hwrote]; rfl)
        · rename_i hwrote
          simp only [hE _ _]
          exact .of_log rfl (.cons (.begin _) (.one (.discard _)))
            (by rw [Bool.not_eq_true] at hwrote; rw [hwrote]; rfl)

theorem posted_openSession (request : Request) (slot : Slot E.Database) (world : World E) :
    Posted slot.ledger world (openSession env version request slot world).2.2
      (openSession env version request slot world).2.1.ledger := by
  unfold openSession
  split
  · exact .refl _ _
  · rename_i name _
    simp only
    split
    · exact .of_log rfl (.nil _) rfl
    · rename_i catalog _
      have hloaded (paths : List Path) : Posted slot.ledger world
          ((world.loading (env.catalogAt world.loads)).opening paths) slot.ledger :=
        .trans (.of_log rfl (.nil _) rfl) (posted_opened _ _ paths)
      cases hopen : slot.open (env.openAt world.opens) name catalog with
      | mk result rest =>
        obtain ⟨slot', paths⟩ := rest
        refine (hloaded paths).trans ?_
        cases result with
        | ok id =>
          obtain ⟨hnone, -, entry, database, -, -, rfl, -⟩ := Slot.open_ok hopen
          have hempty : slot.ledger = ⟨none, none⟩ := by rw [Slot.ledger, hnone]; rfl
          rw [hempty]
          exact .logging (.one (.attach database)) rfl
        | error error =>
          obtain rfl := Slot.open_error hopen
          exact .logging (.nil _) rfl

theorem posted_queryOnce (hE : E.Discards) (request : Request) (slot : Slot E.Database)
    (world : World E) :
    Posted slot.ledger world (queryOnce env version request slot world).2.2
      (queryOnce env version request slot world).2.1.ledger := by
  unfold queryOnce
  split
  · exact .refl _ _
  · rename_i session hresolve
    split
    · exact .refl _ _
    · rename_i statement _
      have hledger : slot.ledger = ⟨some session.database, none⟩ := by
        rw [Slot.ledger, (Slot.resolve_eq_ok_iff.mp hresolve).1]
        rfl
      rw [hledger]
      exact posted_runOne env version hE request statement session world

theorem posted_dispatch (hE : E.Discards) (request : Request) (slot : Slot E.Database)
    (world : World E) :
    Posted slot.ledger world (dispatch env version request slot world).2.2
      (dispatch env version request slot world).2.1.ledger := by
  unfold dispatch
  split
  · exact posted_openSession env version request slot world
  · exact .logging (.one (.detach _)) rfl
  · exact .refl _ _
  · exact .refl _ _
  · exact posted_queryOnce env version hE request slot world
  · split <;> exact .refl _ _
  · exact .refl _ _
  · exact .refl _ _

/-! ## One request inside a region -/

/-- A statement inside a region posts nothing. -/
theorem posted_run (request : Request) (statement : String) (region : Region E)
    (world : World E) :
    Posted region.ledger world (region.run env version request statement world).2.2
      region.ledger := by
  unfold Region.run
  split
  · exact .refl _ _
  · split <;> exact .of_log rfl (.nil _) rfl

/-! ## One step -/

/-- What a connection does behind a read is accepted by the ledger it is
done in, and leads to the ledger of the state it leaves. -/
theorem posted_walk (hE : E.Discards) :
    Walk env version (fun s s' => Posted s.ledger s.world s'.world s'.ledger) where
  refl _ := .refl _ _
  trans h h' := h.trans h'
  sent state value := by cases state <;> exact posted_send env _ _ _
  outstanding _ _ _ _ := .refl _ _
  dispatched request slot _ _ :=
    .trans (.logging (.nil _) rfl) (posted_dispatch env version hE request slot _)
  ended _ _ _ _ := .refl _ _
  closed _ _ _ _ := .logging (.one (.detach _)) rfl
  began {request slot session transaction} _ world hresolve _ := by
    have hledger : slot.ledger = ⟨some session.database, none⟩ := by
      rw [Slot.ledger, (Slot.resolve_eq_ok_iff.mp hresolve).1]
      rfl
    simp only [State.ledger, hledger]
    exact .logging (.one (.begin _)) rfl
  decoded region _ world hop :=
    .logging (.nil _) (by simp [attempts, demands, Event.attempted, Event.demanded, hop])
  answered _ _ _ _ := .refl _ _
  ran request statement region _ world := posted_run env version request statement region world
  committed region _ world hop := by
    -- decoding `commit` calls for the commit that is attempted next
    refine .of_log (List.append_assoc _ _ _) (.one (.publish _ _)) ?_
    simp [attempts, demands, List.filterMap_cons, Event.attempted, Event.demanded, hop]
  rolledBack region _ world := by
    simp only [hE _ _]
    exact .logging (.one (.discard _)) rfl

/-- **The step lemma**: what one frame puts behind the log is accepted by
the ledger it is read in and leads to the ledger of the next state. -/
theorem posted_step (hE : E.Discards) (state : State E) :
    Posted state.ledger state.world (step env version state).world
      (step env version state).ledger := by
  cases hread : state.received env with
  | none =>
    rw [step_of_received_none version hread]
    exact .refl _ _
  | some read =>
    obtain ⟨place, result, world⟩ := read
    have hwalk := (posted_walk env version hE).step hread
    refine Posted.trans ?_ hwalk
    cases state with
    | main slot outstanding before =>
      cases hread
      exact posted_receive_main env slot before
    | region inner outstanding before =>
      cases hread
      exact posted_receive_region env inner.ledger before
    | ended how slot before => cases hread

end

/-! ## Whole runs -/

/-- The handshake posts nothing. -/
theorem posted_start (env : Env E) (stream : Stream) :
    Posted Ledger.empty { stream } (start env stream).2.world (start env stream).2.ledger := by
  have hreceive : Posted Ledger.empty { stream } (receive env .opening { stream }).2 Ledger.empty :=
    .of_log rfl (.nil _) rfl
  have hhandshake : Posted Ledger.empty { stream } (handshake env { stream }).2 Ledger.empty := by
    rcases handshake_world env { stream } with h | ⟨value, h⟩ <;> rw [h]
    · exact hreceive
    · exact hreceive.trans (posted_send env _ _ _)
  rcases start_cases env stream with ⟨how, h⟩ | h <;> rw [h] <;> exact hhandshake

/-- **The run lemma**: the log of a connection, wherever it stands, is
accepted from the empty ledger and leads to the ledger of its state. -/
theorem posted_serveConnection (hE : E.Discards) (env : Env E) (fuel : Nat) (stream : Stream) :
    Posted Ledger.empty { stream } (serveConnection env fuel stream).world
      (serveConnection env fuel stream).ledger := by
  let inv (state : State E) : Prop := Posted Ledger.empty { stream } state.world state.ledger
  have hstep : ∀ state, inv state → inv (step env (start env stream).1 state) :=
    fun state h => h.trans (posted_step env _ hE state)
  obtain ⟨n, hn⟩ := serveConnection_eq_connection env fuel stream
  rw [hn]
  exact connection_invariant hstep (posted_start env stream) n

/-- **The commits of a connection are those called for**, one attempt
each and in order. Its log is a ledger: only a commit attempt changes what
the session's database holds; a transaction that was begun ends by a
commit attempt or is put back, what is put back is what the beginning
found, and none is open when the main loop reads. -/
theorem commits_eq_demands (hE : E.Discards) (env : Env E) (fuel : Nat) (stream : Stream) :
    let state := serveConnection env fuel stream
    let log := state.world.log
    attempts log = demands log ∧
    Posts Ledger.empty (postings log) state.ledger ∧
    state.ledger.contents = contentsAfter none (postings log) ∧
    (∀ front found next back, postings log = front ++ .begin found :: next :: back →
      next = .discard found ∨ ∃ after, next = .publish found after) ∧
    (∀ front after back, postings log = front ++ .discard after :: back →
      ∃ earlier, front = earlier ++ [.begin after]) ∧
    (∀ front back, postings log = front ++ .rest :: back →
      ∃ contents, Posts Ledger.empty front ⟨contents, none⟩) := by
  obtain ⟨events, hlog, hposts, hcommits⟩ := posted_serveConnection hE env fuel stream
  obtain rfl : (serveConnection env fuel stream).world.log = events := hlog
  refine ⟨hcommits, hposts, hposts.contents_eq, ?_, ?_, ?_⟩
  · intro front found next back h
    exact (h ▸ hposts).begin_inv
  · intro front after back h
    exact (h ▸ hposts).discard_inv rfl
  · intro front back h
    exact (h ▸ hposts).rest_inv

/-- A client that adds a row by itself, commits another in a transaction,
rolls a third one back, and stays. -/
def addsThree : List Value :=
  [sayHello, ask "o" "open_session" [("database", .string "work")],
    ask "q1" "query" [("statement", .string "x")],
    ask "b1" "begin" [], ask "q2" "query" [("statement", .string "y")], ask "c1" "commit" [],
    ask "b2" "begin" [], ask "q3" "query" [("statement", .string "z")], ask "r1" "rollback" [],
    ask "s1" "status" [], ask "s2" "status" []]

/-- A daemon that reads its frames, under the default limits. -/
def threeEnv : Env Engine.journal := Env.conversing Limits.default workCatalog addsThree

/-- What the database holds behind the two commits. -/
def bothRows : Engine.journal.Database := ["x", "y"]

/-- What its log comes to. -/
theorem log_addsThree :
    let log := (serveConnection threeEnv 6 (.saying addsThree)).world.log
    ((attempts log).map Request.requestId, contentsAfter none (postings log),
        decide (Posting.discard bothRows ∈ postings log))
      = (["q1", "c1"], some bothRows, true) := by
  decide +kernel

/-- Two commits are attempted, both rows stand, and the third transaction
put back what it found. -/
theorem commits_eq_demands_three :
    let state := serveConnection threeEnv 6 (.saying addsThree)
    let log := state.world.log
    (attempts log).map Request.requestId = ["q1", "c1"] ∧ attempts log = demands log ∧
      state.ledger.contents = some bothRows ∧
      ∃ earlier back, postings log
        = earlier ++ .begin bothRows :: .discard bothRows :: back := by
  intro state log
  obtain ⟨hcommits, -, hcontents, -, hdiscard, -⟩ :=
    commits_eq_demands Engine.journal_discards threeEnv 6 (.saying addsThree)
  obtain ⟨hattempts, hlog⟩ := Prod.mk.inj log_addsThree
  obtain ⟨hrows, hrolled⟩ := Prod.mk.inj hlog
  obtain ⟨front, back, hsplit⟩ := List.append_of_mem (of_decide_eq_true hrolled)
  obtain ⟨earlier, rfl⟩ := hdiscard front bothRows back hsplit
  refine ⟨hattempts, hcommits, hcontents.trans hrows, earlier, back, hsplit.trans ?_⟩
  rw [List.append_assoc, List.singleton_append]

end NostdbServer
