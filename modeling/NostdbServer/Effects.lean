import NostdbServer.Machine

/-!
# Effects — what a query's reply says of its effect

A query's reply and its effect are decided at different points: the
ceiling on rows is looked at when the reply is built, after a statement
outside a region has been committed and after a region's transaction has
taken the writes in. `reply_tells_effect` states what a client can rely
on: an error other than the ceiling's means the statement left no trace,
an `ok` means its effect stands, and so does the ceiling's error.
-/

namespace NostdbServer

open Response

variable {E : Engine}

namespace Engine

/-- A transaction behind further statements, whatever each of them gives. -/
def later (E : Engine) (transaction : E.Transaction) (statements : List (E.Query × E.Deadline)) :
    E.Transaction :=
  statements.foldl (fun t (query, deadline) => (E.runCancellable t query deadline).2) transaction

/-- What a commit behind further statements gives and publishes. -/
def published (E : Engine) (transaction : E.Transaction) (database : E.Database)
    (statements : List (E.Query × E.Deadline)) : Except String UInt64 × E.Database :=
  E.commit (E.later transaction statements) database

/-- The statement ran on a transaction, giving `result`. -/
def Ran (E : Engine) (statement : String) (transaction : E.Transaction) (result : E.QueryResult)
    (transaction' : E.Transaction) : Prop :=
  ∃ query deadline, E.parse statement = .ok query ∧
    E.runCancellable transaction query deadline = (.ok result, transaction')

/-- The statement ran in a transaction of its own, and `after` holds its
writes: committed where it recorded some, `before` where it recorded none. -/
def Applied (E : Engine) (statement : String) (before : E.Database) (result : E.QueryResult)
    (after : E.Database) : Prop :=
  ∃ transaction transaction', E.begin before = .ok transaction ∧
    E.Ran statement transaction result transaction' ∧
    if E.isEmpty (E.writes transaction') then after = before
    else ∃ generation, E.commit transaction' before = (.ok generation, after)

end Engine

section

variable (env : Env E) (version : UInt64)

/-! ## Outside a region -/

/-- `run_one` either answers an error of its own and leaves the database,
or applies the statement and answers with the envelope. -/
theorem runOne_effect (hE : E.Lawful) (request : Request) (statement : String)
    (session : Session E.Database) (world : World E) :
    let out := runOne env version request statement session world
    (FailedOutright out.1 ∧ out.2.1 = session) ∨
      ∃ result generation writes after, E.Applied statement session.database result after ∧
        out.2.1 = { session with database := after } ∧
        out.1 = envelopeResponse E version request result generation writes env.limits := by
  intro out
  simp only [out, runOne]
  split
  · exact .inl ⟨failedOutright_diagnosticResponse _, rfl⟩
  · rename_i query hparse
    split
    · exact .inl ⟨failedOutright_errorResponse _, rfl⟩
    · rename_i transaction hbegin
      split
      · -- the run failed: the transaction is rolled back
        exact .inl ⟨failedOutright_diagnosticResponse _, by rw [hE.rollback_discards]⟩
      · rename_i result transaction' hrun
        have hran : E.Ran statement transaction result transaction' := ⟨query, _, hparse, hrun⟩
        split
        · rename_i hwrote
          have hempty : E.isEmpty (E.writes transaction') = false := by simpa using hwrote
          split
          · rename_i generation after hcommit
            refine .inr ⟨result, generation, _, after,
              ⟨transaction, transaction', hbegin, hran, ?_⟩,
              rfl, rfl⟩
            simp only [hempty, Bool.false_eq_true, if_false]
            exact ⟨generation, hcommit⟩
          · rename_i error after hcommit
            -- the commit failed: it leaves the database
            have hafter : after = session.database := by
              have h := hE.commit_error transaction' session.database error (by rw [hcommit])
              rwa [hcommit] at h
            exact .inl ⟨failedOutright_errorResponse _, by rw [hafter]⟩
        · rename_i hwrote
          have hempty : E.isEmpty (E.writes transaction') = true := by simpa using hwrote
          refine .inr ⟨result, _, none, _, ⟨transaction, transaction', hbegin, hran, ?_⟩, rfl, rfl⟩
          simp only [hempty, if_true, hE.rollback_discards]

/-- A `query` outside a region: an error of its own leaves the slot, any
other answer comes of a statement that was applied. -/
theorem queryOnce_effect (hE : E.Lawful) (request : Request) (slot : Slot E.Database)
    (world : World E) :
    let out := queryOnce env version request slot world
    (FailedOutright out.1 ∧ out.2.1 = slot) ∨
      ∃ session statement result generation writes after, slot.session = some session ∧
        request.statement = some statement ∧
        E.Applied statement session.database result after ∧
        out.2.1 = slot.holding { session with database := after } ∧
        out.1 = envelopeResponse E version request result generation writes env.limits := by
  intro out
  cases hresolve : slot.resolve request.sessionId with
  | error refusal =>
    refine .inl ⟨?_, ?_⟩ <;> simp only [out, queryOnce, hresolve]
    exact failedOutright_refusalResponse _ _
  | ok session =>
    have hsession := (Slot.resolve_eq_ok_iff.mp hresolve).1
    cases hstatement : request.statement with
    | none =>
      refine .inl ⟨?_, ?_⟩ <;> simp only [out, queryOnce, hresolve, hstatement]
      exact failedOutright_errorResponse _
    | some statement =>
      have hout : out = ((runOne env version request statement session world).1,
          slot.holding (runOne env version request statement session world).2.1,
          (runOne env version request statement session world).2.2) := by
        simp only [out, queryOnce, hresolve, hstatement]
      rw [hout]
      rcases runOne_effect env version hE request statement session world with
        ⟨hfailed, hkept⟩ | ⟨result, generation, writes, after, happlied, hafter, hvalue⟩
      · refine .inl ⟨hfailed, ?_⟩
        simp only [hkept, Slot.holding, ← hsession]
      · exact .inr ⟨session, statement, result, generation, writes, after, hsession, rfl,
          happlied, by simp only [hafter], hvalue⟩

/-! ## Inside a region -/

/-- A statement inside a region either answers an error of its own and
leaves the transaction, or ran on it and answers with the envelope. -/
theorem run_effect (hE : E.Lawful) (request : Request) (statement : String) (region : Region E)
    (world : World E) :
    let out := region.run env version request statement world
    (FailedOutright out.1 ∧ out.2.1 = region.transaction) ∨
      ∃ result writes, E.Ran statement region.transaction result out.2.1 ∧
        out.1 = envelopeResponse E version request result region.base writes env.limits := by
  intro out
  simp only [out, Region.run]
  split
  · exact .inl ⟨failedOutright_diagnosticResponse _, rfl⟩
  · rename_i query hparse
    split
    · rename_i error transaction hrun
      -- the run failed: it leaves its transaction
      have hkept := hE.run_error region.transaction query (deadline env world) error (by rw [hrun])
      rw [hrun] at hkept
      exact .inl ⟨failedOutright_diagnosticResponse _, hkept⟩
    · rename_i result transaction hrun
      exact .inr ⟨result, _, ⟨query, _, hparse, hrun⟩, rfl⟩

/-- What a region's turn leaves of it: the same session, with `transaction`
for its transaction while it goes on, and the committed database as it was
where the turn ended it. -/
def RegionTurn.Leaves (region : Region E) (transaction : E.Transaction) : RegionTurn E → Prop
  | .next region' _ => region'.session = region.session ∧ region'.transaction = transaction
  | .finish _ slot _ => slot = region.slot

/-- What a commit further on publishes, behind any statements: what it
would have published had the region stood at `transaction`. A region the
turn ended has published nothing. -/
def RegionTurn.Publishes (region : Region E) (transaction : E.Transaction) : RegionTurn E → Prop
  | .next region' _ => ∀ statements,
      E.published region'.transaction region'.session.database statements
        = E.published transaction region.session.database statements
  | .finish _ slot _ => slot = region.slot

theorem RegionTurn.Leaves.publishes {region : Region E} {transaction : E.Transaction}
    {turn : RegionTurn E} (h : turn.Leaves region transaction) :
    turn.Publishes region transaction := by
  cases turn with
  | next region' world =>
    obtain ⟨hsession, htransaction⟩ := h
    intro statements
    rw [hsession, htransaction]
  | finish how slot world => exact h

theorem replies_send (world : World E) (value : Value) :
    replies (send env world value).2.log = replies world.log ++ [value] := by
  simp only [send, World.log_logging, replies, List.filterMap_append]
  rfl

theorem answer_leaves (hE : E.Discards) (request : Request) (value : Value) (region : Region E)
    (world : World E) :
    (region.answer env request value world).Leaves region region.transaction ∧
      replies (region.answer env request value world).world.log = replies world.log ++ [value] := by
  have hreplies := replies_send env world value
  unfold Region.answer
  simp only
  split
  · rename_i hsent
    rw [hsent] at hreplies
    refine ⟨?_, ?_⟩
    · simp only [RegionTurn.Leaves, Region.rollback, hE _ _]
      rfl
    · simp only [RegionTurn.world, Region.rollback, World.log_logging, replies,
        List.filterMap_append] at hreplies ⊢
      rw [hreplies]
      exact List.append_nil _
  · rename_i hsent
    rw [hsent] at hreplies
    exact ⟨⟨rfl, rfl⟩, hreplies⟩

theorem replies_run (request : Request) (statement : String) (region : Region E)
    (world : World E) :
    replies (region.run env version request statement world).2.2.log = replies world.log := by
  unfold Region.run
  split
  · rfl
  · split <;>
      (simp only [World.log_running, replies, List.filterMap_append]; exact List.append_nil _)

/-- A `query` inside a region gets one reply: an error of its own that
leaves the transaction, or the envelope of a statement that ran on it. -/
theorem handle_query_effect (hE : E.Lawful) {request : Request}
    (hop : request.operation = .query) (region : Region E) (world : World E) :
    ∃ value, replies (region.handle env version request world).world.log
        = replies world.log ++ [value] ∧
      ((FailedOutright value ∧
          (region.handle env version request world).Leaves region region.transaction) ∨
        ∃ statement result writes transaction, request.statement = some statement ∧
          E.Ran statement region.transaction result transaction ∧
          (region.handle env version request world).Leaves region transaction ∧
          value = envelopeResponse E version request result region.base writes env.limits) := by
  generalize hinner : { region with outstanding := insert request.requestId region.outstanding }
    = inner
  have hhandle : region.handle env version request world
      = inner.query env version request world := by
    simp only [Region.handle, hop, hinner]
  -- the set of outstanding identifiers is all the two regions differ in
  have hsession : inner.session = region.session := by rw [← hinner]
  have htransaction : inner.transaction = region.transaction := by rw [← hinner]
  have hbase : inner.base = region.base := by rw [← hinner]
  have hslot : inner.slot = region.slot := by rw [← hinner]; rfl
  rw [hhandle, Region.query]
  cases hstatement : request.statement with
  | none =>
    refine ⟨_, replies_send env world _, .inl ⟨failedOutright_errorResponse _, ?_⟩⟩
    exact ⟨hsession, htransaction⟩
  | some statement =>
    simp only
    have hrun := run_effect env version hE request statement inner world
    have hreplies := replies_run env version request statement inner world
    generalize inner.run env version request statement world = out at hrun hreplies ⊢
    obtain ⟨value, transaction, world'⟩ := out
    obtain ⟨hleaves, hlog⟩ := answer_leaves env hE.rollback_discards request value
      { inner with transaction } world'
    refine ⟨value, by rw [hlog, hreplies], ?_⟩
    have hleaves' : ({ inner with transaction }.answer env request value world').Leaves region
        transaction := by
      cases hturn : { inner with transaction }.answer env request value world' with
      | next region' world'' =>
        rw [hturn] at hleaves
        exact ⟨hleaves.1.trans hsession, hleaves.2⟩
      | finish how slot world'' =>
        rw [hturn] at hleaves
        exact Eq.trans hleaves hslot
    rcases hrun with ⟨hfailed, hkept⟩ | ⟨result, writes, hran, hvalue⟩
    · refine .inl ⟨hfailed, ?_⟩
      rw [← htransaction, ← hkept]
      exact hleaves'
    · rw [htransaction] at hran
      rw [hbase] at hvalue
      exact .inr ⟨statement, result, writes, transaction, rfl, hran, hleaves', hvalue⟩

/-! ## The reply and the effect -/

/-- An envelope is never an error of its own, and tells by its outcome
whether the ceiling was passed. -/
theorem envelope_tells (request : Request) (result : E.QueryResult) (generation : UInt64)
    (writes : Option E.WriteSummary) :
    let value := envelopeResponse E version request result generation writes env.limits
    ¬ FailedOutright value ∧
      (StoppedByRows value ↔ env.limits.maxResultRows < E.rowCount result) := by
  intro value
  rcases envelopeResponse_cases version request result generation writes env.limits
    with ⟨hok, hrows⟩ | ⟨hstopped, hrows⟩
  · have hnot : ¬ Failed value := fun h => not_ok_of_failed h hok
    exact ⟨fun h => hnot h.1, iff_of_false (fun h => hnot h.1) (Nat.not_lt.mpr hrows)⟩
  · exact ⟨fun h => h.2 hstopped, iff_of_true hstopped hrows⟩

/-- **The reply tells the effect of a query**, outside a region and
inside one. An error other than the ceiling's left no trace: the slot is
as it was, or a later commit publishes what it would have without the
statement. Any other reply comes of a statement that ran and whose effect
stands: applied to the committed database, or held by the region's
transaction. It is the ceiling's error exactly when the rows passed it. -/
theorem reply_tells_effect (hE : E.Lawful) (request : Request) (hop : request.operation = .query) :
    (∀ (slot : Slot E.Database) (world : World E), ∃ value slot' world',
      dispatch env version request slot world = (.send value, slot', world') ∧
      (FailedOutright value → slot' = slot) ∧
      (Ok value ∨ StoppedByRows value → ∃ session statement result after,
        slot.session = some session ∧
        request.statement = some statement ∧
        E.Applied statement session.database result after ∧
        slot' = slot.holding { session with database := after } ∧
        (StoppedByRows value ↔ env.limits.maxResultRows < E.rowCount result))) ∧
    (∀ (region : Region E) (world : World E), ∃ value,
      replies (region.handle env version request world).world.log = replies world.log ++ [value] ∧
      (FailedOutright value →
        (region.handle env version request world).Publishes region region.transaction) ∧
      (Ok value ∨ StoppedByRows value → ∃ statement result transaction,
        request.statement = some statement ∧
        E.Ran statement region.transaction result transaction ∧
        (region.handle env version request world).Publishes region transaction ∧
        (StoppedByRows value ↔ env.limits.maxResultRows < E.rowCount result))) := by
  constructor
  · intro slot world
    refine ⟨_, _, _, by simp only [dispatch, hop]; rfl, ?_⟩
    rcases queryOnce_effect env version hE request slot world with ⟨hfailed, hkept⟩ |
      ⟨session, statement, result, generation, writes, after, hsession, hstatement, happlied,
        hafter,
        hvalue⟩
    · exact ⟨fun _ => hkept, fun h => absurd hfailed (not_failedOutright h)⟩
    · obtain ⟨hnot, hrows⟩ := envelope_tells env version request result generation writes
      rw [hvalue]
      exact ⟨fun h => absurd h hnot, fun _ => ⟨session, statement, result, after, hsession,
        hstatement, happlied, hafter, hrows⟩⟩
  · intro region world
    obtain ⟨value, hreplies, hcases⟩ := handle_query_effect env version hE hop region world
    refine ⟨value, hreplies, ?_⟩
    rcases hcases with ⟨hfailed, hleaves⟩ |
      ⟨statement, result, writes, transaction, hstatement, hran, hleaves, rfl⟩
    · exact ⟨fun _ => hleaves.publishes, fun h => absurd hfailed (not_failedOutright h)⟩
    · obtain ⟨hnot, hrows⟩ := envelope_tells env version request result region.base writes
      exact ⟨fun h => absurd h hnot, fun _ => ⟨statement, result, transaction, hstatement, hran,
        hleaves.publishes, hrows⟩⟩

end

/-- A statement that adds a row to the journal. -/
def addRow : Request where
  serverProtocolVersion := 1
  requestId := "r1"
  sessionId := none
  operation := .query
  database := none
  statement := some "CREATE"

/-- A session over a journal of one row. -/
def journalSlot : Slot Engine.journal.Database :=
  ⟨some ⟨⟨"s1"⟩, "work", Path.ofText "/srv/work", ["first"]⟩, 2⟩

/-- A daemon whose replies carry at most one row. -/
def oneRowEnv : Env Engine.journal :=
  Env.journal (Host.reading []) { Limits.default with maxResultRows := 1 } .notFound

/-- On the journal: the reply is the ceiling's error, and the row is in
the database. -/
theorem reply_tells_effect_journal :
    ∃ slot' world', dispatch oneRowEnv 1 addRow journalSlot { stream := ⟨[], [], [], []⟩ }
        = (.send (rowsResponse 1 addRow 2 1), slot', world') ∧
      ∃ session result after, journalSlot.session = some session ∧
        Engine.journal.Applied "CREATE" session.database result after ∧
        slot' = journalSlot.holding { session with database := after } := by
  obtain ⟨value, slot', world', hdispatch, -, heffect⟩ :=
    (reply_tells_effect oneRowEnv 1 Engine.journal_lawful addRow rfl).1 journalSlot
      { stream := ⟨[], [], [], []⟩ }
  obtain rfl : rowsResponse 1 addRow 2 1 = value := by
    injection hdispatch with hreply
    injection hreply
  obtain ⟨session, statement, result, after, hsession, hstatement, happlied, hafter, -⟩ :=
    heffect (.inr (stoppedByRows_rowsResponse 2 1))
  cases hstatement
  exact ⟨slot', world', hdispatch, session, result, after, hsession, happlied, hafter⟩

/-- An error reply does not always mean that the statement left no trace:
the ceiling is looked at behind the commit. -/
theorem error_reply_after_commit :
    ¬ ∀ (request : Request) (value : Value) (slot slot' : Slot Engine.journal.Database)
      (world world' : World Engine.journal), request.operation = .query →
      dispatch oneRowEnv 1 request slot world = (.send value, slot', world') → Failed value →
      slot'.session.map Session.database = slot.session.map Session.database := by
  intro h
  have hkept := h addRow _ journalSlot _ { stream := ⟨[], [], [], []⟩ } _ rfl rfl
    (stoppedByRows_rowsResponse 2 1).1
  cases hkept

end NostdbServer
