import NostdbServer.Json

/-!
# Engine — what the daemon calls of `nostdb_core`

The Engine is a dependency, so it is a parameter: its types, and one
function for each call `src/serve.rs` and `src/session.rs` make. Only
`commit` and `rollback` can hand a database back changed, which is what a
transaction's borrow of its database allows.

`Lawful` is what the daemon relies on. `Engine.journal` is a concrete
engine that keeps the laws, for running the loops on.
-/

namespace NostdbServer

/-- `cypher::QueryError`, as far as a reply carries it. -/
structure QueryError where
  code : String
  message : String
  deriving DecidableEq, Repr

/-- The Engine. A query runs with no parameters, as every call here has
it. -/
structure Engine where
  Database : Type
  Transaction : Type
  Query : Type
  QueryResult : Type
  WriteSummary : Type
  Deadline : Type
  /-- `cypher::parse`. -/
  parse : String → Except QueryError Query
  /-- `Transaction::begin`. -/
  begin : Database → Except String Transaction
  baseGeneration : Transaction → UInt64
  /-- What the run gives, and the transaction it leaves. -/
  runCancellable : Transaction → Query → Deadline → Except QueryError QueryResult × Transaction
  writes : Transaction → WriteSummary
  isEmpty : WriteSummary → Bool
  /-- The new generation, and the database the attempt leaves. -/
  commit : Transaction → Database → Except String UInt64 × Database
  /-- The database a discarded transaction leaves. -/
  rollback : Transaction → Database → Database
  rowCount : QueryResult → Nat
  /-- `ResultEnvelope::new(…).to_json()`. -/
  envelope : QueryResult → UInt64 → Option WriteSummary → Value

namespace Engine

/-- A discarded transaction leaves the committed state. -/
abbrev Discards (E : Engine) : Prop :=
  ∀ transaction database, E.rollback transaction database = database

/-- What the daemon relies on: a run that fails leaves its transaction as
it was, a rollback leaves the committed state, and so does a commit that
fails. -/
structure Lawful (E : Engine) : Prop where
  run_error : ∀ transaction query deadline error,
    (E.runCancellable transaction query deadline).1 = .error error →
      (E.runCancellable transaction query deadline).2 = transaction
  rollback_discards : E.Discards
  commit_error : ∀ transaction database error,
    (E.commit transaction database).1 = .error error → (E.commit transaction database).2 = database

/-- An engine of rows of text. The statement `MATCH` gives the rows and
changes none; any other text but the empty one is added as a row. -/
def journal : Engine where
  Database := List String
  Transaction := List String × List String
  Query := String
  QueryResult := List String
  WriteSummary := Nat
  Deadline := Unit
  parse text := if text = "" then .error ⟨"SYNTAX", "empty"⟩ else .ok text
  begin rows := .ok (rows, [])
  baseGeneration transaction := UInt64.ofNat transaction.1.length
  runCancellable transaction query _ :=
    let added := if query = "MATCH" then transaction.2 else transaction.2 ++ [query]
    (.ok (transaction.1 ++ added), (transaction.1, added))
  writes transaction := transaction.2.length
  isEmpty count := count == 0
  commit transaction rows := (.ok (UInt64.ofNat (rows.length + 1)), rows ++ transaction.2)
  rollback _ rows := rows
  rowCount := List.length
  envelope rows generation _ :=
    Value.json [("generation", Value.u64 generation), ("rows", .array (rows.map Value.string))]

instance : DecidableEq journal.Database := inferInstanceAs (DecidableEq (List String))

theorem journal_discards : Discards journal := fun _ _ => rfl

theorem journal_lawful : Lawful journal where
  run_error _ _ _ _ h := by cases h
  rollback_discards := journal_discards
  commit_error _ _ _ h := by cases h

end Engine

end NostdbServer
