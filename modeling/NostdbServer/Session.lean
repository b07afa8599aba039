import NostdbServer.Catalog
import NostdbServer.Message

/-!
# Session — the one session of a connection

`src/session.rs`: a `Slot` holds no session or one, so a second
`open_session` cannot be honoured. The database a session owns is the
Engine's and is a type parameter here; `Database::open` is an argument of
`Slot.open`, which also says which path it was called on.

`resolve` is the only check of a request's `session_id`, and its two
lemmas say exactly when it passes and what it refuses with.
-/

namespace NostdbServer

/-- A session's identifier, minted by the daemon. -/
structure SessionId where
  asStr : String
  deriving DecidableEq, Repr

/-- Why a session could not be opened. -/
inductive OpenError where
  | refused (refusal : Refusal)
  | unknownName (name : String)
  | catalog (error : CatalogError)
  | storage (error : String)
  deriving DecidableEq, Repr

def OpenError.display (host : Host) : OpenError → String
  | refused refusal => refusal.display
  | unknownName name => "the catalog holds no database named " ++ name
  | catalog error => error.display host
  | storage error => error

/-- An open session: one database, and the name it was reached by. -/
structure Session (Database : Type) where
  id : SessionId
  name : String
  path : Path
  database : Database

/-- A connection's session, of which there is at most one. -/
structure Slot (Database : Type) where
  session : Option (Session Database)
  next : UInt64

namespace Slot

variable {Database : Type}

/-- A connection with no session yet. -/
def new : Slot Database := ⟨none, 1⟩

/-- The identifier the slot mints next. -/
def nextId (slot : Slot Database) : SessionId := ⟨"s" ++ toString slot.next.toNat⟩

/-- Opens the connection's session. The list holds the paths
`Database::open` was called on: none, or the entry's. -/
def «open» (slot : Slot Database) (openDatabase : Path → Except String Database) (name : String)
    (catalog : Catalog) : Except OpenError SessionId × Slot Database × List Path :=
  match slot.session with
  | some existing =>
      (.error (.refused ⟨.secondSessionOnOneConnection,
        "this connection already holds session " ++ existing.id.asStr
          ++ "; open another connection instead"⟩), slot, [])
  | none =>
      match catalog.get name with
      | none => (.error (.unknownName name), slot, [])
      | some entry =>
          match openDatabase entry.path with
          | .error error => (.error (.storage error), slot, [entry.path])
          | .ok database =>
              -- `next` wraps: the increment is unchecked in a release build
              (.ok slot.nextId, ⟨some ⟨slot.nextId, name, entry.path, database⟩, slot.next + 1⟩,
                [entry.path])

/-- The session a request names, checked against the one the connection
holds; a request that names none gets that one. -/
def resolve (slot : Slot Database) (named : Option String) : Except Refusal (Session Database) :=
  match slot.session with
  | none =>
      .error ⟨.unknownSession, "this connection has no open session; send open_session first"⟩
  | some session =>
      match named.filter (fun named => named != session.id.asStr) with
      | some named =>
          .error ⟨.unknownSession,
            "this connection holds session " ++ session.id.asStr ++ ", and the request names "
              ++ named⟩
      | none => .ok session

/-- Ends the connection's session, reporting whether there was one. -/
def close (slot : Slot Database) : Bool × Slot Database :=
  (slot.session.isSome, { slot with session := none })

def isOpen (slot : Slot Database) : Bool := slot.session.isSome

/-- The slot with its session's database replaced, as a borrow of it
leaves the slot. -/
def holding (slot : Slot Database) (session : Session Database) : Slot Database :=
  { slot with session := some session }

/-! ## What `resolve` lets through -/

/-- A request passes exactly with no identifier or with that of the open
session, and gets that session. -/
theorem resolve_eq_ok_iff {slot : Slot Database} {named : Option String}
    {session : Session Database} :
    slot.resolve named = .ok session ↔
      slot.session = some session ∧ ∀ id, named = some id → id = session.id.asStr := by
  unfold resolve
  cases hs : slot.session with
  | none => simp
  | some held =>
    cases named with
    | none =>
      simp only [Option.filter_none, Except.ok.injEq, Option.some.injEq]
      simp
    | some id =>
      by_cases hid : id = held.id.asStr
      · simp only [hid, Option.filter_some, bne_self_eq_false, Bool.false_eq_true, if_false,
          Except.ok.injEq, Option.some.injEq]
        constructor
        · rintro rfl
          exact ⟨rfl, fun _ h => h.symm⟩
        · exact And.left
      · simp only [Option.filter_some, bne_iff_ne, ne_eq, hid, not_false_eq_true, if_true,
          reduceCtorEq, Option.some.injEq, false_iff, not_and, not_forall]
        rintro rfl
        exact ⟨id, rfl, hid⟩

/-- Every refusal of `resolve` is `unknown_session`. -/
theorem resolve_error {slot : Slot Database} {named : Option String} {refusal : Refusal}
    (h : slot.resolve named = .error refusal) : refusal.rule = .unknownSession := by
  unfold resolve at h
  split at h
  · cases h
    rfl
  · split at h
    · cases h
      rfl
    · cases h

/-! ## What `open` does to the slot -/

/-- A session is opened only where there was none, under the catalog's
own entry of the name. -/
theorem open_ok {slot slot' : Slot Database} {openDatabase : Path → Except String Database}
    {name : String} {catalog : Catalog} {id : SessionId} {paths : List Path}
    (h : slot.open openDatabase name catalog = (.ok id, slot', paths)) :
    slot.session = none ∧ id = slot.nextId ∧ ∃ entry database,
      catalog.get name = some entry ∧ openDatabase entry.path = .ok database ∧
      slot' = ⟨some ⟨slot.nextId, name, entry.path, database⟩, slot.next + 1⟩ ∧
      paths = [entry.path] := by
  unfold «open» at h
  split at h
  · cases h
  · rename_i hnone
    split at h
    · cases h
    · rename_i entry hentry
      split at h
      · cases h
      · rename_i database hopen
        cases h
        exact ⟨hnone, rfl, entry, database, hentry, hopen, rfl, rfl⟩

/-- A failed `open` leaves the slot as it was. -/
theorem open_error {slot slot' : Slot Database} {openDatabase : Path → Except String Database}
    {name : String} {catalog : Catalog} {error : OpenError} {paths : List Path}
    (h : slot.open openDatabase name catalog = (.error error, slot', paths)) : slot' = slot := by
  unfold «open» at h
  split at h
  · cases h
    rfl
  · split at h
    · cases h
      rfl
    · split at h
      · cases h
        rfl
      · cases h

/-- A count is read off the identifier minted at it. -/
theorem minted_injective {m n : Nat} (h : "s" ++ toString m = "s" ++ toString n) : m = n := by
  have hdigits : Nat.toDigits 10 m = Nat.toDigits 10 n := by
    simpa [Nat.repr_eq_ofList_toDigits] using congrArg String.toList h
  rw [← Nat.ofDigitChars_ten_toDigits (n := m), hdigits, Nat.ofDigitChars_ten_toDigits]

/-- Two identifiers minted at different counts differ. -/
theorem nextId_injective {slot slot' : Slot Database} (h : slot.nextId = slot'.nextId) :
    slot.next = slot'.next :=
  UInt64.toNat_inj.mp (minted_injective (congrArg SessionId.asStr h))

end Slot

end NostdbServer
