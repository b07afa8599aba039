import NostdbServer.Session

/-!
# SlotHistory — the identifiers a slot mints

The slot as its callers see it: calls, and what they answer. `current`
reads off the answers which session is open. The invariant `Kept` says
that the slot holds that one, and that identifiers are numbered in the
order they were issued, which is true while the count does not wrap.
-/

namespace NostdbServer

namespace Slot

variable {Database : Type}

/-- A call on a slot. `resolve` lends the session out, and the borrower
may change its database. -/
inductive Call (Database : Type) where
  | open (openDatabase : Path → Except String Database) (name : String) (catalog : Catalog)
  | close
  | resolve (named : Option String) (change : Database → Database)

/-- What a call answers. -/
inductive Answer (Database : Type) where
  | opened (result : Except OpenError SessionId)
  | closed (held : Bool)
  | resolved (result : Except Refusal (Session Database))

namespace Answer

/-- The identifier an answer hands out. -/
def issues : Answer Database → Option SessionId
  | opened (.ok id) => some id
  | _ => none

/-- The session open behind an answer, by the one open before it. -/
def follow (held : Option SessionId) : Answer Database → Option SessionId
  | opened (.ok id) => some id
  | closed _ => none
  | _ => held

end Answer

/-- One call. -/
def call (slot : Slot Database) : Call Database → Answer Database × Slot Database
  | .open openDatabase name catalog =>
      let (result, slot, _) := slot.open openDatabase name catalog
      (.opened result, slot)
  | .close =>
      let (held, slot) := slot.close
      (.closed held, slot)
  | .resolve named change =>
      match slot.resolve named with
      | .error refusal => (.resolved (.error refusal), slot)
      | .ok session =>
          (.resolved (.ok session),
            slot.holding { session with database := change session.database })

/-- The slot behind a sequence of calls. -/
def calling (slot : Slot Database) (calls : List (Call Database)) : Slot Database :=
  calls.foldl (fun slot call => (slot.call call).2) slot

/-- What a sequence of calls answers. -/
def answers (slot : Slot Database) : List (Call Database) → List (Answer Database)
  | [] => []
  | call :: calls => (slot.call call).1 :: (slot.call call).2.answers calls

/-- The identifiers handed out, in order. -/
def issued (answers : List (Answer Database)) : List SessionId :=
  answers.filterMap Answer.issues

/-- The session open behind the answers: the last one opened, where no
`close` came after it. -/
def current (answers : List (Answer Database)) : Option SessionId :=
  answers.foldl Answer.follow none

/-! ## Calls in sequence -/

theorem calling_append (slot : Slot Database) (xs ys : List (Call Database)) :
    slot.calling (xs ++ ys) = (slot.calling xs).calling ys :=
  List.foldl_append

theorem answers_append (slot : Slot Database) (xs ys : List (Call Database)) :
    slot.answers (xs ++ ys) = slot.answers xs ++ (slot.calling xs).answers ys := by
  induction xs generalizing slot with
  | nil => rfl
  | cons call xs ih =>
    show (slot.call call).1 :: (slot.call call).2.answers (xs ++ ys) = _
    rw [ih]
    rfl

theorem issued_append (xs ys : List (Answer Database)) :
    issued (xs ++ ys) = issued xs ++ issued ys :=
  List.filterMap_append

/-- What is open was issued behind the last close. -/
theorem mem_issued_of_follow {answers : List (Answer Database)} {held : Option SessionId}
    {id : SessionId} (h : answers.foldl Answer.follow held = some id) :
    id ∈ issued answers ∨ held = some id := by
  induction answers generalizing held with
  | nil => exact .inr h
  | cons answer answers ih =>
    have hcons : issued (answer :: answers) = answer.issues.toList ++ issued answers := by
      cases hissues : answer.issues with
      | none => rw [issued, List.filterMap_cons_none hissues]; rfl
      | some id => rw [issued, List.filterMap_cons_some hissues]; rfl
    rw [hcons, List.mem_append]
    rcases ih h with hmem | hheld
    · exact .inl (.inr hmem)
    · cases answer with
      | opened result =>
        cases result with
        | error error => exact .inr hheld
        | ok issued =>
          cases hheld
          exact .inl (.inl List.mem_cons_self)
      | closed was => cases hheld
      | resolved result => exact .inr hheld

/-! ## What a slot keeps of its history -/

/-- The session is one that the calls opened, under the catalog's entry of
its name. -/
def OpenedBy (calls : List (Call Database)) (session : Session Database) : Prop :=
  ∃ before openDatabase catalog entry after,
    calls = before ++ .open openDatabase session.name catalog :: after ∧
      ((new.calling before).open openDatabase session.name catalog).1 = .ok session.id ∧
      catalog.get session.name = some entry ∧ session.path = entry.path

theorem OpenedBy.snoc {calls : List (Call Database)} {session : Session Database}
    (h : OpenedBy calls session) (call : Call Database) : OpenedBy (calls ++ [call]) session := by
  obtain ⟨before, openDatabase, catalog, entry, after, hcalls, hopened, hentry, hpath⟩ := h
  refine ⟨before, openDatabase, catalog, entry, after ++ [call], ?_, hopened, hentry, hpath⟩
  rw [hcalls, List.append_assoc, List.cons_append]

/-- What is true of a slot behind `calls` while the count has not
wrapped. -/
structure Kept (calls : List (Call Database)) : Prop where
  next : (new.calling calls).next.toNat = (issued (new.answers calls)).length + 1
  ids : issued (new.answers calls)
    = (List.range' 1 (issued (new.answers calls)).length).map (fun n => ⟨"s" ++ toString n⟩)
  held : (new.calling calls).session.map Session.id = current (new.answers calls)
  origin : ∀ session, (new.calling calls).session = some session → OpenedBy calls session

theorem kept_nil : Kept ([] : List (Call Database)) where
  next := rfl
  ids := rfl
  held := rfl
  origin := by
    intro session h
    cases h

/-- A call that issues nothing and keeps the session's identity. -/
theorem Kept.same {calls : List (Call Database)} (h : Kept calls) {call : Call Database}
    {answer : Answer Database} {slot' : Slot Database}
    (hcall : (new.calling calls).call call = (answer, slot')) (hissues : answer.issues = none)
    (hfollow : answer.follow (current (new.answers calls)) = slot'.session.map Session.id)
    (hnext : slot'.next = (new.calling calls).next)
    (hsession : ∀ session', slot'.session = some session' →
      ∃ session, (new.calling calls).session = some session ∧ session.id = session'.id ∧
        session.name = session'.name ∧ session.path = session'.path) :
    Kept (calls ++ [call]) := by
  have hcalling : new.calling (calls ++ [call]) = slot' := by
    rw [calling_append]
    exact congrArg Prod.snd hcall
  have hanswers : new.answers (calls ++ [call]) = new.answers calls ++ [answer] := by
    rw [answers_append]
    exact congrArg (fun out => new.answers calls ++ [out.1]) hcall
  have hissued : issued (new.answers (calls ++ [call])) = issued (new.answers calls) := by
    rw [hanswers, issued_append, issued, issued, List.filterMap_cons_none hissues,
      List.filterMap_nil, List.append_nil]
  refine ⟨by rw [hcalling, hissued, hnext, h.next], by rw [hissued]; exact h.ids, ?_, ?_⟩
  · rw [hcalling, hanswers, current, List.foldl_append]
    exact hfollow.symm
  · intro session' hsession'
    rw [hcalling] at hsession'
    obtain ⟨session, hheld, hid, hname, hpath⟩ := hsession session' hsession'
    obtain ⟨before, openDatabase, catalog, entry, after, hcalls, hopened, hentry, hat⟩ :=
      (h.origin session hheld).snoc call
    rw [hname] at hcalls hopened hentry
    exact ⟨before, openDatabase, catalog, entry, after, hcalls, hid ▸ hopened, hentry, hpath ▸ hat⟩

/-- A successful `open` issues the next number. -/
theorem Kept.opened {calls : List (Call Database)} (h : Kept calls)
    {openDatabase : Path → Except String Database} {name : String} {catalog : Catalog}
    {id : SessionId} {slot' : Slot Database} {paths : List Path}
    (hopen : (new.calling calls).open openDatabase name catalog = (.ok id, slot', paths))
    (hwrap : (issued (new.answers calls)).length + 1 < 2 ^ 64 - 1) :
    Kept (calls ++ [.open openDatabase name catalog]) := by
  obtain ⟨-, hid, entry, database, hentry, -, hslot, -⟩ := open_ok hopen
  have hcalling : new.calling (calls ++ [.open openDatabase name catalog]) = slot' := by
    rw [calling_append]
    show ((new.calling calls).open openDatabase name catalog).2.1 = slot'
    rw [hopen]
  have hanswers : new.answers (calls ++ [.open openDatabase name catalog])
      = new.answers calls ++ [.opened (.ok id)] := by
    rw [answers_append]
    show new.answers calls
      ++ [.opened ((new.calling calls).open openDatabase name catalog).1] = _
    rw [hopen]
  have hissued : issued (new.answers (calls ++ [.open openDatabase name catalog]))
      = issued (new.answers calls) ++ [id] := by
    rw [hanswers, issued_append]
    rfl
  have hminted : id = ⟨"s" ++ toString ((issued (new.answers calls)).length + 1)⟩ := by
    rw [hid, nextId, h.next]
  refine ⟨?_, ?_, ?_, ?_⟩
  · rw [hcalling, hslot, hissued, List.length_append, List.length_singleton]
    show ((new.calling calls).next + 1).toNat = _
    rw [UInt64.toNat_add, h.next]
    exact Nat.mod_eq_of_lt (by simp only [UInt64.reduceToNat]; omega)
  · rw [hissued, List.length_append, List.length_singleton, List.range'_1_concat, List.map_append,
      ← h.ids, hminted, Nat.add_comm 1]
    rfl
  · rw [hcalling, hslot, hanswers, current, List.foldl_append, hid]
    rfl
  · intro session hsession
    rw [hcalling, hslot] at hsession
    cases hsession
    exact ⟨calls, openDatabase, catalog, entry, [], rfl, by rw [hopen, hid], hentry, rfl⟩

/-- **The step lemma of slots.** -/
theorem Kept.step {calls : List (Call Database)} (h : Kept calls) (call : Call Database)
    (hwrap : (issued (new.answers (calls ++ [call]))).length < 2 ^ 64 - 1) :
    Kept (calls ++ [call]) := by
  cases call with
  | «open» openDatabase name catalog =>
    cases hopen : (new.calling calls).open openDatabase name catalog with
    | mk result rest =>
      obtain ⟨slot', paths⟩ := rest
      cases result with
      | ok id =>
        refine h.opened hopen ?_
        rw [answers_append, issued_append, List.length_append] at hwrap
        have hone : (issued ((new.calling calls).answers [.open openDatabase name catalog])).length
            = 1 := by
          show (issued [.opened ((new.calling calls).open openDatabase name catalog).1]).length = 1
          rw [hopen]
          rfl
        omega
      | error error =>
        obtain rfl := open_error hopen
        have hcall : (new.calling calls).call (.open openDatabase name catalog)
            = (.opened (.error error), new.calling calls) := by
          simp only [Slot.call, hopen]
        exact h.same hcall rfl h.held.symm rfl (fun session hs => ⟨session, hs, rfl, rfl, rfl⟩)
  | close =>
    refine h.same rfl rfl rfl rfl ?_
    intro session' hsession'
    cases hsession'
  | resolve named change =>
    cases hresolve : (new.calling calls).resolve named with
    | error refusal =>
      have hcall : (new.calling calls).call (.resolve named change)
          = (.resolved (.error refusal), new.calling calls) := by
        simp only [Slot.call, hresolve]
      exact h.same hcall rfl h.held.symm rfl (fun session hs => ⟨session, hs, rfl, rfl, rfl⟩)
    | ok session =>
      have hheld := (resolve_eq_ok_iff.mp hresolve).1
      have hcall : (new.calling calls).call (.resolve named change) = (.resolved (.ok session),
          (new.calling calls).holding { session with database := change session.database }) := by
        simp only [Slot.call, hresolve]
      refine h.same hcall rfl ?_ rfl ?_
      · show current (new.answers calls) = some session.id
        rw [← h.held, hheld]
        rfl
      · intro session' hsession'
        cases hsession'
        exact ⟨session, hheld, rfl, rfl, rfl⟩

/-- **The run lemma of slots.** -/
theorem kept (calls : List (Call Database))
    (hwrap : (issued (new.answers calls)).length < 2 ^ 64 - 1) : Kept calls := by
  induction calls using List.reverseRecOn with
  | nil => exact kept_nil
  | append_singleton calls call ih =>
    refine (ih ?_).step call hwrap
    rw [answers_append, issued_append, List.length_append] at hwrap
    omega

theorem Kept.nodup {calls : List (Call Database)} (h : Kept calls) :
    (issued (new.answers calls)).Nodup := by
  rw [h.ids]
  refine List.Nodup.map (fun m n heq => ?_) List.nodup_range'
  exact minted_injective (congrArg SessionId.asStr heq)

/-- **A slot's identifiers.** Behind any calls with fewer than `2^64 - 1`
successful opens, the identifiers issued are distinct; a request resolves
where it names the session that is open, or names none and one is open, so
a closed session's identifier never resolves again; an `open` that fails
changes nothing; and the session that resolves carries the name and path
its own `open` looked up. -/
theorem slot_history (calls : List (Call Database))
    (hopens : (issued (new.answers calls)).length < 2 ^ 64 - 1) :
    (issued (new.answers calls)).Nodup ∧
    (∀ id, (∃ session, (new.calling calls).resolve (some id) = .ok session) ↔
      current (new.answers calls) = some ⟨id⟩) ∧
    (∀ before after, calls = before ++ .close :: after → ∀ id ∈ issued (new.answers before),
      ∀ session, (new.calling calls).resolve (some id.asStr) ≠ .ok session) ∧
    ((∃ session, (new.calling calls).resolve none = .ok session) ↔
      (current (new.answers calls)).isSome) ∧
    (∀ openDatabase name catalog error slot' paths,
      (new.calling calls).open openDatabase name catalog = (.error error, slot', paths) →
        slot' = new.calling calls) ∧
    ∀ named session, (new.calling calls).resolve named = .ok session →
      current (new.answers calls) = some session.id ∧ OpenedBy calls session := by
  have hkept := kept calls hopens
  have hresolves (id : String) :
      (∃ session, (new.calling calls).resolve (some id) = .ok session) ↔
        current (new.answers calls) = some ⟨id⟩ := by
    rw [← hkept.held]
    constructor
    · rintro ⟨session, h⟩
      obtain ⟨hheld, hid⟩ := resolve_eq_ok_iff.mp h
      rw [hheld, hid id rfl]
      rfl
    · intro h
      obtain ⟨session, hheld, hid⟩ := Option.map_eq_some_iff.mp h
      refine ⟨session, resolve_eq_ok_iff.mpr ⟨hheld, fun id' hid' => ?_⟩⟩
      cases hid'
      rw [hid]
  refine ⟨hkept.nodup, hresolves, ?_, ?_, fun _ _ _ _ _ _ h => open_error h, ?_⟩
  · intro before after hcalls id hid session h
    have hcurrent := (hresolves id.asStr).mp ⟨session, h⟩
    have hnodup := hkept.nodup
    -- what is open was issued behind the close
    rw [hcalls, answers_append] at hcurrent hnodup
    rw [issued_append] at hnodup
    rw [current, List.foldl_append] at hcurrent
    have hlater : id ∈ issued ((new.calling before).answers (.close :: after)) ∨ none = some id :=
      mem_issued_of_follow hcurrent
    have hlater := hlater.resolve_right (by simp)
    exact List.disjoint_of_nodup_append hnodup hid hlater
  · rw [← hkept.held, Option.isSome_map, Option.isSome_iff_exists]
    constructor
    · rintro ⟨session, h⟩
      exact ⟨session, (resolve_eq_ok_iff.mp h).1⟩
    · rintro ⟨session, h⟩
      exact ⟨session, resolve_eq_ok_iff.mpr ⟨h, fun id hid => by cases hid⟩⟩
  · intro named session h
    have hheld := (resolve_eq_ok_iff.mp h).1
    exact ⟨by rw [← hkept.held, hheld]; rfl, hkept.origin session hheld⟩

/-- One database, opened, closed and opened again. -/
def reopened : List (Call Unit) :=
  let catalog := (Catalog.default.insert "work" (Path.ofText "/srv/work")).2
  [.open (fun _ => .ok ()) "work" catalog, .close, .open (fun _ => .ok ()) "work" catalog]

/-- The second session has an identifier of its own, and the first one's
is refused. -/
theorem slot_history_reopened :
    (∃ session, (new.calling reopened).resolve (some "s2") = .ok session) ∧
      ∀ session, (new.calling reopened).resolve (some "s1") ≠ .ok session := by
  obtain ⟨-, hresolves, hclosed, -⟩ := slot_history reopened (by decide +kernel)
  exact ⟨(hresolves "s2").mpr (by decide +kernel),
    hclosed (reopened.take 1) (reopened.drop 2) rfl ⟨"s1"⟩ (by decide +kernel)⟩

end Slot

end NostdbServer
