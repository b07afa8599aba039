import NostdbServer.Message

/-!
# Decoding — which bodies are requests

`decode_request` makes eight checks in turn. `Check.Passes` says what each
of them asks of the members of the body, and `decode_request_exact` that a
body is a request where all of them pass, and is refused with the rule of
the first that does not.
-/

namespace NostdbServer.Message

/-- The checks of `decode_request`, in the order it makes them. -/
inductive Check where
  | body
  | versionStated
  | versionSpoken
  | noSecondHello
  | requestId
  | operationStated
  | operationPublished
  | databaseName
  deriving DecidableEq, Repr

/-- A name `database` may carry: no path, and no sigil. -/
def BareName (name : String) : Prop :=
  name ≠ "" ∧ name.toList.head? ≠ some '@' ∧ name.toList.head? ≠ some '.' ∧
    '/' ∉ name.toList ∧ '\\' ∉ name.toList

instance (name : String) : Decidable (BareName name) := inferInstanceAs (Decidable (_ ∧ _))

/-- A member of a body; `none` where the body is no JSON object. -/
def member (host : Host) (body name : String) : Option Value :=
  (host.fromStr body).toOption.bind (·.get name)

namespace Check

def order : List Check :=
  [body, versionStated, versionSpoken, noSecondHello, requestId, operationStated,
    operationPublished, databaseName]

/-- The rule a body is refused with that the check turns down. -/
def rule : Check → Rule
  | body => .bodyNotAnObject
  | versionStated => .versionAbsentAfterHandshake
  | versionSpoken => .versionsDoNotIntersect
  | noSecondHello => .firstMessageNotHello
  | requestId => .requestIdAbsent
  | operationStated => .operationAbsent
  | operationPublished => .unknownOperation
  | databaseName => .databaseIsAPath

/-- What a check asks of a body. A version is stated by an unsigned
integer; a `database` of another type than a string is none at all. -/
def Passes (host : Host) (text : String) (outstanding : Finset String) : Check → Prop
  | body => ∃ object, host.fromStr text = .ok (Value.ofMap object)
  | versionStated =>
      ∃ version, member host text "server_protocol_version" = some (Value.u64 version)
  | versionSpoken => ∃ version ∈ SUPPORTED_VERSIONS,
      member host text "server_protocol_version" = some (Value.u64 version)
  | noSecondHello => member host text "message" ≠ some (.string "hello")
  | requestId => ∃ id, member host text "request_id" = some (.string id) ∧ id ≠ "" ∧
      id ∉ outstanding
  | operationStated => ∃ name, member host text "operation" = some (.string name)
  | operationPublished => ∃ operation : Operation,
      member host text "operation" = some (.string operation.asStr)
  | databaseName => ∀ name, member host text "database" = some (.string name) → BareName name

/-- The first of the checks that fails. -/
def FirstToFail (host : Host) (text : String) (outstanding : Finset String) (check : Check) :
    Prop :=
  ∃ before after, order = before ++ check :: after ∧
    (∀ passed ∈ before, passed.Passes host text outstanding) ∧
    ¬ check.Passes host text outstanding

/-- No two checks share a rule. -/
theorem rule_injective : Function.Injective rule := by
  intro check check' h
  cases check <;> cases check' <;> first | rfl | cases h

end Check

/-- The members a request's fields are read from. -/
structure ReadFrom (host : Host) (body : String) (request : Request) : Prop where
  version :
    member host body "server_protocol_version" = some (Value.u64 request.serverProtocolVersion)
  requestId : member host body "request_id" = some (.string request.requestId)
  sessionId : request.sessionId = (member host body "session_id").bind Value.asStr
  operation : member host body "operation" = some (.string request.operation.asStr)
  database : request.database = (member host body "database").bind Value.asStr
  statement : request.statement = (member host body "statement").bind Value.asStr

/-- The members `decode_request` looks at. -/
def MEMBERS : List String :=
  ["server_protocol_version", "message", "request_id", "operation", "database", "session_id",
    "statement"]

/-! ## What each helper asks -/

theorem bind_asStr {value : Option Value} {s : String} :
    value.bind Value.asStr = some s ↔ value = some (.string s) := by
  constructor
  · intro h
    obtain ⟨v, hv, hs⟩ := Option.bind_eq_some_iff.mp h
    rw [hv, Value.eq_string_of_asStr hs]
  · rintro rfl
    rfl

theorem bind_asU64 {value : Option Value} {n : UInt64} :
    value.bind Value.asU64 = some n ↔ value = some (Value.u64 n) := by
  constructor
  · intro h
    obtain ⟨v, hv, hn⟩ := Option.bind_eq_some_iff.mp h
    rw [hv, Value.eq_u64_of_asU64 hn]
  · rintro rfl
    rfl

theorem pathShaped_eq_none_iff {name : String} : pathShaped name = none ↔ BareName name := by
  unfold pathShaped BareName
  split_ifs with hempty hsigil hpath
  · simp [hempty]
  · simp [hsigil]
  · simp only [false_iff]
    rintro ⟨-, -, hdot, hslash, hback⟩
    rcases hpath with h | h | h
    · exact hslash h
    · exact hback h
    · exact hdot h
  · simp only [not_or] at hpath
    obtain ⟨hslash, hback, hdot⟩ := hpath
    exact iff_of_true rfl ⟨hempty, hsigil, hdot, hslash, hback⟩

theorem objectOf_cases (host : Host) (body : String) :
    (∃ detail, objectOf host body = .error ⟨.bodyNotAnObject, detail⟩ ∧
        ¬ ∃ object, host.fromStr body = .ok (Value.ofMap object)) ∨
      ∃ object, objectOf host body = .ok object ∧
        host.fromStr body = .ok (Value.ofMap object) := by
  unfold objectOf
  cases hparsed : host.fromStr body with
  | error error =>
    refine .inl ⟨_, rfl, ?_⟩
    rintro ⟨object, h⟩
    cases h
  | ok value =>
    cases hobject : value.asObject with
    | none =>
      simp only [hobject]
      refine .inl ⟨_, rfl, ?_⟩
      rintro ⟨object, h⟩
      cases h
      rw [Value.asObject_ofMap] at hobject
      cases hobject
    | some object =>
      simp only [hobject]
      exact .inr ⟨object, rfl, by rw [Value.eq_ofMap_of_asObject hobject]⟩

theorem member_of_object {host : Host} {body : String} {object : Map}
    (h : host.fromStr body = .ok (Value.ofMap object)) (name : String) :
    member host body name = object.get? name := by
  rw [member, h]
  exact Value.get_ofMap object name

theorem decodeVersion_cases (object : Map) :
    (∃ detail, decodeVersion object = .error ⟨.versionAbsentAfterHandshake, detail⟩ ∧
        ¬ ∃ version, object.get? "server_protocol_version" = some (Value.u64 version)) ∨
      ∃ version, object.get? "server_protocol_version" = some (Value.u64 version) ∧
        ((∃ detail, decodeVersion object = .error ⟨.versionsDoNotIntersect, detail⟩ ∧
            version ∉ SUPPORTED_VERSIONS) ∨
          decodeVersion object = .ok version ∧ version ∈ SUPPORTED_VERSIONS) := by
  unfold decodeVersion
  cases hstated : (object.get? "server_protocol_version").bind Value.asU64 with
  | none =>
    refine .inl ⟨_, rfl, ?_⟩
    rintro ⟨version, hmember⟩
    rw [bind_asU64.mpr hmember] at hstated
    cases hstated
  | some version =>
    refine .inr ⟨version, bind_asU64.mp hstated, ?_⟩
    by_cases hspoken : SUPPORTED_VERSIONS.contains version
    · exact .inr ⟨if_pos hspoken, List.contains_iff_mem.mp hspoken⟩
    · refine .inl ⟨_, if_neg hspoken, fun hmem => ?_⟩
      exact hspoken (List.contains_iff_mem.mpr hmem)

theorem decodeRequestId_cases (object : Map) (outstanding : Finset String) :
    (∃ detail, decodeRequestId object outstanding = .error ⟨.requestIdAbsent, detail⟩ ∧
        ¬ ∃ id, object.get? "request_id" = some (.string id) ∧ id ≠ "" ∧ id ∉ outstanding) ∨
      ∃ id, decodeRequestId object outstanding = .ok id ∧
        object.get? "request_id" = some (.string id) ∧ id ≠ "" ∧ id ∉ outstanding := by
  unfold decodeRequestId
  cases hstated : (object.get? "request_id").bind Value.asStr with
  | none =>
    refine .inl ⟨_, rfl, ?_⟩
    rintro ⟨id, hmember, -⟩
    rw [bind_asStr.mpr hmember] at hstated
    cases hstated
  | some id =>
    have hmember := bind_asStr.mp hstated
    -- the one string there is decides
    have hdecides (h : ¬ (id ≠ "" ∧ id ∉ outstanding)) :
        ¬ ∃ id, object.get? "request_id" = some (.string id) ∧ id ≠ "" ∧ id ∉ outstanding := by
      rintro ⟨id', hmember', hid⟩
      rw [hmember] at hmember'
      cases hmember'
      exact h hid
    simp only
    split_ifs with hempty hknown
    · exact .inl ⟨_, rfl, hdecides (fun h => h.1 hempty)⟩
    · exact .inl ⟨_, rfl, hdecides (fun h => h.2 hknown)⟩
    · exact .inr ⟨id, rfl, hmember, hempty, hknown⟩

theorem decodeOperation_cases (object : Map) :
    (∃ detail, decodeOperation object = .error ⟨.operationAbsent, detail⟩ ∧
        ¬ ∃ name, object.get? "operation" = some (.string name)) ∨
      ∃ name, object.get? "operation" = some (.string name) ∧
        ((∃ detail, decodeOperation object = .error ⟨.unknownOperation, detail⟩ ∧
            ∀ operation : Operation, name ≠ operation.asStr) ∨
          ∃ operation : Operation, decodeOperation object = .ok operation ∧
            name = operation.asStr) := by
  unfold decodeOperation
  cases hstated : (object.get? "operation").bind Value.asStr with
  | none =>
    refine .inl ⟨_, rfl, ?_⟩
    rintro ⟨name, hmember⟩
    rw [bind_asStr.mpr hmember] at hstated
    cases hstated
  | some name =>
    refine .inr ⟨name, bind_asStr.mp hstated, ?_⟩
    cases hparse : Operation.parse name with
    | none =>
      simp only [hparse]
      refine .inl ⟨_, rfl, fun operation h => ?_⟩
      rw [Operation.parse_eq_some_iff.mpr h] at hparse
      cases hparse
    | some operation =>
      simp only [hparse]
      exact .inr ⟨operation, rfl, Operation.parse_eq_some_iff.mp hparse⟩

theorem decodeDatabase_cases (object : Map) :
    (∃ detail name, decodeDatabase object = .error ⟨.databaseIsAPath, detail⟩ ∧
        object.get? "database" = some (.string name) ∧ ¬ BareName name) ∨
      decodeDatabase object = .ok ((object.get? "database").bind Value.asStr) ∧
        ∀ name, object.get? "database" = some (.string name) → BareName name := by
  unfold decodeDatabase
  cases hstated : (object.get? "database").bind Value.asStr with
  | none =>
    refine .inr ⟨rfl, fun name hmember => ?_⟩
    rw [bind_asStr.mpr hmember] at hstated
    cases hstated
  | some name =>
    have hmember := bind_asStr.mp hstated
    cases hshape : pathShaped name with
    | some problem =>
      simp only [hshape]
      refine .inl ⟨problem, name, rfl, hmember, fun h => ?_⟩
      rw [pathShaped_eq_none_iff.mpr h] at hshape
      cases hshape
    | none =>
      refine .inr ⟨by simp only [hshape], fun name' h => ?_⟩
      rw [hmember] at h
      cases h
      exact pathShaped_eq_none_iff.mp hshape

/-! ## The first check that fails -/

/-- Checks are made in one order, so one of them is the first to fail. -/
theorem Check.FirstToFail.unique {host : Host} {body : String} {outstanding : Finset String}
    {check check' : Check} (h : check.FirstToFail host body outstanding)
    (h' : check'.FirstToFail host body outstanding) : check = check' := by
  obtain ⟨before, after, horder, hpassed, hfails⟩ := h
  obtain ⟨before', after', horder', hpassed', hfails'⟩ := h'
  rw [horder, List.append_eq_append_iff] at horder'
  rcases horder' with ⟨between, rfl, hrest⟩ | ⟨between, rfl, hrest⟩
  · cases between with
    | nil => exact (List.cons.inj hrest).1
    | cons first rest =>
      obtain rfl := (List.cons.inj hrest).1
      exact absurd (hpassed' check (by simp)) hfails
  · cases between with
    | nil => exact (List.cons.inj hrest).1.symm
    | cons first rest =>
      obtain rfl := (List.cons.inj hrest).1
      exact absurd (hpassed check' (by simp)) hfails'

/-- **What `decode_request` does**: it stops at the first check that
fails, or all pass and the request is read. -/
theorem decodeRequest_cases (host : Host) (body : String) (outstanding : Finset String) :
    (∃ (check : Check) (detail : String),
        decodeRequest host body outstanding = .error ⟨check.rule, detail⟩ ∧
        check.FirstToFail host body outstanding) ∨
      ∃ request, decodeRequest host body outstanding = .ok request ∧ ReadFrom host body request ∧
        ∀ check : Check, check.Passes host body outstanding := by
  -- the checks made so far pass, and `check` does not
  have hstops {check : Check} {detail : String} (before after : List Check)
      (horder : Check.order = before ++ check :: after)
      (hresult : decodeRequest host body outstanding = .error ⟨check.rule, detail⟩)
      (hpassed : ∀ passed ∈ before, passed.Passes host body outstanding)
      (hfails : ¬ check.Passes host body outstanding) :
      ∃ (check : Check) (detail : String),
        decodeRequest host body outstanding = .error ⟨check.rule, detail⟩ ∧
        check.FirstToFail host body outstanding :=
    ⟨check, detail, hresult, before, after, horder, hpassed, hfails⟩
  rcases objectOf_cases host body with ⟨detail, hobject, hnot⟩ | ⟨object, hobject, hparsed⟩
  · have hresult : decodeRequest host body outstanding = .error ⟨Check.body.rule, detail⟩ := by
      simp only [decodeRequest, hobject, Check.rule]
    exact .inl (hstops [] _ rfl hresult (by simp) hnot)
  have hmember := member_of_object hparsed
  have hbody : Check.body.Passes host body outstanding := ⟨object, hparsed⟩
  rcases decodeVersion_cases object with ⟨detail, hversion, hnot⟩ | ⟨version, hget, hspoken⟩
  · have hresult : decodeRequest host body outstanding
        = .error ⟨Check.versionStated.rule, detail⟩ := by
      simp only [decodeRequest, hobject, hversion, Check.rule]
    refine .inl (hstops [.body] _ rfl hresult (by simp [hbody]) ?_)
    simpa only [Check.Passes, hmember] using hnot
  have hstated : Check.versionStated.Passes host body outstanding :=
    ⟨version, (hmember _).trans hget⟩
  rcases hspoken with ⟨detail, hversion, hnot⟩ | ⟨hversion, hspeaks⟩
  · have hresult : decodeRequest host body outstanding
        = .error ⟨Check.versionSpoken.rule, detail⟩ := by
      simp only [decodeRequest, hobject, hversion, Check.rule]
    refine .inl (hstops [.body, .versionStated] _ rfl hresult (by simp [hbody, hstated]) ?_)
    rintro ⟨version', hspeaks, hget'⟩
    rw [hmember, hget] at hget'
    cases hget'
    exact hnot hspeaks
  have hspoken : Check.versionSpoken.Passes host body outstanding :=
    ⟨version, hspeaks, (hmember _).trans hget⟩
  by_cases hhello : (object.get? "message").bind Value.asStr = some "hello"
  · obtain ⟨detail, hresult⟩ : ∃ detail, decodeRequest host body outstanding
        = .error ⟨Check.noSecondHello.rule, detail⟩ := by
      simp only [decodeRequest, hobject, hversion, if_pos hhello, Check.rule]
      exact ⟨_, rfl⟩
    refine .inl (hstops [.body, .versionStated, .versionSpoken] _ rfl hresult
      (by simp [hbody, hstated, hspoken]) (fun hpasses => hpasses ?_))
    rw [hmember]
    exact bind_asStr.mp hhello
  have honce : Check.noSecondHello.Passes host body outstanding := by
    intro h
    rw [hmember] at h
    exact hhello (bind_asStr.mpr h)
  rcases decodeRequestId_cases object outstanding with
    ⟨detail, hrequestId, hnot⟩ | ⟨id, hrequestId, hid, hfresh⟩
  · have hresult : decodeRequest host body outstanding
        = .error ⟨Check.requestId.rule, detail⟩ := by
      simp only [decodeRequest, hobject, hversion, if_neg hhello, hrequestId, Check.rule]
    refine .inl (hstops [.body, .versionStated, .versionSpoken, .noSecondHello] _ rfl hresult
      (by simp [hbody, hstated, hspoken, honce]) ?_)
    simpa only [Check.Passes, hmember] using hnot
  have hidPasses : Check.requestId.Passes host body outstanding :=
    ⟨id, (hmember _).trans hid, hfresh⟩
  rcases decodeOperation_cases object with ⟨detail, hoperation, hnot⟩ | ⟨name, hname, hpublished⟩
  · have hresult : decodeRequest host body outstanding
        = .error ⟨Check.operationStated.rule, detail⟩ := by
      simp only [decodeRequest, hobject, hversion, if_neg hhello, hrequestId, hoperation,
        Check.rule]
    refine .inl (hstops [.body, .versionStated, .versionSpoken, .noSecondHello, .requestId] _ rfl
      hresult (by simp [hbody, hstated, hspoken, honce, hidPasses]) ?_)
    simpa only [Check.Passes, hmember] using hnot
  have hnamed : Check.operationStated.Passes host body outstanding :=
    ⟨name, (hmember _).trans hname⟩
  rcases hpublished with ⟨detail, hoperation, hnot⟩ | ⟨operation, hoperation, rfl⟩
  · have hresult : decodeRequest host body outstanding
        = .error ⟨Check.operationPublished.rule, detail⟩ := by
      simp only [decodeRequest, hobject, hversion, if_neg hhello, hrequestId, hoperation,
        Check.rule]
    refine .inl (hstops [.body, .versionStated, .versionSpoken, .noSecondHello, .requestId,
      .operationStated] _ rfl hresult (by simp [hbody, hstated, hspoken, honce, hidPasses, hnamed])
      ?_)
    rintro ⟨operation, hget'⟩
    rw [hmember, hname] at hget'
    cases hget'
    exact hnot operation rfl
  have hpublished : Check.operationPublished.Passes host body outstanding :=
    ⟨operation, (hmember _).trans hname⟩
  rcases decodeDatabase_cases object with
    ⟨detail, name, hdatabase, hget', hnot⟩ | ⟨hdatabase, hbare⟩
  · have hresult : decodeRequest host body outstanding
        = .error ⟨Check.databaseName.rule, detail⟩ := by
      simp only [decodeRequest, hobject, hversion, if_neg hhello, hrequestId, hoperation,
        hdatabase, Check.rule]
    refine .inl (hstops [.body, .versionStated, .versionSpoken, .noSecondHello, .requestId,
      .operationStated, .operationPublished] _ rfl hresult
      (by simp [hbody, hstated, hspoken, honce, hidPasses, hnamed, hpublished]) ?_)
    exact fun hpasses => hnot (hpasses name ((hmember _).trans hget'))
  · have hdatabasePasses : Check.databaseName.Passes host body outstanding :=
      fun name h => hbare name ((hmember _).symm.trans h)
    refine .inr ⟨⟨version, id, (object.get? "session_id").bind Value.asStr, operation,
      (object.get? "database").bind Value.asStr, (object.get? "statement").bind Value.asStr⟩,
      ?_, ?_, ?_⟩
    · simp only [decodeRequest, hobject, hversion, if_neg hhello, hrequestId, hoperation,
        hdatabase]
    · exact ⟨(hmember _).trans hget, (hmember _).trans hid, by rw [hmember],
        (hmember _).trans hname, by rw [hmember], by rw [hmember]⟩
    · intro check
      cases check with
      | body => exact hbody
      | versionStated => exact hstated
      | versionSpoken => exact hspoken
      | noSecondHello => exact honce
      | requestId => exact hidPasses
      | operationStated => exact hnamed
      | operationPublished => exact hpublished
      | databaseName => exact hdatabasePasses

/-- **Which bodies are requests**: `decode_request` returns a request
where every check passes, made of the members as they are; it refuses with
the rule of the first check that fails; and two objects that agree on the
members it looks at are decoded alike. -/
theorem decode_request_exact (host : Host) (body : String) (outstanding : Finset String) :
    ((∃ request, decodeRequest host body outstanding = .ok request) ↔
      ∀ check : Check, check.Passes host body outstanding) ∧
    (∀ request, decodeRequest host body outstanding = .ok request → ReadFrom host body request) ∧
    (∀ check : Check,
      (∃ detail, decodeRequest host body outstanding = .error ⟨check.rule, detail⟩) ↔
        check.FirstToFail host body outstanding) ∧
    ∀ body' object object', host.fromStr body = .ok (Value.ofMap object) →
      host.fromStr body' = .ok (Value.ofMap object') →
      (∀ name ∈ MEMBERS, object.get? name = object'.get? name) →
      decodeRequest host body outstanding = decodeRequest host body' outstanding := by
  have hcases := decodeRequest_cases host body outstanding
  refine ⟨⟨?_, ?_⟩, ?_, fun check => ⟨?_, ?_⟩, ?_⟩
  · rintro ⟨request, hrequest⟩
    rcases hcases with ⟨check, detail, hrefused, -⟩ | ⟨-, -, -, hpasses⟩
    · rw [hrefused] at hrequest
      cases hrequest
    · exact hpasses
  · intro hpasses
    rcases hcases with ⟨check, -, -, -, -, -, -, hfails⟩ | ⟨request, hrequest, -⟩
    · exact absurd (hpasses check) hfails
    · exact ⟨request, hrequest⟩
  · intro request hrequest
    rcases hcases with ⟨check, detail, hrefused, -⟩ | ⟨request', hrequest', hread, -⟩
    · rw [hrefused] at hrequest
      cases hrequest
    · rw [hrequest'] at hrequest
      cases hrequest
      exact hread
  · rintro ⟨detail, hrefused⟩
    rcases hcases with ⟨check', detail', hrefused', hfirst⟩ | ⟨request, hrequest, -⟩
    · rw [hrefused'] at hrefused
      have hrule := (Refusal.mk.inj (Except.error.inj hrefused)).1
      rwa [← Check.rule_injective hrule]
    · rw [hrequest] at hrefused
      cases hrefused
  · intro hfirst
    rcases hcases with ⟨check', detail, hrefused, hfirst'⟩ | ⟨-, -, -, hpasses⟩
    · exact ⟨detail, hfirst.unique hfirst' ▸ hrefused⟩
    · obtain ⟨-, -, -, -, hfails⟩ := hfirst
      exact absurd (hpasses check) hfails
  · intro body' object object' hparsed hparsed' hagree
    have hversion := hagree "server_protocol_version" (by decide)
    have hmessage := hagree "message" (by decide)
    have hid := hagree "request_id" (by decide)
    have hoperation := hagree "operation" (by decide)
    have hdatabase := hagree "database" (by decide)
    have hsession := hagree "session_id" (by decide)
    have hstatement := hagree "statement" (by decide)
    simp only [decodeRequest, objectOf, hparsed, hparsed', Value.asObject_ofMap, decodeVersion,
      decodeRequestId, decodeOperation, decodeDatabase, hversion, hmessage, hid, hoperation,
      hdatabase, hsession, hstatement]

end NostdbServer.Message
