import NostdbServer.Exchange

/-!
# Replies — one reply for each frame

A frame that was read whole after the welcome is answered once: between
its read and the next one, or the end, exactly one reply is handed to
`write_frame` (`one_reply_per_frame`). Over a transport whose writes never
fail, `write_frame` alone decides what of it goes out: the whole frame
where the reply is within `max_frame_bytes`, and not a byte where it is
not (`long_reply_not_written`).
-/

namespace NostdbServer

open Response NostdbServer.Frame Script

variable {E : Engine}

section

variable (env : Env E)

/-- Whether a reply is within the frame limit. -/
def SendFits (value : Value) : Prop := Fits (env.host.toString value) env.limits.maxFrameBytes

instance (value : Value) : Decidable (SendFits env value) := inferInstanceAs (Decidable (Fits _ _))

/-- The bytes an event puts on the wire. -/
def Event.output : Event E → List UInt8
  | .sent value _ => if SendFits env value then encode (env.host.toString value) else []
  | _ => []

/-- What a transport that takes every write was given. -/
structure Faithful (world : World E) : Prop where
  accepting : Accepting world.stream
  written : world.stream.written = world.log.flatMap (Event.output env)
  sent : ∀ value result, .sent value result ∈ world.log → (result = .ok () ↔ SendFits env value)

/-- What is no reply puts nothing out. -/
theorem Faithful.quiet {w w' : World E} (h : Faithful env w) (hquiet : Quiet w w') :
    Faithful env w' := by
  obtain ⟨⟨events, hlog, hreply⟩, hstream⟩ := hquiet
  have hsilent : events.flatMap (Event.output env) = [] := by
    rw [List.flatMap_eq_nil_iff]
    intro e he
    have hreply := (hreply e he).2
    cases e <;> first | rfl | cases hreply
  refine ⟨hstream ▸ h.accepting, ?_, ?_⟩
  · rw [hstream, hlog, List.flatMap_append, hsilent, List.append_nil, h.written]
  · intro value result hmem
    rw [hlog, List.mem_append] at hmem
    rcases hmem with hmem | hmem
    · exact h.sent value result hmem
    · cases (hreply _ hmem).2

/-- A send puts out what it should. -/
theorem Faithful.send {world : World E} (h : Faithful env world) (value : Value) :
    Faithful env (send env world value).2 := by
  obtain ⟨hok, haccepting⟩ := h.accepting.writeFrame (env.host.toString value)
    env.limits.maxFrameBytes
  refine ⟨haccepting, ?_, ?_⟩
  · have hlog : (NostdbServer.send env world value).2.log
        = world.log ++ [.sent value (NostdbServer.send env world value).1] := rfl
    rw [hlog, List.flatMap_append, List.flatMap_singleton, ← h.written]
    by_cases hfits : SendFits env value
    · rw [Event.output, if_pos hfits]
      exact (writeFrame_ok (Prod.ext (hok.mpr hfits) rfl)).2
    · obtain ⟨declared, hrefused⟩ := writeFrame_not_fits (s := world.stream) hfits
      rw [Event.output, if_neg hfits, List.append_nil]
      simp only [NostdbServer.send, World.logging, hrefused]
  · intro value' result hmem
    rcases List.mem_append.mp hmem with hmem | hmem
    · exact h.sent value' result hmem
    · cases List.mem_singleton.mp hmem
      exact hok

/-- A whole frame that is there is received, however it is chunked. -/
theorem receive_encode (place : Place) (world : World E) {body : String} {more : List UInt8}
    (hfits : Fits body env.limits.maxFrameBytes) (hdelivers : Delivers world.stream.incoming)
    (hcontent : content world.stream.incoming = encode body ++ more) : ∃ stream,
      receive env place world = (.ok body, { world with stream }.logging [.read place (.ok body)]) ∧
        Delivers stream.incoming ∧ content stream.incoming = more ∧
        SameOutput stream world.stream := by
  obtain ⟨stream, hread, hdelivers', hcontent', hsame⟩ := readFrame_encode hfits hdelivers hcontent
  refine ⟨stream, ?_, hdelivers', hcontent', hsame⟩
  simp only [receive, hread]

/-- A reply within the limit is sent. -/
theorem send_fits {world : World E} {value : Value} (haccepting : Accepting world.stream)
    (hfits : SendFits env value) : ∃ stream,
      send env world value = (.ok (), { world with stream }.logging [.sent value (.ok ())]) ∧
        Accepting stream ∧ stream.incoming = world.stream.incoming := by
  obtain ⟨hok, haccepting'⟩ := haccepting.writeFrame (env.host.toString value)
    env.limits.maxFrameBytes
  have hwrite : writeFrame world.stream (env.host.toString value) env.limits.maxFrameBytes
      = (.ok (), (writeFrame world.stream (env.host.toString value) env.limits.maxFrameBytes).2) :=
    Prod.ext (hok.mpr hfits) rfl
  refine ⟨_, ?_, haccepting', incoming_writeFrame _ _ _⟩
  simp only [send]
  rw [hwrite]

/-- A reply over the limit is not, and the stream is as it was. -/
theorem send_not_fits (world : World E) {value : Value} (hfits : ¬ SendFits env value) : ∃ error,
    send env world value = (.error error, world.logging [.sent value (.error error)]) := by
  obtain ⟨declared, hrefused⟩ := writeFrame_not_fits (s := world.stream) hfits
  exact ⟨.tooLarge declared env.limits.maxFrameBytes, by simp only [send, hrefused]⟩

/-- A request in the main loop, and a reply that is sent. -/
theorem mainTurn_sent {version : UInt64} {slot slot' : Slot E.Database}
    {outstanding : Finset String} {world w₁ w₂ w₃ : World E} {body : String} {request : Request}
    {value : Value} (hread : receive env .main world = (.ok body, w₁))
    (hdecode : Message.decodeRequest env.host body outstanding = .ok request)
    (hdispatch : dispatch env version request slot (w₁.logging [.decoded .main request])
      = (.send value, slot', w₂))
    (hsend : send env w₂ value = (.ok (), w₃)) :
    mainTurn env version slot outstanding world
      = .next slot' ((insert request.requestId outstanding).erase request.requestId) w₃ := by
  simp only [mainTurn, hread, hdecode, hdispatch, hsend]

/-- A request in the main loop, and a reply that is not. -/
theorem mainTurn_unsent {version : UInt64} {slot slot' : Slot E.Database}
    {outstanding : Finset String} {world w₁ w₂ w₃ : World E} {body : String} {request : Request}
    {value : Value} {error : FrameError} (hread : receive env .main world = (.ok body, w₁))
    (hdecode : Message.decodeRequest env.host body outstanding = .ok request)
    (hdispatch : dispatch env version request slot (w₁.logging [.decoded .main request])
      = (.send value, slot', w₂))
    (hsend : send env w₂ value = (.error error, w₃)) :
    mainTurn env version slot outstanding world = .finish .transportFailed slot' w₃ := by
  simp only [mainTurn, hread, hdecode, hdispatch, hsend]

theorem Faithful.receive {world : World E} (h : Faithful env world) (place : Place) :
    Faithful env (receive env place world).2 := by
  have hsame := readFrame_output world.stream env.limits.maxFrameBytes
  refine ⟨h.accepting.of_sameOutput hsame, ?_, ?_⟩
  · have hlog : (NostdbServer.receive env place world).2.log
        = world.log ++ [.read place (NostdbServer.receive env place world).1] := rfl
    rw [hlog, List.flatMap_append, List.flatMap_singleton, ← h.written]
    exact hsame.2.2.trans (List.append_nil _).symm
  · intro value result hmem
    rcases List.mem_append.mp hmem with hmem | hmem
    · exact h.sent value result hmem
    · cases List.mem_singleton.mp hmem

end

/-! ## Whole runs -/

/-- The frames of a log that were read whole behind the handshake are
answered once before the next read. -/
def AnsweredOnce (log : List (Event E)) : Prop :=
  ∀ front place body back, log = front ++ .read place (.ok body) :: back → place ≠ .opening →
    ∃ value, replies (untilRead back) = [value]

theorem Faithful.received {env : Env E} {state : State E} {place : Place}
    {result : Except FrameError String} {world : World E}
    (h : state.received env = some (place, result, world)) (hf : Faithful env state.world) :
    Faithful env world := by
  cases state with
  | main slot outstanding before =>
    cases h
    exact hf.receive env .main
  | region region outstanding before =>
    cases h
    exact hf.receive env .region
  | ended how slot world => cases h

/-- Over a transport that takes every write, so does the next step. -/
theorem faithful_step (env : Env E) (version : UInt64) {state : State E}
    (h : Faithful env state.world) : Faithful env (step env version state).world := by
  cases hread : state.received env with
  | none =>
    rw [step_of_received_none version hread]
    exact h
  | some read =>
    obtain ⟨place, result, world⟩ := read
    exact step_world env version hread (fun hquiet h => h.quiet env hquiet)
      (fun exchange _ h => h.send env exchange.value) (h.received hread)

theorem faithful_start (env : Env E) {stream : Stream} (haccepting : Accepting stream)
    (hwritten : stream.written = []) : Faithful env (start env stream).2.world := by
  have hbegin : Faithful env { stream } := ⟨haccepting, hwritten, by simp⟩
  have hhandshake : Faithful env (handshake env { stream }).2 := by
    rcases handshake_world env { stream } with h | ⟨value, h⟩ <;> rw [h]
    · exact hbegin.receive env .opening
    · exact (hbegin.receive env .opening).send env value
  rcases start_cases env stream with ⟨how, h⟩ | h <;> rw [h] <;> exact hhandshake

/-! ## A conversation with a reply over the limit -/

/-- The chunks of `Stream.saying` are its frames. -/
theorem delivers_saying (frames : List Value) :
    Delivers (Stream.saying frames).incoming ∧
      content (Stream.saying frames).incoming = (frames.map Value.write).flatMap encode := by
  constructor
  · intro event hevent
    obtain ⟨frame, -, rfl⟩ := List.mem_map.mp hevent
    exact .inr ⟨_, by simp [encode, toBeBytes], rfl⟩
  · induction frames with
    | nil => rfl
    | cons frame frames ih =>
      rw [List.map_cons, List.flatMap_cons, ← ih]
      rfl

/-- A stream without a script takes every write. -/
theorem accepting_of_script {incoming : List ReadEvent} : Accepting { incoming } :=
  ⟨by simp [Accepts], by simp⟩

/-- A row of `n` letters. -/
def longRow (n : Nat) : String := String.ofList (List.replicate n 'a')

theorem size_longRow (n : Nat) : (longRow n).utf8ByteSize = n := by
  have hletter : 'a'.utf8Size = 1 := rfl
  rw [longRow, Utf8.utf8ByteSize_ofList, List.map_replicate, hletter, List.sum_replicate_nat,
    Nat.mul_one]

/-- A reply with a row is longer than the row. -/
theorem size_row (version : UInt64) (request : Request) {row : String} {rows : List String}
    (generation : UInt64) (writes : Option Nat) (limits : Limits) (hrow : row ∈ rows)
    (hfew : rows.length ≤ limits.maxResultRows) :
    row.utf8ByteSize ≤ (envelopeResponse Engine.journal version request rows generation writes
      limits).write.utf8ByteSize := by
  have henvelope : envelopeResponse Engine.journal version request rows generation writes limits
      = okResponse version request (Engine.journal.envelope rows generation writes) := by
    unfold envelopeResponse
    exact if_neg (Nat.not_lt.mpr hfew)
  rw [henvelope]
  have hresult : (Engine.journal.envelope rows generation writes).write.utf8ByteSize
      ≤ (okResponse version request
        (Engine.journal.envelope rows generation writes)).write.utf8ByteSize :=
    @Value.size_le_ofMap _ "result" _ (by simp [OrdMap.ofList, OrdMap.insertAll])
  have hrows : (Value.array (rows.map Value.string)).write.utf8ByteSize
      ≤ (Engine.journal.envelope rows generation writes).write.utf8ByteSize :=
    @Value.size_le_ofMap _ "rows" _ (by simp [OrdMap.ofList, OrdMap.insertAll])
  have hitem := Value.size_le_array (List.mem_map_of_mem (f := Value.string) hrow)
  have hletters := Value.utf8ByteSize_writeString_le row
  rw [Value.write] at hitem
  omega

/-- A client that opens a session and reads the rows of its database. -/
def readsRows : List Value :=
  [sayHello, ask "r1" "open_session" [("database", .string "work")],
    ask "r2" "query" [("statement", .string "MATCH")]]

def opensWork : Request := ⟨1, "r1", none, .openSession, some "work", none⟩

def readsWork : Request := ⟨1, "r2", none, .query, none, some "MATCH"⟩

/-- A daemon that reads its frames, under the default limits. -/
def readsEnv : Env Engine.journal := Env.conversing Limits.default workCatalog readsRows

/-- The same daemon, over databases with one row of `n` letters. -/
def longEnv (n : Nat) : Env Engine.journal := { readsEnv with openAt := fun _ _ => .ok [longRow n] }

/-- The log behind the handshake of that conversation. -/
def longOpening : List (Event Engine.journal) :=
  [.read .opening (.ok sayHello.write), .sent (Message.welcome 1 readsEnv.endpoint) (.ok ())]

/-- The handshake, and where it leaves the stream. -/
theorem handshake_long (n : Nat) : ∃ stream, Accepting stream ∧ Delivers stream.incoming ∧
    content stream.incoming = (readsRows.tail.map Value.write).flatMap encode ∧
    handshake (longEnv n) { stream := .saying readsRows }
      = (.ok 1, { stream, log := longOpening }) := by
  obtain ⟨hdelivers, hcontent⟩ := delivers_saying readsRows
  obtain ⟨s₁, hread, hdelivers₁, hcontent₁, hsame₁⟩ := receive_encode (longEnv n) .opening
    { stream := .saying readsRows } (show Fits sayHello.write 8388608 by decide +kernel)
    hdelivers hcontent
  have haccepting₁ : Accepting s₁ := .of_sameOutput hsame₁ accepting_of_script
  have hhello :
      (Message.decodeHello readsEnv.host sayHello.write).bind Message.negotiate = .ok 1 := by
    decide +kernel
  obtain ⟨s₂, hsend, haccepting₂, hincoming⟩ := send_fits (longEnv n)
    (show Accepting (World.logging { stream := s₁ : World Engine.journal }
      [.read .opening (.ok sayHello.write)]).stream from haccepting₁)
    (show Fits (Message.welcome 1 readsEnv.endpoint).write 8388608 by decide +kernel)
  refine ⟨s₂, haccepting₂, hincoming ▸ hdelivers₁, ?_, ?_⟩
  · rw [hincoming]
    exact hcontent₁
  · have hhello' : (Message.decodeHello (longEnv n).host sayHello.write).bind Message.negotiate
        = .ok 1 := hhello
    have hsend' : send (longEnv n)
        (World.logging { stream := s₁ } [.read .opening (.ok sayHello.write)])
        (Message.welcome 1 (longEnv n).endpoint) = _ := hsend
    simp only [handshake, hread, hhello', hsend']
    rfl

/-- The catalog is loaded, and has the name. -/
theorem loads_workCatalog : ∃ catalog entry,
    Catalog.load readsEnv.host (.text workCatalog.write) = .ok catalog ∧
      catalog.get "work" = some entry := by
  have hloads : ((Catalog.load readsEnv.host (.text workCatalog.write)).toOption.any
      (fun catalog => (catalog.get "work").isSome)) = true := by
    decide +kernel
  cases hload : Catalog.load readsEnv.host (.text workCatalog.write) with
  | error error =>
    rw [hload] at hloads
    cases hloads
  | ok catalog =>
    rw [hload] at hloads
    obtain ⟨entry, hentry⟩ := Option.isSome_iff_exists.mp hloads
    exact ⟨catalog, entry, rfl, hentry⟩

/-- The session is opened on the long row. -/
theorem dispatch_opensWork (n : Nat) (world : World Engine.journal) : ∃ session world',
    dispatch (longEnv n) 1 opensWork Slot.new world
      = (.send (okResponse 1 opensWork (Value.json [("session_id", .string "s1")])),
        ⟨some session, 2⟩, world') ∧
    session.database = [longRow n] ∧ world'.stream = world.stream := by
  obtain ⟨catalog, entry, hload, hget⟩ := loads_workCatalog
  have hload' (k : Nat) : Catalog.load (longEnv n).host ((longEnv n).catalogAt k) = .ok catalog :=
    hload
  let session : Session Engine.journal.Database := ⟨⟨"s1"⟩, "work", entry.path, [longRow n]⟩
  refine ⟨session, ((world.loading (.text workCatalog.write)).opening [entry.path]).logging
    [.attached session], ?_, rfl, rfl⟩
  simp only [dispatch, opensWork, openSession, hload', Slot.open, Slot.new, hget]
  rfl

/-- The reply to the query. -/
def longReply (n : Nat) : Value :=
  envelopeResponse Engine.journal 1 readsWork [longRow n] 1 none Limits.default

theorem not_sendFits_longReply {n : Nat} (hlong : 8388608 < n) :
    ¬ SendFits (longEnv n) (longReply n) := by
  intro hfits
  have hfew : [longRow n].length ≤ Limits.default.maxResultRows := Nat.le_add_left 1 99999
  have hsize : (longRow n).utf8ByteSize ≤ 8388608 :=
    (size_row 1 readsWork 1 none _ (List.mem_singleton_self _) hfew).trans hfits
  rw [size_longRow] at hsize
  omega

/-- The query gives the row back. -/
theorem dispatch_readsWork (n : Nat) {slot : Slot Engine.journal.Database}
    {session : Session Engine.journal.Database} (hslot : slot.session = some session)
    (hrows : session.database = [longRow n]) (world : World Engine.journal) :
    (dispatch (longEnv n) 1 readsWork slot world).1 = .send (longReply n) := by
  have hresolve : slot.resolve readsWork.sessionId = .ok session :=
    Slot.resolve_eq_ok_iff.mpr ⟨hslot, by simp [readsWork]⟩
  have hquery : readsWork.operation = .query := rfl
  have hstatement : readsWork.statement = some "MATCH" := rfl
  have hrun : (runOne (longEnv n) 1 readsWork "MATCH" session world).1 = longReply n := by
    obtain ⟨id, name, path, rows⟩ := session
    obtain rfl : rows = [longRow n] := hrows
    rfl
  simp only [dispatch, hquery, queryOnce, hresolve, hstatement, hrun]

def opensText : String := (ask "r1" "open_session" [("database", .string "work")]).write

def readsText : String := (ask "r2" "query" [("statement", .string "MATCH")]).write

theorem decode_opensText : Message.decodeRequest readsEnv.host opensText ∅ = .ok opensWork := by
  decide +kernel

theorem decode_readsText : Message.decodeRequest readsEnv.host readsText ∅ = .ok readsWork := by
  decide +kernel

/-- The first turn of the main loop opens the session. -/
theorem mainTurn_opens (n : Nat) {stream : Stream} (log : List (Event Engine.journal))
    (haccepting : Accepting stream) (hdelivers : Delivers stream.incoming)
    (hcontent : content stream.incoming = encode opensText ++ encode readsText) :
    ∃ slot session world, mainTurn (longEnv n) 1 Slot.new ∅ { stream, log } = .next slot ∅ world ∧
      slot.session = some session ∧ session.database = [longRow n] ∧
      Delivers world.stream.incoming ∧ content world.stream.incoming = encode readsText := by
  obtain ⟨s₁, hread, hdelivers₁, hcontent₁, hsame⟩ := receive_encode (longEnv n) .main
    { stream, log } (show Fits opensText 8388608 by decide +kernel) hdelivers hcontent
  obtain ⟨session, w₂, hdispatch, hrows, hstream⟩ := dispatch_opensWork n
    (World.logging { stream := s₁, log } [.read .main (.ok opensText), .decoded .main opensWork])
  have haccepting₂ : Accepting w₂.stream := by
    rw [hstream]
    exact Accepting.of_sameOutput hsame haccepting
  obtain ⟨s₃, hsend, -, hincoming⟩ := send_fits (longEnv n) haccepting₂
    (show Fits (okResponse 1 opensWork (Value.json [("session_id", .string "s1")])).write 8388608 by
      decide +kernel)
  have hlogging : World.logging { stream := s₁, log } [.read .main (.ok opensText),
      .decoded .main opensWork] = (World.logging { stream := s₁, log : World Engine.journal }
        [.read .main (.ok opensText)]).logging [.decoded .main opensWork] := by
    simp [World.logging]
  rw [hlogging] at hdispatch
  refine ⟨_, session, _, mainTurn_sent (longEnv n) hread decode_opensText hdispatch hsend, rfl,
    hrows, ?_, ?_⟩
  · show Delivers s₃.incoming
    rw [hincoming, hstream]
    exact hdelivers₁
  · show content s₃.incoming = _
    rw [hincoming, hstream]
    exact hcontent₁

/-- The next one reads the query, and its reply is not sent. -/
theorem mainTurn_reads {n : Nat} (hlong : 8388608 < n) {slot : Slot Engine.journal.Database}
    {session : Session Engine.journal.Database} {world : World Engine.journal}
    (hslot : slot.session = some session) (hrows : session.database = [longRow n])
    (hdelivers : Delivers world.stream.incoming)
    (hcontent : content world.stream.incoming = encode readsText) :
    ∃ slot' world' back error,
      mainTurn (longEnv n) 1 slot ∅ world = .finish .transportFailed slot' world' ∧
      world'.log = world.log ++ .read .main (.ok readsText)
        :: (back ++ [.sent (longReply n) (.error error)]) ∧ ∀ e ∈ back, e.reply = none := by
  obtain ⟨s₁, hread, -⟩ := receive_encode (longEnv n) .main world
    (show Fits readsText 8388608 by decide +kernel) hdelivers
    (hcontent.trans (List.append_nil _).symm)
  generalize hbefore : (({ world with stream := s₁ } : World Engine.journal).logging
    [.read .main (.ok readsText)]).logging [.decoded .main readsWork] = before
  have hvalue := dispatch_readsWork n hslot hrows before
  obtain ⟨⟨events, hevents, hquiet⟩, -⟩ :=
    (acts_dispatch (longEnv n) 1 readsWork slot before).quiet
  generalize hdispatch : dispatch (longEnv n) 1 readsWork slot before = out at hvalue hevents
  obtain ⟨reply, slot', w₂⟩ := out
  obtain rfl := hvalue
  obtain ⟨error, hsend⟩ := send_not_fits (longEnv n) w₂ (not_sendFits_longReply hlong)
  rw [← hbefore] at hdispatch
  refine ⟨slot', _, .decoded .main readsWork :: events, error,
    mainTurn_unsent (longEnv n) hread decode_readsText hdispatch hsend, ?_, ?_⟩
  · rw [World.log_logging, hevents, ← hbefore]
    simp
  · intro e he
    rcases List.mem_cons.mp he with rfl | he
    · rfl
    · exact (hquiet e he).2

/-- The query is read and run, and its reply is not sent. -/
theorem log_long {n : Nat} (hlong : 8388608 < n) : ∃ front back error,
    (serveConnection (longEnv n) 2 (.saying readsRows)).world.log
      = front ++ .read .main (.ok readsText) :: (back ++ [.sent (longReply n) (.error error)]) ∧
    ∀ e ∈ back, e.reply = none := by
  obtain ⟨stream, haccepting, hdelivers, hcontent, hhandshake⟩ := handshake_long n
  obtain ⟨slot, session, world, hopens, hslot, hrows, hdelivers, hcontent⟩ :=
    mainTurn_opens n longOpening haccepting hdelivers hcontent
  obtain ⟨slot', world', back, error, hreads, hlog, hquiet⟩ :=
    mainTurn_reads hlong hslot hrows hdelivers hcontent
  refine ⟨world.log, back, error, ?_, hquiet⟩
  simp only [serveConnection, hhandshake, mainLoop, hopens, hreads]
  exact hlog

/-! ## One reply a frame -/

/-- **One reply for each frame**: wherever a connection stands, each
frame read whole behind the handshake has been followed by exactly one
reply before the next read. Where the transport takes every write, the
reply is sent, as one whole frame, exactly when it is within
`max_frame_bytes`, and what the client was sent is those frames in order. -/
theorem one_reply_per_frame (env : Env E) (fuel : Nat) (stream : Stream) :
    let world := (serveConnection env fuel stream).world
    AnsweredOnce world.log ∧
    (Accepting stream → stream.written = [] →
      (∀ value result, .sent value result ∈ world.log → (result = .ok () ↔ SendFits env value)) ∧
      world.stream.written = world.log.flatMap (Event.output env)) := by
  intro world
  constructor
  · intro front place body back hsplit hplace
    have hone := answeredBy_run env stream (P := fun _ _ _ _ => True)
      (fun _ _ _ _ _ _ _ _ _ => trivial) fuel front place body back hsplit hplace
    obtain ⟨value, hvalue, -⟩ := hone
    exact ⟨value, hvalue⟩
  · intro haccepting hwritten
    obtain ⟨n, hn⟩ := serveConnection_eq_connection env fuel stream
    have hfaithful : Faithful env world := by
      simp only [world, hn]
      have hstep (state : State E) (h : Faithful env state.world) :
          Faithful env (step env (start env stream).1 state).world := faithful_step env _ h
      exact connection_invariant hstep (faithful_start env haccepting hwritten) n
    exact ⟨hfaithful.sent, hfaithful.written⟩

/-- A session on a long row, and a query for it: three replies are handed
over, and the last one stays unsent. -/
theorem one_reply_per_frame_long :
    let env := longEnv 8388609
    let world := (serveConnection env 2 (.saying readsRows)).world
    AnsweredOnce world.log ∧
    (∀ value result, .sent value result ∈ world.log → (result = .ok () ↔ SendFits env value)) ∧
    world.stream.written = world.log.flatMap (Event.output env) :=
  have h := one_reply_per_frame (longEnv 8388609) 2 (.saying readsRows)
  ⟨h.1, h.2 accepting_of_script rfl⟩

/-- The reply to a query for a row of the frame limit's length is over the
limit, and is not sent. -/
theorem long_reply_not_written :
    ¬ ∀ (env : Env Engine.journal) fuel stream, Delivers stream.incoming → Accepting stream →
      stream.written = [] → ∀ front place body back,
      (serveConnection env fuel stream).world.log = front ++ .read place (.ok body) :: back →
      place ≠ .opening → ∃ value, .sent value (.ok ()) ∈ untilRead back := by
  intro h
  obtain ⟨n, hn⟩ : ∃ n, n = 8388609 := ⟨_, rfl⟩
  obtain ⟨front, back, error, hlog, hquiet⟩ := log_long (by omega : 8388608 < n)
  obtain ⟨value', hsent⟩ := h (longEnv n) 2 (.saying readsRows) (delivers_saying readsRows).1
    accepting_of_script rfl front .main _ _ hlog (by decide)
  rcases List.mem_append.mp (List.takeWhile_subset _ hsent) with hback | hlast
  · cases hquiet _ hback
  · cases List.mem_singleton.mp hlast

end NostdbServer
