import NostdbServer.AutoCommit
import NostdbServer.Ending
import NostdbServer.Replies

/-!
# Chunking — a connection depends on its bytes alone

Nothing between a read and the next one looks at the stream, so what a
connection does is decided by what its reads and writes answer. `Alike`
relates two streams whose answers agree for the next reads; a step takes
related states to related states (`step_alike`), and so does a run.

Two relations between streams keep their answers. Streams that deliver the
same bytes in other chunks read alike for ever (`connection_rechunked`), and
streams that deliver the same first frames read alike that long, whatever
follows (`connection_sameFront`): the daemon never reads ahead, so a client
that sends its requests at once is answered like one that waits.
-/

namespace NostdbServer

open NostdbServer.Frame Script Utf8 Response

variable {E : Engine}

/-! ## The same world over another stream -/

def World.over (stream : Stream) (world : World E) : World E := { world with stream }

def State.over (stream : Stream) (state : State E) : State E :=
  state.withWorld (state.world.over stream)

namespace World

variable (stream : Stream) (world : World E)

@[simp] theorem over_stream : (world.over stream).stream = stream := rfl

@[simp] theorem over_log : (world.over stream).log = world.log := rfl

@[simp] theorem over_loads : (world.over stream).loads = world.loads := rfl

@[simp] theorem over_opens : (world.over stream).opens = world.opens := rfl

@[simp] theorem over_runs : (world.over stream).runs = world.runs := rfl

end World

theorem State.over_stream (stream : Stream) (state : State E) :
    (state.over stream).world.stream = stream := by cases state <;> rfl

section

variable (env : Env E) (version : UInt64)

theorem deadline_over (stream : Stream) (world : World E) :
    deadline env (world.over stream) = deadline env world := rfl

/-! ## What does not look at the stream -/

theorem runOne_over (request : Request) (statement : String) (session : Session E.Database)
    (world : World E) (stream : Stream) :
    let out := runOne env version request statement session world
    runOne env version request statement session (world.over stream)
      = (out.1, out.2.1, out.2.2.over stream) := by
  simp only [runOne, deadline_over]
  cases E.parse statement with
  | error error => rfl
  | ok query =>
    cases E.begin session.database with
    | error error => rfl
    | ok transaction =>
      simp only
      rcases E.runCancellable transaction query (deadline env world) with ⟨error | result, left⟩
      · rfl
      · simp only
        split
        · rcases E.commit left session.database with ⟨error | generation, database⟩ <;> rfl
        · rfl

theorem openSession_over (request : Request) (slot : Slot E.Database) (world : World E)
    (stream : Stream) :
    let out := openSession env version request slot world
    openSession env version request slot (world.over stream)
      = (out.1, out.2.1, out.2.2.over stream) := by
  simp only [openSession, World.over_loads]
  cases request.database with
  | none => rfl
  | some name =>
    simp only
    cases Catalog.load env.host (env.catalogAt world.loads) <;> rfl

theorem dispatch_over (request : Request) (slot : Slot E.Database) (world : World E)
    (stream : Stream) :
    let out := dispatch env version request slot world
    dispatch env version request slot (world.over stream)
      = (out.1, out.2.1, out.2.2.over stream) := by
  simp only [dispatch]
  cases request.operation with
  | openSession => simp only [openSession_over env version request slot world stream]
  | query =>
    simp only [queryOnce]
    cases slot.resolve request.sessionId with
    | error refusal => rfl
    | ok session =>
      cases request.statement with
      | none => rfl
      | some statement =>
        simp only [runOne_over env version request statement session world stream]
  | begin => cases slot.resolve request.sessionId <;> rfl
  | _ => rfl

theorem Region.run_over (request : Request) (statement : String) (region : Region E)
    (world : World E) (stream : Stream) :
    let out := region.run env version request statement world
    region.run env version request statement (world.over stream)
      = (out.1, out.2.1, out.2.2.over stream) := by
  simp only [Region.run, deadline_over]
  cases E.parse statement with
  | error error => rfl
  | ok query =>
    simp only
    rcases E.runCancellable region.transaction query (deadline env world) with
      ⟨error | result, left⟩ <;> rfl

/-! ## Courses -/

/-- The course in the same world over another stream. -/
def Course.over (stream : Stream) : Course E → Course E
  | .silent state => .silent (state.over stream)
  | .reply exchange => .reply { exchange with world := exchange.world.over stream }

/-- What stands behind the send does not look at the stream either. -/
def Course.Blind : Course E → Prop
  | .silent _ => True
  | .reply exchange => ∀ stream world,
      exchange.sent (world.over stream) = (exchange.sent world).over stream ∧
        exchange.lost (world.over stream) = (exchange.lost world).over stream

theorem Region.reply_over (value : Value) (region : Region E) (outstanding : Finset String)
    (world : World E) (stream : Stream) :
    region.reply value outstanding (world.over stream)
        = (region.reply value outstanding world).over stream ∧
      (region.reply value outstanding world).Blind :=
  ⟨rfl, fun _ _ => ⟨rfl, rfl⟩⟩

theorem Region.courseOf_over (request : Request) (region : Region E)
    (outstanding : Finset String) (world : World E) (stream : Stream) :
    region.courseOf env version request outstanding (world.over stream)
        = (region.courseOf env version request outstanding world).over stream ∧
      (region.courseOf env version request outstanding world).Blind := by
  simp only [Region.courseOf]
  cases request.operation with
  | query =>
    cases request.statement with
    | none => exact ⟨rfl, fun _ _ => ⟨rfl, rfl⟩⟩
    | some statement =>
      simp only [Region.run_over env version request statement _ world stream]
      exact ⟨rfl, fun _ _ => ⟨rfl, rfl⟩⟩
  | _ => exact ⟨rfl, fun _ _ => ⟨rfl, rfl⟩⟩

theorem beginCourse_over (begin : Request) (slot : Slot E.Database) (outstanding : Finset String)
    (world : World E) (stream : Stream) :
    beginCourse version begin slot outstanding (world.over stream)
        = (beginCourse version begin slot outstanding world).over stream ∧
      (beginCourse version begin slot outstanding world).Blind := by
  simp only [beginCourse]
  cases slot.resolve begin.sessionId with
  | error refusal => exact ⟨rfl, fun _ _ => ⟨rfl, rfl⟩⟩
  | ok session =>
    simp only
    cases E.begin session.database with
    | error error => exact ⟨rfl, fun _ _ => ⟨rfl, rfl⟩⟩
    | ok transaction => exact ⟨rfl, fun _ _ => ⟨rfl, rfl⟩⟩

theorem mainCourseOf_over (request : Request) (slot : Slot E.Database)
    (outstanding : Finset String) (world : World E) (stream : Stream) :
    mainCourseOf env version request slot outstanding (world.over stream)
        = (mainCourseOf env version request slot outstanding world).over stream ∧
      (mainCourseOf env version request slot outstanding world).Blind := by
  simp only [mainCourseOf, dispatch_over env version request slot world stream]
  obtain ⟨reply, slot', world'⟩ := dispatch env version request slot world
  cases reply with
  | send value => exact ⟨rfl, fun _ _ => ⟨rfl, rfl⟩⟩
  | transaction => exact beginCourse_over version request slot' _ world' stream
  | shutdown value => exact ⟨rfl, fun _ _ => ⟨rfl, rfl⟩⟩

theorem mainCourse_over (heard : Heard) (slot : Slot E.Database) (outstanding : Finset String)
    (world : World E) (stream : Stream) :
    mainCourse env version slot outstanding (world.over stream) heard
        = (mainCourse env version slot outstanding world heard).over stream ∧
      (mainCourse env version slot outstanding world heard).Blind := by
  cases heard with
  | failed error =>
    cases error with
    | tooLarge declared maximum => exact ⟨rfl, fun _ _ => ⟨rfl, rfl⟩⟩
    | _ => exact ⟨rfl, trivial⟩
  | refused refusal => exact ⟨rfl, fun _ _ => ⟨rfl, rfl⟩⟩
  | request request =>
    exact mainCourseOf_over env version request slot outstanding
      (world.logging [.decoded .main request]) stream

theorem Region.course_over (heard : Heard) (region : Region E) (outstanding : Finset String)
    (world : World E) (stream : Stream) :
    region.course env version outstanding (world.over stream) heard
        = (region.course env version outstanding world heard).over stream ∧
      (region.course env version outstanding world heard).Blind := by
  cases heard with
  | failed error => cases error <;> exact ⟨rfl, trivial⟩
  | refused refusal => exact region.reply_over _ outstanding world stream
  | request request =>
    exact region.courseOf_over env version request outstanding
      (world.logging [.decoded .region request]) stream

/-- **A course does not look at the stream.** -/
theorem State.course_over {state : State E} (hgoing : state.received env ≠ none) (heard : Heard)
    (world : World E) (before stream : Stream) :
    (state.over before).course env version heard (world.over stream)
        = (state.course env version heard world).over stream ∧
      (state.course env version heard world).Blind := by
  cases state with
  | main slot outstanding _ => exact mainCourse_over env version heard slot outstanding world stream
  | region region outstanding _ =>
    exact region.course_over env version heard outstanding world stream
  | ended how slot _ => exact absurd rfl hgoing

end

/-! ## Streams that answer alike -/

/-- A relation between streams whose answers agree: for the next `n` reads,
and for every write. -/
structure AnswerAlike (maximum : UInt32) (R : Nat → Stream → Stream → Prop) : Prop where
  fewer : ∀ {n s t}, R (n + 1) s t → R n s t
  read : ∀ {n s t}, R (n + 1) s t →
    (readFrame t maximum).1 = (readFrame s maximum).1 ∧
      R n (readFrame s maximum).2 (readFrame t maximum).2
  write : ∀ {n s t}, R n s t → ∀ body,
    (writeFrame t body maximum).1 = (writeFrame s body maximum).1 ∧
      R n (writeFrame s body maximum).2 (writeFrame t body maximum).2

/-- Two states that differ in their streams only, and these are related. -/
def State.Alike (R : Stream → Stream → Prop) (s t : State E) : Prop :=
  ∃ stream, t = s.over stream ∧ R s.world.stream stream

section

variable {env : Env E} {R : Nat → Stream → Stream → Prop}

theorem receive_over (h : AnswerAlike env.limits.maxFrameBytes R) {n : Nat} {world : World E}
    {stream : Stream} (hR : R (n + 1) world.stream stream) (place : Place) : ∃ rest,
    receive env place (world.over stream)
        = ((receive env place world).1, (receive env place world).2.over rest) ∧
      R n (receive env place world).2.stream rest := by
  obtain ⟨hresult, hrest⟩ := h.read hR
  refine ⟨_, ?_, hrest⟩
  simp only [receive, World.over_stream, hresult]
  rfl

theorem send_over (h : AnswerAlike env.limits.maxFrameBytes R) {n : Nat} {world : World E}
    {stream : Stream} (hR : R n world.stream stream) (value : Value) : ∃ rest,
    send env (world.over stream) value
        = ((send env world value).1, (send env world value).2.over rest) ∧
      R n (send env world value).2.stream rest := by
  obtain ⟨hresult, hrest⟩ := h.write hR (env.host.toString value)
  refine ⟨_, ?_, hrest⟩
  simp only [send, World.over_stream, hresult]
  rfl

theorem State.received_over (h : AnswerAlike env.limits.maxFrameBytes R) {n : Nat}
    {state : State E} {stream : Stream} (hR : R (n + 1) state.world.stream stream)
    {place : Place} {result : Except FrameError String} {world : World E}
    (hread : state.received env = some (place, result, world)) : ∃ rest,
    (state.over stream).received env = some (place, result, world.over rest) ∧
      R n world.stream rest := by
  cases state with
  | main slot outstanding before =>
    cases hread
    obtain ⟨rest, hreceive, hrest⟩ := receive_over h hR .main
    exact ⟨rest, congrArg (fun out => some (Place.main, out)) hreceive, hrest⟩
  | region region outstanding before =>
    cases hread
    obtain ⟨rest, hreceive, hrest⟩ := receive_over h hR .region
    exact ⟨rest, congrArg (fun out => some (Place.region, out)) hreceive, hrest⟩
  | ended how slot before => cases hread

theorem State.outstanding_over (state : State E) (stream : Stream) :
    (state.over stream).outstanding = state.outstanding := by cases state <;> rfl

/-- **The step lemma**: over streams that answer alike, a step leads from
alike states to alike states. -/
theorem step_alike (h : AnswerAlike env.limits.maxFrameBytes R) (version : UInt64) {n : Nat}
    {s t : State E} (hst : State.Alike (R (n + 1)) s t) :
    State.Alike (R n) (step env version s) (step env version t) := by
  obtain ⟨stream, rfl, hR⟩ := hst
  cases hread : s.received env with
  | none =>
    have hread' : (s.over stream).received env = none := by
      cases s with
      | ended how slot world => rfl
      | _ => cases hread
    rw [step_of_received_none version hread, step_of_received_none version hread']
    exact ⟨stream, rfl, h.fewer hR⟩
  | some read =>
    obtain ⟨place, result, world⟩ := read
    obtain ⟨rest, hread', hrest⟩ := State.received_over h hR hread
    have hsound := State.course_sound env version hread
    have hgoing : s.received env ≠ none := by simp [hread]
    obtain ⟨hcourse, hblind⟩ := State.course_over env version hgoing
      (heardRead env s.outstanding result) world stream rest
    rw [step_eq_settle env version hread, step_eq_settle env version hread',
      State.outstanding_over, hcourse]
    generalize s.course env version (heardRead env s.outstanding result) world = course
      at hsound hblind
    cases course with
    | silent state =>
      -- the stream behind the read is the stream behind the step
      obtain ⟨-, -, hstream⟩ := hsound
      exact ⟨rest, rfl, hstream ▸ hrest⟩
    | reply exchange =>
      obtain ⟨-, ⟨-, hstream⟩, hnext⟩ := hsound
      obtain ⟨rest', hsend, hrest'⟩ := send_over h (show R n exchange.world.stream rest from
        hstream ▸ hrest) exchange.value
      have hdone := hnext (send env exchange.world exchange.value).2
      simp only [Course.over, Course.settle, hsend]
      rcases hsent : send env exchange.world exchange.value with ⟨error | ⟨⟩, world'⟩
      · rw [hsent] at hrest' hdone
        exact ⟨rest', (hblind rest' world').2, hdone.2.2 ▸ hrest'⟩
      · rw [hsent] at hrest' hdone
        exact ⟨rest', (hblind rest' world').1, hdone.1.2 ▸ hrest'⟩

/-- The handshake reads once. -/
theorem handshake_over (h : AnswerAlike env.limits.maxFrameBytes R) {n : Nat} {s t : Stream}
    (hR : R (n + 1) s t) : ∃ rest,
    handshake env { stream := t }
        = ((handshake env { stream := s }).1, (handshake env { stream := s }).2.over rest) ∧
      R n (handshake env { stream := s }).2.stream rest := by
  have hbegin : R (n + 1) ({ stream := s } : World E).stream t := hR
  obtain ⟨rest, hreceive, hrest⟩ := receive_over h hbegin .opening
  have hbefore : receive env .opening { stream := t } = _ := hreceive
  simp only [handshake, hbefore]
  generalize receive env .opening { stream := s } = out at hrest
  obtain ⟨result, world⟩ := out
  rcases result with error | opening
  · cases error <;> exact ⟨rest, rfl, hrest⟩
  · simp only
    rcases (Message.decodeHello env.host opening).bind Message.negotiate with refusal | version
    · obtain ⟨rest', hsend, hrest'⟩ := send_over h hrest Message.refused
      simp only [hsend]
      exact ⟨rest', rfl, hrest'⟩
    · obtain ⟨rest', hsend, hrest'⟩ := send_over h hrest (Message.welcome version env.endpoint)
      simp only [hsend]
      generalize send env world (Message.welcome version env.endpoint) = sent at hrest'
      rcases sent with ⟨error | ⟨⟩, world'⟩ <;> exact ⟨rest', rfl, hrest'⟩

theorem start_alike (h : AnswerAlike env.limits.maxFrameBytes R) {n : Nat} {s t : Stream}
    (hR : R (n + 1) s t) :
    (start env t).1 = (start env s).1 ∧
      State.Alike (R n) (start env s).2 (start env t).2 := by
  obtain ⟨rest, hhandshake, hrest⟩ := handshake_over h hR
  simp only [start, hhandshake]
  generalize handshake env { stream := s } = out at hrest
  obtain ⟨how | version, world⟩ := out
  · exact ⟨rfl, rest, rfl, hrest⟩
  · exact ⟨rfl, rest, rfl, hrest⟩

/-- **The run lemma**: over streams whose next reads answer alike, the two
connections stay alike for as many frames. -/
theorem connection_alike (h : AnswerAlike env.limits.maxFrameBytes R) (n : Nat) {k : Nat}
    {s t : Stream} (hR : R (k + n + 1) s t) :
    State.Alike (R k) (connection env s n) (connection env t n) := by
  induction n generalizing k with
  | zero => exact (start_alike h hR).2
  | succ n ih =>
    rw [connection_succ, connection_succ, (start_alike h hR).1]
    exact step_alike h _ (ih (by rwa [Nat.add_right_comm k 1 n]))

end

/-! ## The same bytes in other chunks -/

/-- Two streams that deliver the same bytes and take every write. -/
structure Rechunked (s t : Stream) : Prop where
  delivers : Delivers s.incoming
  delivers' : Delivers t.incoming
  content : content t.incoming = content s.incoming
  accepting : Accepting s
  accepting' : Accepting t
  written : t.written = s.written

/-- What is written where every write is taken. -/
theorem writeFrame_accepting {s : Stream} (h : Accepting s) (body : String) (maximum : UInt32) :
    (writeFrame s body maximum).2.written
      = s.written ++ if Fits body maximum then encode body else [] := by
  by_cases hfits : Fits body maximum
  · rw [if_pos hfits]
    exact (writeFrame_ok (Prod.ext ((h.writeFrame body maximum).1.mpr hfits) rfl)).2
  · obtain ⟨declared, hrefused⟩ := writeFrame_not_fits (s := s) hfits
    rw [if_neg hfits, hrefused, List.append_nil]

/-- Two streams that take every write answer a write alike. -/
theorem writeFrame_alike {s t : Stream} (hs : Accepting s) (ht : Accepting t) (body : String)
    (maximum : UInt32) : (writeFrame t body maximum).1 = (writeFrame s body maximum).1 := by
  by_cases hfits : Fits body maximum
  · rw [(hs.writeFrame body maximum).1.mpr hfits, (ht.writeFrame body maximum).1.mpr hfits]
  · simp only [writeFrame, length_utf8]
    split
    · rename_i hsize
      have hlarge := not_not.mp (fun hn => hfits ((declared_le_iff hsize maximum).mp hn))
      rw [if_pos hlarge, if_pos hlarge]
    · rfl

theorem answerAlike_rechunked (maximum : UInt32) :
    AnswerAlike maximum (fun _ => Rechunked) where
  fewer h := h
  read {_ s t} h := by
    obtain ⟨hresult, hcontent, hdelivers⟩ := readFrame_front maximum h.delivers
    obtain ⟨hresult', hcontent', hdelivers'⟩ := readFrame_front maximum h.delivers'
    rw [h.content] at hresult' hcontent'
    exact ⟨hresult'.trans hresult.symm,
      { delivers := hdelivers, delivers' := hdelivers'
        content := hcontent'.trans hcontent.symm
        accepting := h.accepting.of_sameOutput (readFrame_output s maximum)
        accepting' := h.accepting'.of_sameOutput (readFrame_output t maximum)
        written := by
          rw [(readFrame_output s maximum).2.2, (readFrame_output t maximum).2.2, h.written] }⟩
  write {_ s t} h body := by
    refine ⟨writeFrame_alike h.accepting h.accepting' body maximum, ?_⟩
    exact
      { delivers := by rw [incoming_writeFrame]; exact h.delivers
        delivers' := by rw [incoming_writeFrame]; exact h.delivers'
        content := by rw [incoming_writeFrame, incoming_writeFrame, h.content]
        accepting := (h.accepting.writeFrame body maximum).2
        accepting' := (h.accepting'.writeFrame body maximum).2
        written := by
          rw [writeFrame_accepting h.accepting, writeFrame_accepting h.accepting', h.written] }

theorem content_bytewise (bytes : List UInt8) : content (bytewise bytes).incoming = bytes := by
  induction bytes with
  | nil => rfl
  | cons byte bytes ih => exact congrArg (byte :: ·) ih

/-- A client that asks once, and the same bytes one at a time. -/
theorem rechunked_bytewise (frames : List Value) :
    Rechunked (Stream.saying frames)
      (bytewise ((frames.map Value.write).flatMap encode)) where
  delivers := (delivers_saying frames).1
  delivers' := delivers_bytewise _
  content := by rw [content_bytewise, (delivers_saying _).2]
  accepting := accepting_of_script
  accepting' := accepting_of_script
  written := rfl

/-- An ended connection stays. -/
theorem connection_stays {env : Env E} {stream : Stream} {n : Nat}
    (hended : (connection env stream n).isEnded = true) (more : Nat) :
    connection env stream (n + more) = connection env stream n := by
  induction more with
  | zero => rfl
  | succ more ih =>
    rw [← Nat.add_assoc, connection_succ, ih]
    cases hstate : connection env stream n with
    | ended how slot world => rfl
    | _ => rw [hstate] at hended; cases hended

/-- Where the loops have ended, the connection is behind any frame that
could still come. -/
theorem serveConnection_final {env : Env E} {stream : Stream} {fuel : Nat}
    (hended : (serveConnection env fuel stream).isEnded = true) : ∃ n, ∀ more,
    connection env stream (n + more) = serveConnection env fuel stream := by
  obtain ⟨n, hn⟩ := serveConnection_eq_connection env fuel stream
  rw [hn] at hended ⊢
  exact ⟨n, connection_stays hended⟩

/-- **A connection depends on its bytes alone**: wherever it stands, a
client that sent the same bytes in other chunks, with other interruptions,
was served the same: the same log, session and replies, and the same bytes
back; and so it was when the two connections ended. -/
theorem connection_rechunked (env : Env E) {s t : Stream} (h : Rechunked s t) :
    (∀ n, ∃ stream, connection env t n = (connection env s n).over stream ∧
      Rechunked (connection env s n).world.stream stream) ∧
    ∀ fuel, (content s.incoming).length < 4 * fuel → ∃ stream,
      serveConnection env fuel t = (serveConnection env fuel s).over stream ∧
      stream.written = (serveConnection env fuel s).world.stream.written := by
  have hrun (n : Nat) : ∃ stream, connection env t n = (connection env s n).over stream ∧
      Rechunked (connection env s n).world.stream stream :=
    connection_alike (k := 0) (answerAlike_rechunked env.limits.maxFrameBytes) n h
  refine ⟨hrun, fun fuel hfuel => ?_⟩
  have hends {stream : Stream} (hcontent : content stream.incoming = content s.incoming) :
      (serveConnection env fuel stream).isEnded = true := by
    obtain ⟨how, slot, world, hended⟩ := serveConnection_ends env stream fuel
      (by rw [← content_length, hcontent]; exact hfuel)
    rw [hended]
    rfl
  obtain ⟨n, hn⟩ := serveConnection_final (hends rfl)
  obtain ⟨m, hm⟩ := serveConnection_final (hends h.content)
  obtain ⟨stream, halike, hstream⟩ := hrun (n + m)
  rw [hn m] at halike hstream
  rw [Nat.add_comm n m, hm n] at halike
  exact ⟨stream, halike, hstream.written⟩

/-- The frames of a client that asks once. -/
def askingOnce : List Value := [sayHello, ask "r1" "status" []]

/-- A daemon that reads them, under the default limits. -/
def askingEnv : Env Engine.journal := Env.conversing Limits.default workCatalog askingOnce

/-- The same request byte by byte. -/
theorem connection_rechunked_bytewise : ∃ stream,
    serveConnection askingEnv 50 (bytewise ((askingOnce.map Value.write).flatMap encode))
        = (serveConnection askingEnv 50 (Stream.saying askingOnce)).over stream ∧
      stream.written
        = (serveConnection askingEnv 50 (Stream.saying askingOnce)).world.stream.written :=
  (connection_rechunked askingEnv (rechunked_bytewise askingOnce)).2 50 (by decide +kernel)

/-! ## The same first frames -/

/-- Two streams that start with the same `n` frames, or more. -/
def SameFront (maximum : UInt32) (n : Nat) (s t : Stream) : Prop :=
  ∃ (bodies : List String) (more more' : List UInt8),
    n ≤ bodies.length ∧ (∀ body ∈ bodies, Fits body maximum) ∧
    Delivers s.incoming ∧ Delivers t.incoming ∧
    content s.incoming = bodies.flatMap encode ++ more ∧
    content t.incoming = bodies.flatMap encode ++ more' ∧
    Accepting s ∧ Accepting t ∧ t.written = s.written

theorem answerAlike_sameFront (maximum : UInt32) : AnswerAlike maximum (SameFront maximum) where
  fewer := by
    rintro n s t ⟨bodies, more, more', hn, hrest⟩
    exact ⟨bodies, more, more', Nat.le_of_succ_le hn, hrest⟩
  read := by
    rintro n s t ⟨bodies, more, more', hn, hfits, hs, ht, hcs, hct, has, hat, hwritten⟩
    cases bodies with
    | nil => cases hn
    | cons body bodies =>
      rw [List.flatMap_cons, List.append_assoc] at hcs hct
      have hbody := hfits body List.mem_cons_self
      obtain ⟨s', hs', hsdelivers, hscontent, hsout⟩ := readFrame_encode hbody hs hcs
      obtain ⟨t', ht', htdelivers, htcontent, htout⟩ := readFrame_encode hbody ht hct
      rw [hs', ht']
      exact ⟨rfl, bodies, more, more', Nat.le_of_succ_le_succ hn,
        fun other hmem => hfits other (List.mem_cons_of_mem _ hmem), hsdelivers, htdelivers,
        hscontent, htcontent, has.of_sameOutput hsout, hat.of_sameOutput htout,
        htout.2.2.trans (hwritten.trans hsout.2.2.symm)⟩
  write := by
    rintro n s t ⟨bodies, more, more', hn, hfits, hs, ht, hcs, hct, has, hat, hwritten⟩ body
    refine ⟨writeFrame_alike has hat body maximum, bodies, more, more', hn, hfits, ?_⟩
    rw [incoming_writeFrame, incoming_writeFrame, writeFrame_accepting has,
      writeFrame_accepting hat, hwritten]
    exact ⟨hs, ht, hcs, hct, (has.writeFrame body maximum).2, (hat.writeFrame body maximum).2, rfl⟩

/-- **The daemon does not read ahead**: behind the opening and `n` frames a
connection is where it would be if anything else, or nothing, came after
them. A client that sends its requests at once is answered like one that
waits for each reply. -/
theorem connection_sameFront (env : Env E) {s t : Stream} {bodies : List String}
    {more more' : List UInt8} (hfits : ∀ body ∈ bodies, Fits body env.limits.maxFrameBytes)
    (hs : Delivers s.incoming) (ht : Delivers t.incoming)
    (hcs : content s.incoming = bodies.flatMap encode ++ more)
    (hct : content t.incoming = bodies.flatMap encode ++ more')
    (has : Accepting s) (hat : Accepting t) (hwritten : t.written = s.written) {n : Nat}
    (hn : n < bodies.length) : ∃ stream,
      connection env t n = (connection env s n).over stream ∧
      stream.written = (connection env s n).world.stream.written := by
  obtain ⟨stream, halike, -, -, -, -, -, -, -, -, -, -, -, hstream⟩ :=
    connection_alike (k := 0) (answerAlike_sameFront env.limits.maxFrameBytes) n
      (show SameFront env.limits.maxFrameBytes (0 + n + 1) s t from
        ⟨bodies, more, more', by omega, hfits, hs, ht, hcs, hct, has, hat, hwritten⟩)
  exact ⟨stream, halike, hstream⟩

/-- A request that is answered, whether another follows or the client is
gone. -/
theorem connection_sameFront_once :
    let longer := connection askingEnv (Stream.saying (askingOnce ++ askingOnce)) 1
    ∃ stream, connection askingEnv (Stream.saying askingOnce) 1 = longer.over stream ∧
      stream.written = longer.world.stream.written := by
  have hfits : ∀ body ∈ askingOnce.map Value.write, Fits body askingEnv.limits.maxFrameBytes := by
    decide +kernel
  have hagain : content (Stream.saying (askingOnce ++ askingOnce)).incoming
      = (askingOnce.map Value.write).flatMap encode
        ++ (askingOnce.map Value.write).flatMap encode := by
    rw [(delivers_saying _).2, List.map_append, List.flatMap_append]
  have honce : content (Stream.saying askingOnce).incoming
      = (askingOnce.map Value.write).flatMap encode ++ [] := by
    rw [(delivers_saying _).2, List.append_nil]
  have hlength : 1 < (askingOnce.map Value.write).length := Nat.lt_succ_self 1
  exact connection_sameFront askingEnv hfits (delivers_saying _).1 (delivers_saying _).1 hagain
    honce accepting_of_script accepting_of_script rfl hlength

/-! ## What a client reads back -/

/-- The bodies of the replies that are within the frame limit, in order. -/
def sentBodies (env : Env E) (log : List (Event E)) : List String :=
  ((replies log).filter (fun value => decide (SendFits env value))).map env.host.toString

theorem output_eq_encode (env : Env E) (log : List (Event E)) :
    log.flatMap (Event.output env) = (sentBodies env log).flatMap encode := by
  induction log with
  | nil => rfl
  | cons e log ih =>
    rw [List.flatMap_cons, ih]
    cases e with
    | sent value result =>
      by_cases hfits : SendFits env value
      · simp [sentBodies, replies, Event.reply, Event.output, hfits]
      · simp [sentBodies, replies, Event.reply, Event.output, hfits]
    | _ => rfl

theorem fits_of_mem_sentBodies {env : Env E} {log : List (Event E)} {body : String}
    (h : body ∈ sentBodies env log) : Fits body env.limits.maxFrameBytes := by
  obtain ⟨value, hvalue, rfl⟩ := List.mem_map.mp h
  exact of_decide_eq_true (List.mem_filter.mp hvalue).2

/-- What a transport that takes every write was given. -/
theorem written_eq_sentBodies (env : Env E) {stream : Stream} (haccepting : Accepting stream)
    (hwritten : stream.written = []) (n : Nat) :
    Faithful env (connection env stream n).world ∧ (connection env stream n).world.stream.written
      = (sentBodies env (connection env stream n).world.log).flatMap encode := by
  have hstep (state : State E) (h : Faithful env state.world) :
      Faithful env (step env (start env stream).1 state).world := faithful_step env _ h
  have hfaithful : Faithful env (connection env stream n).world :=
    connection_invariant hstep (faithful_start env haccepting hwritten) n
  exact ⟨hfaithful, hfaithful.written.trans (output_eq_encode env _)⟩

/-- **What a client reads back**: over a transport that takes every write,
a client that reads with the daemon's own limit gets the replies that are
within it, whole and in the order they were built, and then the end,
however the bytes reach it. -/
theorem client_reads_back (env : Env E) {stream : Stream} (haccepting : Accepting stream)
    (hwritten : stream.written = []) (n : Nat) {reader : Stream}
    (hdelivers : Delivers reader.incoming)
    (hcontent : content reader.incoming = (connection env stream n).world.stream.written) :
    let bodies := sentBodies env (connection env stream n).world.log
    readFrames env.limits.maxFrameBytes (bodies.length + 1) reader
      = bodies.map .ok ++ [.error .closed] := by
  intro bodies
  rw [(written_eq_sentBodies env haccepting hwritten n).2] at hcontent
  exact readFrames_encode (fun body hmem => fits_of_mem_sentBodies hmem) hdelivers hcontent

/-- The welcome and one answer, read back byte by byte. -/
theorem client_reads_back_bytewise :
    let bodies := sentBodies askingEnv (connection askingEnv (Stream.saying askingOnce) 1).world.log
    readFrames askingEnv.limits.maxFrameBytes (bodies.length + 1)
        (bytewise (connection askingEnv (Stream.saying askingOnce) 1).world.stream.written)
      = bodies.map .ok ++ [.error .closed] :=
  have haccepting : Accepting (Stream.saying askingOnce) := accepting_of_script
  client_reads_back askingEnv haccepting rfl 1 (delivers_bytewise _) (content_bytewise _)

end NostdbServer
