import NostdbServer.Ending
import NostdbServer.SessionHistory

/-!
# TooLarge — an over-long frame, wherever it is read

Three places read a frame: the opening, the main loop and a transaction
region. An over-long one ends the connection in each of them, from its
prefix alone and with nothing executed (`Reading.Halts`); that the peer is
told so is true of the main loop only (`too_large_refused_iff`).
-/

namespace NostdbServer

open Response NostdbServer.Frame Script

variable {E : Engine}

/-- Where a connection reads: at its opening, or in one of its loops. -/
inductive Reading (E : Engine) where
  | opening (stream : Stream)
  | main (slot : Slot E.Database) (outstanding : Finset String) (world : World E)
  | region (inner : Region E) (outstanding : Finset String) (world : World E)

/-- A reply that names `frame_too_large`, the declared length and the
maximum. -/
def ReportsTooLarge (declared maximum : UInt32) (value : Value) : Prop :=
  value.get "outcome" = some (.string "error") ∧
    value.get "rule" = some (.string Rule.frameTooLarge.asStr) ∧
    value.get "detail" = some (.string ("the peer declared a " ++ toString declared.toNat
      ++ "-byte frame, and the maximum is " ++ toString maximum.toNat))

theorem reportsTooLarge_response (version : UInt64) (declared maximum : UInt32) :
    ReportsTooLarge declared maximum (frameTooLargeResponse version declared maximum) := by
  refine ⟨?_, ?_, ?_⟩ <;>
    simp [frameTooLargeResponse, Value.json, OrdMap.ofList, OrdMap.insertAll, OrdMap.get?_insert,
      Rule.asStr]

namespace Reading

def place : Reading E → Place
  | opening _ => .opening
  | main _ _ _ => .main
  | region _ _ _ => .region

def world : Reading E → World E
  | opening stream => { stream }
  | main _ _ world => world
  | region _ _ world => world

def slot : Reading E → Slot E.Database
  | opening _ => Slot.new
  | main slot _ _ => slot
  | region inner _ _ => inner.slot

section

variable (env : Env E) (version : UInt64)

/-- The state behind the frame that is read. -/
def next : Reading E → State E
  | opening stream => (start env stream).2
  | main slot outstanding world => step env version (.main slot outstanding world)
  | region inner outstanding world => step env version (.region inner outstanding world)

/-- The connection ends at a prefix that declares too much: behind it
nothing is taken from the input, nothing is executed, and the session
keeps the database committed before. -/
structure Halts (reading : Reading E) (declared : UInt32) (rest : List UInt8)
    (events : List (Event E)) : Prop where
  ended : (reading.next env version).how = some .transportFailed
  log : (reading.next env version).world.log = reading.world.log
    ++ .read reading.place (.error (.tooLarge declared env.limits.maxFrameBytes)) :: events
  quiet : ∀ e ∈ events, e.isEnd = true ∨ ∃ value result, e = .sent value result
  input : content (reading.next env version).world.stream.incoming = rest
  committed : (reading.next env version).slot.session.map Session.database
    = reading.slot.session.map Session.database

/-- The connection ends so, and the peer is told why. -/
def Refuses (reading : Reading E) (declared : UInt32) (rest : List UInt8) : Prop :=
  ∃ events, reading.Halts env version declared rest events ∧ ∃ value result,
    .sent value result ∈ events ∧ ReportsTooLarge declared env.limits.maxFrameBytes value

variable {env version}

/-- What the connection does behind the prefix is fixed. -/
theorem Halts.unique {reading : Reading E} {declared : UInt32} {rest : List UInt8}
    {events events' : List (Event E)} (h : reading.Halts env version declared rest events)
    (h' : reading.Halts env version declared rest events') : events = events' :=
  (List.cons.inj (List.append_cancel_left (h.log.symm.trans h'.log))).2

/-- The opening frame is not answered. -/
theorem halts_opening {stream stream' : Stream} {declared : UInt32}
    (hread : readFrame stream env.limits.maxFrameBytes
      = (.error (.tooLarge declared env.limits.maxFrameBytes), stream')) :
    (opening stream : Reading E).Halts env version declared (content stream'.incoming) [] := by
  have hstart : (start env stream).2 = .ended .transportFailed Slot.new
      (({ stream := stream' } : World E).logging
        [.read .opening (.error (.tooLarge declared env.limits.maxFrameBytes))]) := by
    simp only [start, handshake, receive, hread]
  refine ⟨?_, ?_, by simp, ?_, ?_⟩
  all_goals
    simp only [next, hstart]
    rfl

/-- In the main loop the peer is told. -/
theorem halts_main {slot : Slot E.Database} {outstanding : Finset String} {before : World E}
    {stream' : Stream} {declared : UInt32}
    (hread : readFrame before.stream env.limits.maxFrameBytes
      = (.error (.tooLarge declared env.limits.maxFrameBytes), stream')) :
    let world := ({ before with stream := stream' } : World E).logging
      [.read .main (.error (.tooLarge declared env.limits.maxFrameBytes))]
    let sent := send env world
      (frameTooLargeResponse version declared env.limits.maxFrameBytes)
    step env version (.main slot outstanding before) = .ended .transportFailed slot sent.2 ∧
      (main slot outstanding before).Halts env version declared (content stream'.incoming)
        [.sent (frameTooLargeResponse version declared env.limits.maxFrameBytes) sent.1] := by
  intro world sent
  have hstep : step env version (.main slot outstanding before)
      = .ended .transportFailed slot sent.2 := by
    simp only [step, mainTurn, receive, hread, sent, world]
  have hlog : sent.2.log = world.log
      ++ [.sent (frameTooLargeResponse version declared env.limits.maxFrameBytes) sent.1] :=
    log_send env world _
  refine ⟨hstep, ?_, ?_, fun e he => .inr ⟨_, _, List.mem_singleton.mp he⟩, ?_, ?_⟩
  · simp only [next, hstep]
    rfl
  · simp only [next, hstep, State.world, hlog, world, World.log_logging, List.append_assoc]
    rfl
  · simp only [next, hstep]
    exact congrArg content (incoming_writeFrame _ _ _)
  · simp only [next, hstep]
    rfl

/-- A region rolls back, and does not answer. -/
theorem halts_region (hE : E.Discards) {region : Region E} {outstanding : Finset String}
    {before : World E} {stream' : Stream} {declared : UInt32}
    (hread : readFrame before.stream env.limits.maxFrameBytes
      = (.error (.tooLarge declared env.limits.maxFrameBytes), stream')) :
    (Reading.region region outstanding before).Halts env version declared
      (content stream'.incoming) [.rolledBack region.session.database] := by
  have hstep : step env version (.region region outstanding before)
      = .ended .transportFailed region.slot
        (({ before with stream := stream' } : World E).logging
          [.read .region (.error (.tooLarge declared env.limits.maxFrameBytes)),
            .rolledBack region.session.database]) := by
    simp only [step, regionTurn, receive, hread, Region.rollback, hE _ _,
      State.ofRegion, World.logging, List.append_assoc, List.cons_append, List.nil_append]
  refine ⟨?_, ?_, fun e he => .inl (List.mem_singleton.mp he ▸ rfl), ?_, ?_⟩
  all_goals
    simp only [next, hstep]
    rfl

end

end Reading

/-- **An over-long frame is refused in the main loop only.** Wherever it is
read the connection ends at its prefix. The peer is told so exactly where
the main loop read it, and over a transport that takes every write the
reply is put out where it is within the maximum itself. -/
theorem too_large_refused_iff {env : Env E} (hE : E.Discards) (version : UInt64)
    (reading : Reading E) (declared : UInt32) (rest : List UInt8)
    (hdelivers : Delivers reading.world.stream.incoming)
    (hcontent : content reading.world.stream.incoming = toBeBytes declared ++ rest)
    (hlarge : declared > env.limits.maxFrameBytes) :
    (∃ events, reading.Halts env version declared rest events) ∧
    (reading.Refuses env version declared rest ↔ reading.place = .main) ∧
    (reading.place = .main → Accepting reading.world.stream →
      SendFits env (frameTooLargeResponse version declared env.limits.maxFrameBytes) →
      (reading.next env version).world.stream.written = reading.world.stream.written ++ encode
        (env.host.toString (frameTooLargeResponse version declared env.limits.maxFrameBytes))) := by
  obtain ⟨hresult, hleft, -⟩ := readFrame_front env.limits.maxFrameBytes hdelivers
  rw [hcontent, front_tooLarge hlarge] at hresult hleft
  have hsame := readFrame_output reading.world.stream env.limits.maxFrameBytes
  generalize hread : readFrame reading.world.stream env.limits.maxFrameBytes = read
    at hresult hleft hsame
  obtain ⟨result, stream'⟩ := read
  obtain rfl : result = _ := hresult
  obtain rfl : content stream'.incoming = rest := hleft
  cases reading with
  | opening stream =>
    have hhalts : (Reading.opening stream).Halts env version declared _ [] :=
      Reading.halts_opening hread
    refine ⟨⟨[], hhalts⟩, iff_of_false ?_ (by simp [Reading.place]), by simp [Reading.place]⟩
    rintro ⟨events, hevents, value, result, hmem, -⟩
    rw [hevents.unique hhalts] at hmem
    cases hmem
  | main slot outstanding world =>
    obtain ⟨hstep, hhalts⟩ := @Reading.halts_main E env version slot outstanding world _ _ hread
    refine ⟨⟨_, hhalts⟩, iff_of_true ?_ rfl, ?_⟩
    · exact ⟨_, hhalts, _, _, List.mem_singleton_self _, reportsTooLarge_response _ _ _⟩
    · intro _ haccepting hfits
      have haccepts : Accepting stream' := haccepting.of_sameOutput hsame
      have hwrite := (haccepts.writeFrame _ _).1.mpr hfits
      have hwritten := (writeFrame_ok (Prod.ext hwrite rfl)).2
      have houtput : stream'.written = world.stream.written := hsame.2.2
      rw [houtput] at hwritten
      simp only [Reading.next, hstep]
      exact hwritten
  | region inner outstanding world =>
    have hhalts : (Reading.region inner outstanding world).Halts env version declared _ _ :=
      Reading.halts_region hE hread
    refine ⟨⟨_, hhalts⟩, iff_of_false ?_ (by simp [Reading.place]), by simp [Reading.place]⟩
    rintro ⟨events, hevents, value, result, hmem, -⟩
    rw [hevents.unique hhalts] at hmem
    cases List.mem_singleton.mp hmem

/-! ## Four gigabytes, declared -/

/-- A peer that declares the longest frame there is. -/
def overLong : Stream where
  incoming := [.data [0xFF, 0xFF, 0xFF, 0xFF]]

/-- A daemon under the default limits. -/
def overLongEnv : Env Engine.journal := Env.conversing Limits.default workCatalog []

theorem delivers_overLong : Delivers overLong.incoming := by
  intro event hevent
  rw [List.mem_singleton.mp hevent]
  exact .inr ⟨_, by decide, rfl⟩

/-- The main loop refuses it. -/
theorem too_large_refused_iff_main :
    (Reading.main Slot.new ∅ { stream := overLong }).Refuses overLongEnv 1 0xFFFFFFFF [] :=
  (too_large_refused_iff Engine.journal_discards 1 (.main Slot.new ∅ { stream := overLong })
    0xFFFFFFFF [] delivers_overLong (by decide) (by decide)).2.1.mpr rfl

/-- A transaction on `work`. -/
def openRegion : Region Engine.journal where
  session := ⟨⟨"s1"⟩, "work", Path.ofText "/srv/work", []⟩
  next := 2
  transaction := ([], [])
  base := 0
  outstanding := ∅

/-- A transaction region does not. -/
theorem too_large_unanswered :
    ¬ ∀ (env : Env Engine.journal) version (reading : Reading Engine.journal) declared rest,
      Delivers reading.world.stream.incoming →
      content reading.world.stream.incoming = toBeBytes declared ++ rest →
      declared > env.limits.maxFrameBytes → reading.Refuses env version declared rest := by
  intro h
  obtain ⟨events, hevents, value, result, hmem, -⟩ := h overLongEnv 1
    (.region openRegion ∅ { stream := overLong }) 0xFFFFFFFF [] delivers_overLong (by decide)
    (by decide)
  have hread : readFrame overLong overLongEnv.limits.maxFrameBytes
      = (.error (.tooLarge 0xFFFFFFFF overLongEnv.limits.maxFrameBytes),
        { overLong with incoming := [] }) := rfl
  have hhalts := @Reading.halts_region Engine.journal overLongEnv 1 Engine.journal_discards
    openRegion ∅ { stream := overLong } _ _ hread
  rw [hevents.unique hhalts] at hmem
  cases List.mem_singleton.mp hmem

end NostdbServer
