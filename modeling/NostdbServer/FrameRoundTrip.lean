import NostdbServer.Frame

/-!
# FrameRoundTrip — a sequence of frames, written and read back

One connection carries many frames. Those a writer accepted are read back
in order, and then the end, by every reader that delivers the bytes
(`frames_round_trip`): each frame leaves the reader at the next one's
prefix, however the chunks straddle the frames.
-/

namespace NostdbServer.Frame

open Script

/-- The bodies are written one after the other. -/
def writeFrames (maximum : UInt32) : List String → Stream → List (Except FrameError Unit) × Stream
  | [], stream => ([], stream)
  | body :: bodies, stream =>
      match writeFrame stream body maximum with
      | (result, stream) =>
          match writeFrames maximum bodies stream with
          | (results, stream) => (result :: results, stream)

/-- `count` frames are read one after the other. -/
def readFrames (maximum : UInt32) : Nat → Stream → List (Except FrameError String)
  | 0, _ => []
  | count + 1, stream =>
      match readFrame stream maximum with
      | (result, stream) => result :: readFrames maximum count stream

/-- The bodies a writer accepts. -/
def accepted (maximum : UInt32) (bodies : List String) : List String :=
  bodies.filter (fun body => decide (Fits body maximum))

theorem fits_of_mem_accepted {maximum : UInt32} {bodies : List String} {body : String}
    (h : body ∈ accepted maximum bodies) : Fits body maximum := by
  rw [accepted, List.mem_filter] at h
  exact of_decide_eq_true h.2

/-- The writer puts out the frames of what it accepts, and nothing else. -/
theorem writeFrames_written (maximum : UInt32) (bodies : List String) {s : Stream}
    (h : Accepting s) :
    (writeFrames maximum bodies s).2.written
        = s.written ++ (accepted maximum bodies).flatMap encode ∧
      (writeFrames maximum bodies s).1.map Except.isOk
        = bodies.map (fun body => decide (Fits body maximum)) := by
  induction bodies generalizing s with
  | nil => simp [writeFrames, accepted]
  | cons body bodies ih =>
    obtain ⟨hok, haccepting⟩ := h.writeFrame body maximum
    obtain ⟨hwritten, hresults⟩ := ih haccepting
    simp only [writeFrames]
    constructor
    · rw [hwritten]
      by_cases hfits : Fits body maximum
      · have hone := (writeFrame_ok (Prod.ext (hok.mpr hfits) rfl)).2
        simp [hone, accepted, hfits, List.append_assoc]
      · obtain ⟨declared, hrefused⟩ := writeFrame_not_fits (s := s) hfits
        simp [hrefused, accepted, hfits]
    · have hone : (writeFrame s body maximum).1.isOk = decide (Fits body maximum) := by
        cases hresult : (writeFrame s body maximum).1 with
        | ok =>
          rw [hresult] at hok
          exact (decide_eq_true (hok.mp rfl)).symm
        | error error =>
          rw [hresult] at hok
          exact (decide_eq_false (fun hfits => by cases hok.mpr hfits)).symm
      rw [List.map_cons, List.map_cons, hone, hresults]

/-- At the end of the bytes a reader sees the end, after any
interruptions. -/
theorem readFrame_closed {s : Stream} (maximum : UInt32) (h : Delivers s.incoming)
    (hend : content s.incoming = []) : (readFrame s maximum).1 = .error .closed := by
  obtain ⟨hbytes, -, -, hfull, hstopped⟩ := fill_delivers h PREFIX_BYTES
  have hnot : (fill s.incoming PREFIX_BYTES).outcome ≠ .full := by
    intro hout
    have hlength := hfull.mp hout
    rw [hend] at hlength
    cases hlength
  have heof : (fill s.incoming PREFIX_BYTES).outcome = .eof := hstopped.resolve_left hnot
  have hnil : (fill s.incoming PREFIX_BYTES).bytes = [] := by rw [hbytes, hend, List.take_nil]
  simp only [readFrame, readExactOrClosed, heof, hnil, if_pos]

/-- Frames read back in order, and then the end. -/
theorem readFrames_encode {maximum : UInt32} {bodies : List String}
    (hfits : ∀ body ∈ bodies, Fits body maximum) {s : Stream} (h : Delivers s.incoming)
    (hcontent : content s.incoming = bodies.flatMap encode) :
    readFrames maximum (bodies.length + 1) s = bodies.map .ok ++ [.error .closed] := by
  induction bodies generalizing s with
  | nil =>
    have hclosed := readFrame_closed maximum h hcontent
    simp only [readFrames, List.length_nil, hclosed]
    rfl
  | cons body bodies ih =>
    rw [List.flatMap_cons] at hcontent
    obtain ⟨t, hread, hdelivers, hrest, -⟩ :=
      readFrame_encode (hfits body List.mem_cons_self) h hcontent
    have hmore := ih (fun other hmem => hfits other (List.mem_cons_of_mem _ hmem)) hdelivers hrest
    rw [List.length_cons, readFrames, hread]
    simp only [hmore, List.map_cons, List.cons_append]

/-- **Frames round-trip over any chunking**: a writer that does not fail
accepts exactly the bodies of at most `maximum` bytes and writes nothing of
the others, whatever the stream does; what it put out is read back as the
accepted bodies, in order, and then the end. -/
theorem frames_round_trip (maximum : UInt32) (bodies : List String) :
    (∀ body, ¬ Fits body maximum → ∀ s, ∃ declared,
      writeFrame s body maximum = (.error (.tooLarge declared maximum), s)) ∧
    ∀ writer, Accepting writer → writer.written = [] →
      (writeFrames maximum bodies writer).1.map Except.isOk
        = bodies.map (fun body => decide (Fits body maximum)) ∧
      ∀ reader, Delivers reader.incoming →
        content reader.incoming = (writeFrames maximum bodies writer).2.written →
        readFrames maximum ((accepted maximum bodies).length + 1) reader
          = (accepted maximum bodies).map .ok ++ [.error .closed] := by
  refine ⟨fun body hfits s => writeFrame_not_fits hfits, fun writer haccepting hempty => ?_⟩
  obtain ⟨hwritten, hresults⟩ := writeFrames_written maximum bodies haccepting
  refine ⟨hresults, fun reader hdelivers hcontent => ?_⟩
  rw [hwritten, hempty, List.nil_append] at hcontent
  exact readFrames_encode (fun body hmem => fits_of_mem_accepted hmem) hdelivers hcontent

/-- A reader that gets one byte at a time, each behind an interruption. -/
def bytewise (bytes : List UInt8) : Stream where
  incoming := bytes.flatMap (fun byte => [.error .interrupted, .data [byte]])

/-- Of three bodies the middle one is over the maximum. -/
theorem frames_round_trip_bytewise :
    readFrames 2 3 (bytewise (encode "a" ++ encode "bc"))
      = [.ok "a", .ok "bc", .error .closed] := by
  have hround := ((frames_round_trip 2 ["a", "long", "bc"]).2 ⟨[], [], [], []⟩
    ⟨by simp [Accepts], by simp⟩ rfl).2 (bytewise (encode "a" ++ encode "bc"))
  refine (hround ?_ (by decide +kernel)).trans ?_
  · intro event hevent
    obtain ⟨byte, -, hmem⟩ := List.mem_flatMap.mp hevent
    rcases List.mem_pair.mp hmem with rfl | rfl
    · exact .inl rfl
    · exact .inr ⟨[byte], by simp, rfl⟩
  · decide +kernel

end NostdbServer.Frame
