import Mathlib.Data.UInt
import NostdbServer.Lib.Script
import NostdbServer.Lib.Utf8

/-!
# Frame — message framing

`src/frame.rs`: a message is a 4-byte big-endian byte count followed by
that many bytes of UTF-8. The functions are generic over `Read + Write`;
here a stream is the script of what its calls answer, with the bytes it
has taken so far.

Each operation has one lemma per fact its callers use: what a read leaves
alone and what it takes from the input, when a write succeeds and what it
puts out. The loops above cite these and never unfold the operations.
-/

namespace NostdbServer

open Script Utf8

/-- A connection's two directions, as the answers of the calls to come,
and the bytes written so far. -/
structure Stream where
  incoming : List ReadEvent
  outgoing : List WriteEvent := []
  flushes : List (Except ErrorKind Unit) := []
  written : List UInt8 := []

/-- Why a frame was refused. -/
inductive FrameError where
  | tooLarge (declared maximum : UInt32)
  | notUtf8
  | closed
  | truncated
  | io (kind : ErrorKind)
  deriving DecidableEq, Repr

namespace Frame

/-- The smallest maximum frame size the contract allows. -/
def MINIMUM_MAXIMUM_FRAME_BYTES : UInt32 := 8 * 1024 * 1024

/-- The length prefix's width on the wire. -/
def PREFIX_BYTES : Nat := 4

/-- `u32::to_be_bytes`. -/
def toBeBytes (n : UInt32) : List UInt8 :=
  [UInt8.ofNat (n.toNat / 2 ^ 24), UInt8.ofNat (n.toNat / 2 ^ 16),
    UInt8.ofNat (n.toNat / 2 ^ 8), UInt8.ofNat n.toNat]

/-- `u32::from_be_bytes`. -/
def fromBeBytes (bytes : List UInt8) : UInt32 :=
  UInt32.ofNat (bytes.foldl (fun n b => n * 2 ^ 8 + b.toNat) 0)

theorem fromBeBytes_toBeBytes (n : UInt32) : fromBeBytes (toBeBytes n) = n := by
  have hn : n.toNat < 2 ^ 32 := n.toNat_lt
  apply UInt32.toNat_inj.mp
  simp only [fromBeBytes, toBeBytes, List.foldl_cons, List.foldl_nil, UInt8.toNat_ofNat',
    UInt32.toNat_ofNat']
  omega

inductive Read0 where
  | filled (buffer : List UInt8)
  | closed

/-- Fills a buffer of `len` bytes, distinguishing a clean end before any
byte from a truncated read. -/
def readExactOrClosed (stream : Stream) (len : Nat) : Except FrameError Read0 × Stream :=
  let got := fill stream.incoming len
  let stream := { stream with incoming := got.rest }
  match got.outcome with
  | .full => (.ok (.filled got.bytes), stream)
  | .eof => if got.bytes = [] then (.ok .closed, stream) else (.error .truncated, stream)
  | .failed kind => (.error (.io kind), stream)

/-- `Read::read_exact`: an end before `len` bytes is `UnexpectedEof`. -/
def readExact (stream : Stream) (len : Nat) : Except ErrorKind (List UInt8) × Stream :=
  let got := fill stream.incoming len
  let stream := { stream with incoming := got.rest }
  match got.outcome with
  | .full => (.ok got.bytes, stream)
  | .eof => (.error .unexpectedEof, stream)
  | .failed kind => (.error kind, stream)

/-- Reads one frame, refusing an over-long one before reading its body. -/
def readFrame (stream : Stream) (maximum : UInt32) : Except FrameError String × Stream :=
  match readExactOrClosed stream PREFIX_BYTES with
  | (.error error, stream) => (.error error, stream)
  | (.ok .closed, stream) => (.error .closed, stream)
  | (.ok (.filled header), stream) =>
      let declared := fromBeBytes header
      if declared > maximum then (.error (.tooLarge declared maximum), stream)
      else
        match readExact stream declared.toNat with
        | (.error .unexpectedEof, stream) => (.error .truncated, stream)
        | (.error kind, stream) => (.error (.io kind), stream)
        | (.ok body, stream) =>
            match ofUtf8? body with
            | some text => (.ok text, stream)
            | none => (.error .notUtf8, stream)

/-- `Write::write_all`. -/
def writeAll (stream : Stream) (bytes : List UInt8) : Except FrameError Unit × Stream :=
  let wrote := Script.writeAll stream.outgoing bytes
  let stream := { stream with outgoing := wrote.rest, written := stream.written ++ wrote.bytes }
  match wrote.result with
  | .ok () => (.ok (), stream)
  | .error kind => (.error (.io kind), stream)

/-- `Write::flush`. -/
def flush (stream : Stream) : Except FrameError Unit × Stream :=
  match stream.flushes with
  | [] => (.ok (), stream)
  | .ok () :: rest => (.ok (), { stream with flushes := rest })
  | .error kind :: rest => (.error (.io kind), { stream with flushes := rest })

/-- Writes one frame. -/
def writeFrame (stream : Stream) (body : String) (maximum : UInt32) :
    Except FrameError Unit × Stream :=
  let bytes := utf8 body
  if bytes.length < UInt32.size then
    let declared := UInt32.ofNat bytes.length
    if declared > maximum then (.error (.tooLarge declared maximum), stream)
    else
      match writeAll stream (toBeBytes declared) with
      | (.error error, stream) => (.error error, stream)
      | (.ok (), stream) =>
          match writeAll stream bytes with
          | (.error error, stream) => (.error error, stream)
          | (.ok (), stream) => flush stream
  else (.error (.tooLarge (UInt32.ofNat (UInt32.size - 1)) maximum), stream)

/-- The bytes of a frame: the big-endian length and the body. -/
def encode (body : String) : List UInt8 :=
  toBeBytes (UInt32.ofNat body.utf8ByteSize) ++ utf8 body

/-- Whether a body is within the maximum, the writer's guard. -/
def Fits (body : String) (maximum : UInt32) : Prop := body.utf8ByteSize ≤ maximum.toNat

instance (body : String) (maximum : UInt32) : Decidable (Fits body maximum) :=
  inferInstanceAs (Decidable (_ ≤ _))

/-! ## What a read leaves and takes -/

/-- The half of a stream a read does not touch. -/
def SameOutput (s t : Stream) : Prop :=
  s.outgoing = t.outgoing ∧ s.flushes = t.flushes ∧ s.written = t.written

theorem readExactOrClosed_output (s : Stream) (len : Nat) :
    SameOutput (readExactOrClosed s len).2 s := by
  simp only [readExactOrClosed]
  split
  · exact ⟨rfl, rfl, rfl⟩
  · split <;> exact ⟨rfl, rfl, rfl⟩
  · exact ⟨rfl, rfl, rfl⟩

theorem readExact_output (s : Stream) (len : Nat) : SameOutput (readExact s len).2 s := by
  simp only [readExact]
  split <;> exact ⟨rfl, rfl, rfl⟩

theorem SameOutput.trans {s t u : Stream} (h : SameOutput s t) (h' : SameOutput t u) :
    SameOutput s u := ⟨h.1.trans h'.1, h.2.1.trans h'.2.1, h.2.2.trans h'.2.2⟩

/-- A read puts nothing out and uses up no answer of a write. -/
theorem readFrame_output (s : Stream) (maximum : UInt32) :
    SameOutput (readFrame s maximum).2 s := by
  have hhead := readExactOrClosed_output s PREFIX_BYTES
  simp only [readFrame]
  cases hr : readExactOrClosed s PREFIX_BYTES with
  | mk result stream =>
    rw [hr] at hhead
    cases result with
    | error error => exact hhead
    | ok read =>
      cases read with
      | closed => exact hhead
      | filled header =>
        simp only
        split
        · exact hhead
        · have hbody := (readExact_output stream (fromBeBytes header).toNat).trans hhead
          cases hb : readExact stream (fromBeBytes header).toNat with
          | mk result stream' =>
            rw [hb] at hbody
            cases result with
            | error kind => cases kind <;> exact hbody
            | ok body =>
              simp only
              split <;> exact hbody

/-- A frame that was read took its prefix and its body from the input. -/
theorem readFrame_remaining {s t : Stream} {maximum : UInt32} {body : String}
    (h : readFrame s maximum = (.ok body, t)) :
    PREFIX_BYTES + body.utf8ByteSize + remaining t.incoming ≤ remaining s.incoming := by
  have hhead := fill_remaining s.incoming PREFIX_BYTES
  simp only [readFrame, readExactOrClosed] at h
  cases ho : (fill s.incoming PREFIX_BYTES).outcome with
  | eof =>
    by_cases hnil : (fill s.incoming PREFIX_BYTES).bytes = [] <;> simp [ho, hnil] at h
  | failed kind => simp [ho] at h
  | full =>
    have hlen := fill_full ho
    simp only [ho] at h
    split at h
    · cases h
    · generalize (fromBeBytes _).toNat = len at h
      have hbody := fill_remaining (fill s.incoming PREFIX_BYTES).rest len
      simp only [readExact] at h
      cases ho' : (fill (fill s.incoming PREFIX_BYTES).rest len).outcome with
      | eof => simp [ho'] at h
      | failed kind => cases kind <;> simp [ho'] at h
      | full =>
        simp only [ho'] at h
        split at h
        · rename_i text htext
          cases h
          have hsize := congrArg List.length (utf8_of_ofUtf8? htext)
          rw [length_utf8] at hsize
          simp only
          omega
        · cases h

/-! ## When a write succeeds -/

/-- Writes and flushes that never fail. -/
def Accepting (s : Stream) : Prop := Accepts s.outgoing ∧ ∀ f ∈ s.flushes, f = .ok ()

theorem Accepting.of_sameOutput {s t : Stream} (h : SameOutput s t) (ht : Accepting t) :
    Accepting s := by
  obtain ⟨ho, hf, _⟩ := h
  exact ⟨ho ▸ ht.1, hf ▸ ht.2⟩

theorem writeAll_written (s : Stream) (bytes : List UInt8)
    (h : (writeAll s bytes).1 = .ok ()) : (writeAll s bytes).2.written = s.written ++ bytes := by
  simp only [writeAll] at h ⊢
  split at h
  · rename_i hok
    simp only [writeAll_ok hok]
  · cases h

theorem Accepting.writeAll {s : Stream} (h : Accepting s) (bytes : List UInt8) :
    (writeAll s bytes).1 = .ok () ∧ Accepting (writeAll s bytes).2 := by
  obtain ⟨hok, hrest⟩ := writeAll_accepts h.1 bytes
  simp only [Frame.writeAll, hok]
  exact ⟨trivial, hrest, h.2⟩

theorem Accepting.flush {s : Stream} (h : Accepting s) :
    (flush s).1 = .ok () ∧ Accepting (flush s).2 := by
  obtain ⟨ho, hf⟩ := h
  cases hfl : s.flushes with
  | nil =>
    simp only [Frame.flush, hfl]
    exact ⟨trivial, ho, hfl ▸ hf⟩
  | cons f rest =>
    rw [hfl] at hf
    obtain rfl := hf f (by simp)
    simp only [Frame.flush, hfl]
    exact ⟨trivial, ho, fun g hg => hf g (by simp [hg])⟩

theorem flush_written (s : Stream) : (flush s).2.written = s.written := by
  simp only [flush]
  split <;> rfl

theorem incoming_writeAll (s : Stream) (bytes : List UInt8) :
    (writeAll s bytes).2.incoming = s.incoming := by
  simp only [writeAll]
  split <;> rfl

theorem incoming_flush (s : Stream) : (flush s).2.incoming = s.incoming := by
  simp only [flush]
  split <;> rfl

/-- The guard of `write_frame`, as one comparison of byte counts. -/
theorem declared_le_iff {n : Nat} (h : n < UInt32.size) (maximum : UInt32) :
    ¬ UInt32.ofNat n > maximum ↔ n ≤ maximum.toNat := by
  rw [gt_iff_lt, UInt32.lt_iff_toNat_lt, UInt32.toNat_ofNat_of_lt' h, Nat.not_lt]

/-- A body over the maximum is refused and nothing is written. -/
theorem writeFrame_not_fits {s : Stream} {body : String} {maximum : UInt32}
    (h : ¬ Fits body maximum) : ∃ declared,
      writeFrame s body maximum = (.error (.tooLarge declared maximum), s) := by
  simp only [writeFrame, length_utf8]
  split
  · rename_i hsize
    rw [if_pos (not_not.mp (fun hn => h ((declared_le_iff hsize maximum).mp hn)))]
    exact ⟨_, rfl⟩
  · exact ⟨_, rfl⟩

theorem fits_lt_size {body : String} {maximum : UInt32} (h : Fits body maximum) :
    body.utf8ByteSize < UInt32.size := Nat.lt_of_le_of_lt h maximum.toNat_lt

/-- A body within the maximum is written as its prefix, its bytes and a
flush. -/
theorem writeFrame_fits {s : Stream} {body : String} {maximum : UInt32} (h : Fits body maximum) :
    writeFrame s body maximum =
      match writeAll s (toBeBytes (UInt32.ofNat body.utf8ByteSize)) with
      | (.error error, stream) => (.error error, stream)
      | (.ok (), stream) =>
          match writeAll stream (utf8 body) with
          | (.error error, stream) => (.error error, stream)
          | (.ok (), stream) => flush stream := by
  have hsize := fits_lt_size h
  simp only [writeFrame, length_utf8, if_pos hsize,
    if_neg ((declared_le_iff hsize maximum).mpr h)]

/-- A write that succeeded had a body within the maximum and put its
whole frame out. -/
theorem writeFrame_ok {s t : Stream} {body : String} {maximum : UInt32}
    (h : writeFrame s body maximum = (.ok (), t)) :
    Fits body maximum ∧ t.written = s.written ++ encode body := by
  by_cases hfits : Fits body maximum
  · refine ⟨hfits, ?_⟩
    rw [writeFrame_fits hfits] at h
    cases hp : writeAll s (toBeBytes (UInt32.ofNat body.utf8ByteSize)) with
    | mk result s₁ =>
      cases result with
      | error error => simp [hp] at h
      | ok =>
        cases hb : writeAll s₁ (utf8 body) with
        | mk result s₂ =>
          cases result with
          | error error => simp [hp, hb] at h
          | ok =>
            simp only [hp, hb] at h
            have h₁ := writeAll_written s (toBeBytes (UInt32.ofNat body.utf8ByteSize))
              (by rw [hp])
            have h₂ := writeAll_written s₁ (utf8 body) (by rw [hb])
            have h₃ := flush_written s₂
            rw [hp] at h₁
            rw [hb] at h₂
            rw [h] at h₃
            rw [h₃, h₂, h₁, encode, List.append_assoc]
  · obtain ⟨declared, hrefused⟩ := writeFrame_not_fits (s := s) hfits
    rw [hrefused] at h
    cases h

/-- Whatever comes of a write, what it put out is a front part of the
frame. -/
theorem writeFrame_front (s : Stream) (body : String) (maximum : UInt32) : ∃ sent unsent,
    (writeFrame s body maximum).2.written = s.written ++ sent ∧ sent ++ unsent = encode body := by
  by_cases hfits : Fits body maximum
  · rw [writeFrame_fits hfits]
    have hprefix := writeAll_front s.outgoing (toBeBytes (UInt32.ofNat body.utf8ByteSize))
    have hout (s : Stream) (bytes : List UInt8) : (writeAll s bytes).2.written
        = s.written ++ (Script.writeAll s.outgoing bytes).bytes := by
      simp only [writeAll]
      split <;> rfl
    cases hp : writeAll s (toBeBytes (UInt32.ofNat body.utf8ByteSize)) with
    | mk result s₁ =>
      have hs₁ := hout s (toBeBytes (UInt32.ofNat body.utf8ByteSize))
      rw [hp] at hs₁
      rcases result with error | ⟨⟩
      · obtain ⟨unsent, hunsent⟩ := hprefix
        exact ⟨_, unsent ++ utf8 body, hs₁, by rw [← List.append_assoc, hunsent, encode]⟩
      · have hwhole := writeAll_written s (toBeBytes (UInt32.ofNat body.utf8ByteSize)) (by rw [hp])
        rw [hp] at hwhole
        obtain ⟨unsent, hunsent⟩ := writeAll_front s₁.outgoing (utf8 body)
        have hs₂ := hout s₁ (utf8 body)
        simp only
        cases hb : writeAll s₁ (utf8 body) with
        | mk result s₂ =>
          rw [hb] at hs₂
          refine ⟨toBeBytes (UInt32.ofNat body.utf8ByteSize)
            ++ (Script.writeAll s₁.outgoing (utf8 body)).bytes, unsent, ?_, ?_⟩
          · rcases result with error | ⟨⟩
            · rw [hs₂, hwhole, List.append_assoc]
            · rw [flush_written, hs₂, hwhole, List.append_assoc]
          · rw [List.append_assoc, hunsent, encode]
  · obtain ⟨declared, hrefused⟩ := writeFrame_not_fits (s := s) hfits
    exact ⟨[], encode body, by rw [hrefused, List.append_nil], rfl⟩

/-- A write of a body within the maximum fails by the stream alone. -/
theorem writeFrame_fits_error {s t : Stream} {body : String} {maximum : UInt32} {error : FrameError}
    (hfits : Fits body maximum) (h : writeFrame s body maximum = (.error error, t)) :
    ∃ kind, error = .io kind := by
  have hwrite {s t : Stream} {bytes : List UInt8} (h : writeAll s bytes = (.error error, t)) :
      ∃ kind, error = .io kind := by
    simp only [writeAll] at h
    split at h <;> cases h
    exact ⟨_, rfl⟩
  rw [writeFrame_fits hfits] at h
  split at h
  · rename_i hprefix
    cases h
    exact hwrite hprefix
  · split at h
    · rename_i hbody
      cases h
      exact hwrite hbody
    · simp only [flush] at h
      split at h <;> cases h
      exact ⟨_, rfl⟩

/-- Over writes that never fail, a frame is written exactly when its body
is within the maximum, and later writes still never fail. -/
theorem Accepting.writeFrame {s : Stream} (h : Accepting s) (body : String) (maximum : UInt32) :
    ((writeFrame s body maximum).1 = .ok () ↔ Fits body maximum) ∧
      Accepting (writeFrame s body maximum).2 := by
  by_cases hfits : Fits body maximum
  · obtain ⟨hp, hs₁⟩ := h.writeAll (toBeBytes (UInt32.ofNat body.utf8ByteSize))
    obtain ⟨hb, hs₂⟩ := hs₁.writeAll (utf8 body)
    obtain ⟨hf, hs₃⟩ := hs₂.flush
    rw [writeFrame_fits hfits]
    rw [show Frame.writeAll s (toBeBytes (UInt32.ofNat body.utf8ByteSize))
        = (.ok (), _) from Prod.ext hp rfl]
    simp only
    rw [show Frame.writeAll _ (utf8 body) = (.ok (), _) from Prod.ext hb rfl]
    exact ⟨iff_of_true hf hfits, hs₃⟩
  · obtain ⟨declared, hrefused⟩ := writeFrame_not_fits (s := s) hfits
    rw [hrefused]
    exact ⟨iff_of_false (by simp) hfits, h⟩

/-- A write takes nothing from the input. -/
theorem incoming_writeFrame (s : Stream) (body : String) (maximum : UInt32) :
    (writeFrame s body maximum).2.incoming = s.incoming := by
  by_cases hfits : Fits body maximum
  · rw [writeFrame_fits hfits]
    have hp := incoming_writeAll s (toBeBytes (UInt32.ofNat body.utf8ByteSize))
    cases hw : writeAll s (toBeBytes (UInt32.ofNat body.utf8ByteSize)) with
    | mk result s₁ =>
      rw [hw] at hp
      rcases result with error | ⟨⟩
      · exact hp
      · have hb := incoming_writeAll s₁ (utf8 body)
        simp only
        cases hw' : writeAll s₁ (utf8 body) with
        | mk result s₂ =>
          rw [hw'] at hb
          rcases result with error | ⟨⟩
          · exact hb.trans hp
          · exact (incoming_flush s₂).trans (hb.trans hp)
  · obtain ⟨declared, hrefused⟩ := writeFrame_not_fits (s := s) hfits
    rw [hrefused]

/-! ## Reading back what was written -/

@[simp] theorem length_toBeBytes (n : UInt32) : (toBeBytes n).length = PREFIX_BYTES := rfl

theorem readExact_delivers {s : Stream} {bytes more : List UInt8} (h : Delivers s.incoming)
    (hc : content s.incoming = bytes ++ more) :
    ∃ t, readExact s bytes.length = (.ok bytes, t) ∧ Delivers t.incoming ∧
      content t.incoming = more ∧ SameOutput t s := by
  obtain ⟨hbytes, hrest, hdeliv, hfull, _⟩ := fill_delivers h bytes.length
  have ho : (fill s.incoming bytes.length).outcome = .full := hfull.mpr (by rw [hc]; simp)
  refine ⟨{ s with incoming := (fill s.incoming bytes.length).rest }, ?_, hdeliv, ?_, rfl, rfl, rfl⟩
  · simp only [readExact, ho, hbytes, hc, List.take_left]
  · rw [hrest, hc, List.drop_left]

theorem readExactOrClosed_delivers {s : Stream} {bytes more : List UInt8}
    (h : Delivers s.incoming) (hc : content s.incoming = bytes ++ more) :
    ∃ t, readExactOrClosed s bytes.length = (.ok (.filled bytes), t) ∧ Delivers t.incoming ∧
      content t.incoming = more ∧ SameOutput t s := by
  obtain ⟨hbytes, hrest, hdeliv, hfull, _⟩ := fill_delivers h bytes.length
  have ho : (fill s.incoming bytes.length).outcome = .full := hfull.mpr (by rw [hc]; simp)
  refine ⟨{ s with incoming := (fill s.incoming bytes.length).rest }, ?_, hdeliv, ?_, rfl, rfl, rfl⟩
  · simp only [readExactOrClosed, ho, hbytes, hc, List.take_left]
  · rw [hrest, hc, List.drop_left]

/-- **A frame reads back**, however its bytes are chunked: the body
comes back and the input stands at what followed it. -/
theorem readFrame_encode {s : Stream} {body : String} {maximum : UInt32} {more : List UInt8}
    (hfits : Fits body maximum) (h : Delivers s.incoming)
    (hc : content s.incoming = encode body ++ more) :
    ∃ t, readFrame s maximum = (.ok body, t) ∧ Delivers t.incoming ∧
      content t.incoming = more ∧ SameOutput t s := by
  have hsize := fits_lt_size hfits
  rw [encode, List.append_assoc] at hc
  obtain ⟨s₁, hhead, hdeliv₁, hc₁, hout₁⟩ := readExactOrClosed_delivers h hc
  rw [length_toBeBytes] at hhead
  obtain ⟨s₂, hbody, hdeliv₂, hc₂, hout₂⟩ := readExact_delivers hdeliv₁ hc₁
  refine ⟨s₂, ?_, hdeliv₂, hc₂, hout₂.trans hout₁⟩
  rw [length_utf8] at hbody
  simp only [readFrame, hhead, fromBeBytes_toBeBytes,
    if_neg ((declared_le_iff hsize maximum).mpr hfits), UInt32.toNat_ofNat_of_lt' hsize, hbody,
    ofUtf8?_utf8]

end Frame

end NostdbServer
