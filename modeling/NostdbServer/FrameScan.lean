import NostdbServer.FrameRoundTrip

/-!
# FrameScan — what the bytes of a connection read as

`front` says of a byte string alone what the next read makes of it, and
which bytes are left behind it. `read_frame` is that function of the bytes
to come, however they are chunked (`readFrame_front`), so what a connection
hears is decided by its bytes.

A cut of a sequence of frames is then read as the frames before it and one
ending: the orderly one on a frame boundary, a truncation inside a frame
(`read_frame_classified`).
-/

namespace NostdbServer.Frame

open Script Utf8

/-- What the next read makes of the bytes, and the bytes behind it. -/
def front (maximum : UInt32) (bytes : List UInt8) : Except FrameError String × List UInt8 :=
  if bytes = [] then (.error .closed, [])
  else if bytes.length < PREFIX_BYTES then (.error .truncated, [])
  else
    let declared := fromBeBytes (bytes.take PREFIX_BYTES)
    let rest := bytes.drop PREFIX_BYTES
    if declared > maximum then (.error (.tooLarge declared maximum), rest)
    else if rest.length < declared.toNat then (.error .truncated, [])
    else
      match ofUtf8? (rest.take declared.toNat) with
      | some body => (.ok body, rest.drop declared.toNat)
      | none => (.error .notUtf8, rest.drop declared.toNat)

/-- **A read is a function of the bytes to come**, whatever the chunks. -/
theorem readFrame_front {s : Stream} (maximum : UInt32) (h : Delivers s.incoming) :
    (readFrame s maximum).1 = (front maximum (content s.incoming)).1 ∧
      content (readFrame s maximum).2.incoming = (front maximum (content s.incoming)).2 ∧
      Delivers (readFrame s maximum).2.incoming := by
  generalize hbytes : content s.incoming = bytes
  obtain ⟨hhead, hrest, hdelivers, hfull, hstopped⟩ := fill_delivers h PREFIX_BYTES
  rw [hbytes] at hhead hrest hfull
  by_cases hshort : bytes.length < PREFIX_BYTES
  · -- the prefix is cut: all that is left is taken, and the end is seen
    have heof : (fill s.incoming PREFIX_BYTES).outcome = .eof :=
      hstopped.resolve_left (fun hout => absurd (hfull.mp hout) (Nat.not_le.mpr hshort))
    have hall : (fill s.incoming PREFIX_BYTES).bytes = bytes := by
      rw [hhead, List.take_of_length_le (Nat.le_of_lt hshort)]
    have hnone : content (fill s.incoming PREFIX_BYTES).rest = [] := by
      rw [hrest, List.drop_eq_nil_of_le (Nat.le_of_lt hshort)]
    by_cases hnil : bytes = []
    · simp only [readFrame, readExactOrClosed, heof, hall, front, if_pos hnil]
      exact ⟨trivial, hnone, hdelivers⟩
    · simp only [readFrame, readExactOrClosed, heof, hall, front, if_neg hnil, if_pos hshort]
      exact ⟨trivial, hnone, hdelivers⟩
  · have hout : (fill s.incoming PREFIX_BYTES).outcome = .full := hfull.mpr (Nat.not_lt.mp hshort)
    have hnil : bytes ≠ [] := by
      rintro rfl
      exact hshort (by decide)
    simp only [readFrame, readExactOrClosed, hout, hhead, front, if_neg hnil, if_neg hshort]
    generalize hdeclared : fromBeBytes (bytes.take PREFIX_BYTES) = declared
    by_cases hlarge : declared > maximum
    · simp only [if_pos hlarge]
      exact ⟨trivial, hrest, hdelivers⟩
    · simp only [if_neg hlarge]
      obtain ⟨hbody, hmore, hdelivers', hfull', hstopped'⟩ :=
        fill_delivers hdelivers declared.toNat
      rw [hrest] at hbody hmore hfull'
      simp only [readExact]
      by_cases hlen : (bytes.drop PREFIX_BYTES).length < declared.toNat
      · have heof := hstopped'.resolve_left
          (fun hout' => absurd (hfull'.mp hout') (Nat.not_le.mpr hlen))
        simp only [heof, if_pos hlen]
        refine ⟨trivial, ?_, hdelivers'⟩
        rw [hmore, List.drop_eq_nil_of_le (Nat.le_of_lt hlen)]
      · simp only [hfull'.mpr (Nat.not_lt.mp hlen), hbody, if_neg hlen]
        cases ofUtf8? ((bytes.drop PREFIX_BYTES).take declared.toNat) with
        | some body => exact ⟨rfl, hmore, hdelivers'⟩
        | none => exact ⟨rfl, hmore, hdelivers'⟩

/-! ## One frame, whole and cut -/

/-- A whole frame reads as its body, whatever follows. -/
theorem front_encode {body : String} {maximum : UInt32} (hfits : Fits body maximum)
    (more : List UInt8) : front maximum (encode body ++ more) = (.ok body, more) := by
  have hsize := fits_lt_size hfits
  have hlength : (encode body ++ more).length = PREFIX_BYTES + body.utf8ByteSize + more.length := by
    simp only [encode, List.length_append, length_toBeBytes, length_utf8]
  have hnil : encode body ++ more ≠ [] := by
    intro h
    rw [h, List.length_nil, PREFIX_BYTES] at hlength
    omega
  have hlong : ¬ (encode body ++ more).length < PREFIX_BYTES := by omega
  have htake : (encode body ++ more).take PREFIX_BYTES
      = toBeBytes (UInt32.ofNat body.utf8ByteSize) := by
    rw [encode, List.append_assoc, ← length_toBeBytes (UInt32.ofNat body.utf8ByteSize),
      List.take_left]
  have hdrop : (encode body ++ more).drop PREFIX_BYTES = utf8 body ++ more := by
    rw [encode, List.append_assoc, ← length_toBeBytes (UInt32.ofNat body.utf8ByteSize),
      List.drop_left]
  have hbody : (utf8 body ++ more).take body.utf8ByteSize = utf8 body := by
    rw [← length_utf8, List.take_left]
  have hmore : (utf8 body ++ more).drop body.utf8ByteSize = more := by
    rw [← length_utf8, List.drop_left]
  have hwhole : ¬ (utf8 body ++ more).length < body.utf8ByteSize := by
    rw [List.length_append, length_utf8]
    omega
  simp only [front, if_neg hnil, if_neg hlong, htake, hdrop, fromBeBytes_toBeBytes,
    if_neg ((declared_le_iff hsize maximum).mpr hfits), UInt32.toNat_ofNat_of_lt' hsize,
    if_neg hwhole, hbody, hmore, ofUtf8?_utf8]

/-- A prefix that declares too much is refused, whatever follows. -/
theorem front_tooLarge {declared maximum : UInt32} (hlarge : declared > maximum)
    (more : List UInt8) :
    front maximum (toBeBytes declared ++ more) = (.error (.tooLarge declared maximum), more) := by
  have hlength : (toBeBytes declared ++ more).length = PREFIX_BYTES + more.length := by
    rw [List.length_append, length_toBeBytes]
  have hnil : toBeBytes declared ++ more ≠ [] := by
    intro h
    rw [h, List.length_nil, PREFIX_BYTES] at hlength
    omega
  have hlong : ¬ (toBeBytes declared ++ more).length < PREFIX_BYTES := by omega
  have htake : (toBeBytes declared ++ more).take PREFIX_BYTES = toBeBytes declared := by
    rw [← length_toBeBytes declared, List.take_left]
  have hdrop : (toBeBytes declared ++ more).drop PREFIX_BYTES = more := by
    rw [← length_toBeBytes declared, List.drop_left]
  simp only [front, if_neg hnil, if_neg hlong, htake, hdrop, fromBeBytes_toBeBytes,
    if_pos hlarge]

/-- A frame that is cut anywhere but at its ends reads as a truncation. -/
theorem front_piece {body : String} {maximum : UInt32} (hfits : Fits body maximum) {n : Nat}
    (hpos : 0 < n) (hn : n < (encode body).length) :
    front maximum ((encode body).take n) = (.error .truncated, []) := by
  have hsize := fits_lt_size hfits
  have hencode : (encode body).length = PREFIX_BYTES + body.utf8ByteSize := by
    simp only [encode, List.length_append, length_toBeBytes, length_utf8]
  have hlength : ((encode body).take n).length = n := by
    rw [List.length_take, Nat.min_eq_left (Nat.le_of_lt hn)]
  have hnil : (encode body).take n ≠ [] := by
    intro h
    rw [h] at hlength
    simp only [List.length_nil] at hlength
    omega
  by_cases hshort : n < PREFIX_BYTES
  · simp only [front, if_neg hnil, hlength, if_pos hshort]
  · -- the prefix is whole, and declares more than is there
    have htake : ((encode body).take n).take PREFIX_BYTES
        = toBeBytes (UInt32.ofNat body.utf8ByteSize) := by
      rw [List.take_take, Nat.min_eq_left (Nat.not_lt.mp hshort), encode,
        ← length_toBeBytes (UInt32.ofNat body.utf8ByteSize), List.take_left]
    have hrest : (((encode body).take n).drop PREFIX_BYTES).length < body.utf8ByteSize := by
      rw [List.length_drop, hlength]
      omega
    simp only [front, if_neg hnil, hlength, if_neg hshort, htake, fromBeBytes_toBeBytes,
      if_neg ((declared_le_iff hsize maximum).mpr hfits), UInt32.toNat_ofNat_of_lt' hsize,
      if_pos hrest]

/-! ## Byte strings as frames -/

theorem toBeBytes_fromBeBytes {bytes : List UInt8} (h : bytes.length = PREFIX_BYTES) :
    toBeBytes (fromBeBytes bytes) = bytes := by
  match bytes, h with
  | [a, b, c, d], _ =>
    have ha := a.toNat_lt
    have hb := b.toNat_lt
    have hc := c.toNat_lt
    have hd := d.toNat_lt
    simp only [toBeBytes, fromBeBytes, List.foldl_cons, List.foldl_nil, List.cons.injEq, and_true,
      ← UInt8.toNat_inj, UInt8.toNat_ofNat', UInt32.toNat_ofNat']
    omega

/-- Only no bytes at all read as the orderly end. -/
theorem front_closed {maximum : UInt32} {bytes : List UInt8}
    (h : (front maximum bytes).1 = .error .closed) : bytes = [] := by
  by_cases hnil : bytes = []
  · exact hnil
  · simp only [front, if_neg hnil] at h
    split at h
    · cases h
    · split at h
      · cases h
      · split at h
        · cases h
        · split at h <;> cases h

/-- What is read as a body is its frame. -/
theorem front_ok {maximum : UInt32} {bytes : List UInt8} {body : String}
    (h : (front maximum bytes).1 = .ok body) :
    Fits body maximum ∧ bytes = encode body ++ (front maximum bytes).2 := by
  by_cases hnil : bytes = []
  · rw [hnil] at h
    cases h
  · by_cases hshort : bytes.length < PREFIX_BYTES
    · simp only [front, if_neg hnil, if_pos hshort] at h
      cases h
    · simp only [front, if_neg hnil, if_neg hshort] at h ⊢
      have hprefix : toBeBytes (fromBeBytes (bytes.take PREFIX_BYTES)) = bytes.take PREFIX_BYTES :=
        toBeBytes_fromBeBytes (by rw [List.length_take]; omega)
      generalize hdeclared : fromBeBytes (bytes.take PREFIX_BYTES) = declared at h hprefix ⊢
      generalize hrest : bytes.drop PREFIX_BYTES = rest at h ⊢
      by_cases hlarge : declared > maximum
      · simp only [if_pos hlarge] at h
        cases h
      · by_cases hlen : rest.length < declared.toNat
        · simp only [if_neg hlarge, if_pos hlen] at h
          cases h
        · simp only [if_neg hlarge, if_neg hlen] at h ⊢
          cases htext : ofUtf8? (rest.take declared.toNat) with
          | none =>
            rw [htext] at h
            cases h
          | some text =>
            rw [htext] at h
            cases h
            have hbody := utf8_of_ofUtf8? htext
            have hsize : body.utf8ByteSize = declared.toNat := by
              rw [← length_utf8, hbody, List.length_take]
              omega
            have hle : declared.toNat ≤ maximum.toNat := UInt32.le_iff_toNat_le.mp
              (UInt32.not_lt.mp hlarge)
            refine ⟨by rw [Fits, hsize]; exact hle, ?_⟩
            rw [encode, hsize, UInt32.ofNat_toNat, hprefix, hbody, List.append_assoc,
              List.take_append_drop, ← hrest, List.take_append_drop]

/-- The bytes are whole frames that a reader accepts, and then `rest`. -/
def Framed (maximum : UInt32) (bytes rest : List UInt8) : Prop :=
  ∃ bodies : List String, (∀ body ∈ bodies, Fits body maximum) ∧
    bytes = bodies.flatMap encode ++ rest

theorem Framed.refl (maximum : UInt32) (bytes : List UInt8) : Framed maximum bytes bytes :=
  ⟨[], by simp, rfl⟩

/-- One frame more. -/
theorem Framed.snoc {maximum : UInt32} {bytes rest more : List UInt8} {body : String}
    (h : Framed maximum bytes rest) (hfits : Fits body maximum)
    (hrest : rest = encode body ++ more) : Framed maximum bytes more := by
  obtain ⟨bodies, hall, hbytes⟩ := h
  refine ⟨bodies ++ [body], fun other hmem => ?_, ?_⟩
  · rcases List.mem_append.mp hmem with hmem | hmem
    · exact hall other hmem
    · exact List.mem_singleton.mp hmem ▸ hfits
  · rw [hbytes, hrest, List.flatMap_append, List.flatMap_singleton, List.append_assoc]

/-- The bytes end on a frame boundary. -/
def EndsOnBoundary (maximum : UInt32) (bytes : List UInt8) : Prop := Framed maximum bytes []

/-- Behind whole frames the bytes hold a frame that is cut short, over the
maximum, or no UTF-8. -/
def Breaks (maximum : UInt32) (bytes : List UInt8) : Prop :=
  ∃ rest error, Framed maximum bytes rest ∧ (front maximum rest).1 = .error error ∧ error ≠ .closed

/-- **Bytes read one way only**: the frames before the first failed read
are fixed. -/
theorem Framed.unique {maximum : UInt32} {bytes rest rest' : List UInt8} {error error' : FrameError}
    (h : Framed maximum bytes rest) (h' : Framed maximum bytes rest')
    (hend : (front maximum rest).1 = .error error)
    (hend' : (front maximum rest').1 = .error error') : rest = rest' := by
  obtain ⟨bodies, hall, rfl⟩ := h
  obtain ⟨bodies', hall', hsame⟩ := h'
  induction bodies generalizing bodies' with
  | nil =>
    cases bodies' with
    | nil => exact hsame
    | cons body bodies' =>
      rw [List.flatMap_nil, List.nil_append, List.flatMap_cons, List.append_assoc] at hsame
      rw [hsame, front_encode (hall' body List.mem_cons_self)] at hend
      cases hend
  | cons body bodies ih =>
    rw [List.flatMap_cons, List.append_assoc] at hsame
    have hread := front_encode (hall body List.mem_cons_self) (bodies.flatMap encode ++ rest)
    rw [hsame] at hread
    cases bodies' with
    | nil =>
      rw [List.flatMap_nil, List.nil_append] at hread
      rw [hread] at hend'
      cases hend'
    | cons body' bodies' =>
      rw [List.flatMap_cons, List.append_assoc, front_encode (hall' body' List.mem_cons_self)]
        at hread
      exact ih (fun other hmem => hall other (List.mem_cons_of_mem _ hmem)) bodies'
        (fun other hmem => hall' other (List.mem_cons_of_mem _ hmem)) (Prod.mk.inj hread).2.symm

/-- Bytes that end on a boundary do not break. -/
theorem EndsOnBoundary.not_breaks {maximum : UInt32} {bytes : List UInt8}
    (h : EndsOnBoundary maximum bytes) : ¬ Breaks maximum bytes := by
  rintro ⟨rest, error, hframed, hend, hne⟩
  have hclosed : (front maximum []).1 = .error .closed := rfl
  have hrest := hframed.unique h hend hclosed
  rw [hrest] at hend
  exact hne (by cases hend; rfl)

/-! ## Cuts -/

/-- Where a cut leaves a sequence of frames: behind one of them, or inside
the next. -/
theorem cut_frames (bodies : List String) (cut : Nat) : ∃ before after, bodies = before ++ after ∧
    ((bodies.flatMap encode).take cut = before.flatMap encode ∨
      ∃ body rest n, after = body :: rest ∧ 0 < n ∧ n < (encode body).length ∧
        (bodies.flatMap encode).take cut = before.flatMap encode ++ (encode body).take n) := by
  induction bodies generalizing cut with
  | nil => exact ⟨[], [], rfl, .inl (by simp)⟩
  | cons body bodies ih =>
    rw [List.flatMap_cons]
    by_cases hcut : cut < (encode body).length
    · refine ⟨[], body :: bodies, rfl, ?_⟩
      rw [List.take_append_of_le_length (Nat.le_of_lt hcut)]
      rcases Nat.eq_zero_or_pos cut with rfl | hpos
      · exact .inl (by simp)
      · exact .inr ⟨body, bodies, cut, rfl, hpos, hcut, by simp⟩
    · obtain ⟨before, after, hsplit, hends⟩ := ih (cut - (encode body).length)
      refine ⟨body :: before, after, by rw [hsplit, List.cons_append], ?_⟩
      have htake : (encode body ++ bodies.flatMap encode).take cut
          = encode body ++ (bodies.flatMap encode).take (cut - (encode body).length) := by
        rw [List.take_append, List.take_of_length_le (Nat.not_lt.mp hcut)]
      rw [htake, List.flatMap_cons]
      rcases hends with hends | ⟨next, rest, n, hafter, hpos, hn, hends⟩
      · exact .inl (by rw [hends])
      · exact .inr ⟨next, rest, n, hafter, hpos, hn, by rw [hends, List.append_assoc]⟩

/-- Frames and then an ending are read as that. -/
theorem readFrames_front {maximum : UInt32} {bodies : List String} {rest : List UInt8}
    {error : FrameError} (hfits : ∀ body ∈ bodies, Fits body maximum)
    (hrest : (front maximum rest).1 = .error error) {s : Stream} (h : Delivers s.incoming)
    (hcontent : content s.incoming = bodies.flatMap encode ++ rest) :
    readFrames maximum (bodies.length + 1) s = bodies.map .ok ++ [.error error] := by
  induction bodies generalizing s with
  | nil =>
    rw [List.flatMap_nil, List.nil_append] at hcontent
    have hread := (readFrame_front maximum h).1
    rw [hcontent, hrest] at hread
    simp only [List.length_nil, readFrames, hread, List.map_nil, List.nil_append]
  | cons body bodies ih =>
    rw [List.flatMap_cons, List.append_assoc] at hcontent
    obtain ⟨t, hread, hdelivers, hmore, -⟩ :=
      readFrame_encode (hfits body List.mem_cons_self) h hcontent
    have hnext := ih (fun other hmem => hfits other (List.mem_cons_of_mem _ hmem)) hdelivers hmore
    rw [List.length_cons, readFrames, hread]
    simp only [hnext, List.map_cons, List.cons_append]

/-- **A read classifies its bytes**, however they are chunked, as `front`
does; and what a writer put out, cut anywhere, reads as the bodies whose
frames are whole before the cut and one ending: the orderly one behind a
whole frame, a truncation inside the next. -/
theorem read_frame_classified (maximum : UInt32) :
    (∀ s : Stream, Delivers s.incoming →
      (readFrame s maximum).1 = (front maximum (content s.incoming)).1 ∧
      content (readFrame s maximum).2.incoming = (front maximum (content s.incoming)).2 ∧
      Delivers (readFrame s maximum).2.incoming) ∧
    ∀ (bodies : List String) (writer : Stream), Accepting writer → writer.written = [] →
      ∀ (cut : Nat) (reader : Stream), Delivers reader.incoming →
      content reader.incoming = (writeFrames maximum bodies writer).2.written.take cut →
      ∃ before after, accepted maximum bodies = before ++ after ∧
        ((content reader.incoming = before.flatMap encode ∧
            readFrames maximum (before.length + 1) reader
              = before.map .ok ++ [.error .closed]) ∨
          ∃ body rest n, after = body :: rest ∧ 0 < n ∧ n < (encode body).length ∧
            content reader.incoming = before.flatMap encode ++ (encode body).take n ∧
            readFrames maximum (before.length + 1) reader
              = before.map .ok ++ [.error .truncated]) := by
  refine ⟨fun s h => readFrame_front maximum h, ?_⟩
  intro bodies writer haccepting hempty cut reader hdelivers hcontent
  obtain ⟨hwritten, -⟩ := writeFrames_written maximum bodies haccepting
  rw [hwritten, hempty, List.nil_append] at hcontent
  obtain ⟨before, after, hsplit, hends⟩ := cut_frames (accepted maximum bodies) cut
  have hfits : ∀ body ∈ before ++ after, Fits body maximum := by
    rw [← hsplit]
    exact fun body hmem => fits_of_mem_accepted hmem
  have hbefore : ∀ body ∈ before, Fits body maximum :=
    fun body hmem => hfits body (List.mem_append_left _ hmem)
  refine ⟨before, after, hsplit, ?_⟩
  rcases hends with hends | ⟨body, rest, n, hafter, hpos, hn, hends⟩
  · rw [hends] at hcontent
    have hread : content reader.incoming = before.flatMap encode ++ [] := by
      rw [hcontent, List.append_nil]
    exact .inl ⟨hcontent, readFrames_front hbefore rfl hdelivers hread⟩
  · rw [hends] at hcontent
    have hbody : Fits body maximum := hfits body (by rw [hafter]; simp)
    exact .inr ⟨body, rest, n, hafter, hpos, hn, hcontent,
      readFrames_front hbefore (by rw [front_piece hbody hpos hn]) hdelivers hcontent⟩

/-- Bytes that come one at a time are delivered. -/
theorem delivers_bytewise (bytes : List UInt8) : Delivers (bytewise bytes).incoming := by
  intro event hevent
  obtain ⟨byte, -, hmem⟩ := List.mem_flatMap.mp hevent
  rcases List.mem_pair.mp hmem with rfl | rfl
  · exact .inl rfl
  · exact .inr ⟨[byte], by simp, rfl⟩

/-- Of two frames the second is cut inside its body: `bc` is not read. -/
theorem read_frame_classified_cut : ∃ before after, ["a", "bc"] = before ++ after ∧
    readFrames 8 (before.length + 1) (bytewise ((encode "a" ++ encode "bc").take 10))
      = before.map .ok ++ [.error .truncated] := by
  obtain ⟨before, after, hsplit, hcut⟩ := (read_frame_classified 8).2 ["a", "bc"] ⟨[], [], [], []⟩
    ⟨by simp [Accepts], by simp⟩ rfl 10 (bytewise ((encode "a" ++ encode "bc").take 10))
    (delivers_bytewise _) (by decide +kernel)
  have haccepted : accepted 8 ["a", "bc"] = ["a", "bc"] := by decide +kernel
  refine ⟨before, after, haccepted ▸ hsplit, ?_⟩
  rcases hcut with ⟨hwhole, -⟩ | ⟨-, -, -, -, -, -, -, hread⟩
  · -- ten bytes are no number of whole frames of the two
    have hten : (before.flatMap encode).length = 10 := by
      rw [← hwhole]
      decide +kernel
    rw [haccepted] at hsplit
    rcases before with - | ⟨first, - | ⟨second, rest⟩⟩
    · cases hten
    · simp only [List.cons_append, List.cons.injEq] at hsplit
      obtain ⟨rfl, -⟩ := hsplit
      exact absurd hten (by decide +kernel)
    · simp only [List.cons_append, List.cons.injEq, List.nil_eq, List.append_eq_nil_iff] at hsplit
      obtain ⟨rfl, rfl, rfl, -⟩ := hsplit
      exact absurd hten (by decide +kernel)
  · exact hread

end NostdbServer.Frame
