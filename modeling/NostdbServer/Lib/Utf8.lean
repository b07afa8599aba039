import Mathlib

/-!
# Utf8 — UTF-8 on byte lists, strict and lossy

Core decodes `ByteArray`s; wire frames and file names here are byte
lists. `utf8` and `ofUtf8?` are core's encoder and strict decoder at
that type. `lossy` is the decoder that cannot fail: each maximal
ill-formed stretch of bytes becomes one replacement character U+FFFD.

The fact the round trips rest on is `utf8_lossy_eq_iff`: decoding
lossily and encoding again gives the bytes back exactly when they were
UTF-8 to begin with.
-/

namespace Utf8

/-- The UTF-8 bytes of `s`. -/
def utf8 (s : String) : List UInt8 := s.toByteArray.data.toList

/-- The string whose UTF-8 bytes these are, `none` on ill-formed bytes. -/
def ofUtf8? (bytes : List UInt8) : Option String := String.fromUTF8? ⟨bytes.toArray⟩

@[simp] theorem ofUtf8?_utf8 (s : String) : ofUtf8? (utf8 s) = some s := by
  have hbytes : (⟨s.toByteArray.data.toList.toArray⟩ : ByteArray) = s.toByteArray := by simp
  simp only [ofUtf8?, utf8, hbytes, String.fromUTF8?]
  exact dif_pos s.isValidUTF8

theorem utf8_of_ofUtf8? {bytes : List UInt8} {s : String} (h : ofUtf8? bytes = some s) :
    utf8 s = bytes := by
  simp only [ofUtf8?, String.fromUTF8?] at h
  split at h
  · cases h
    simp [utf8, String.fromUTF8]
  · cases h

@[simp] theorem length_utf8 (s : String) : (utf8 s).length = s.utf8ByteSize :=
  Array.length_toList

theorem utf8_eq_flatMap (s : String) : utf8 s = s.toList.flatMap String.utf8EncodeChar := by
  have h : (s.toList.flatMap String.utf8EncodeChar).toByteArray = s.toByteArray := by
    rw [← String.utf8Encode_toList]
    rfl
  simp [utf8, ← h]

theorem utf8ByteSize_ofList (l : List Char) :
    (String.ofList l).utf8ByteSize = (l.map Char.utf8Size).sum := by
  rw [← length_utf8, utf8_eq_flatMap, String.toList_ofList, List.length_flatMap]
  simp only [String.length_utf8EncodeChar]

/-! ## Lossy decoding -/

/-- The character at the front of `bytes`, `none` where no well-formed
sequence starts. -/
def decode? (bytes : List UInt8) : Option Char := ByteArray.utf8DecodeChar? ⟨bytes.toArray⟩ 0

/-- Whether a byte may continue a sequence. -/
def isContinuation (b : UInt8) : Bool := 0x80 ≤ b && b < 0xC0

/-- Whether `second` may follow the first byte of a three- or four-byte
sequence: the ranges that leave out overlong forms, surrogates and what
lies past U+10FFFF. -/
def allowsSecond (first second : UInt8) : Bool :=
  if first = 0xE0 then 0xA0 ≤ second && second < 0xC0
  else if first = 0xED then 0x80 ≤ second && second < 0xA0
  else if first = 0xF0 then 0x90 ≤ second && second < 0xC0
  else if first = 0xF4 then 0x80 ≤ second && second < 0x90
  else isContinuation second

/-- How many bytes behind an ill-formed `first` belong to the same
stretch: those that a well-formed sequence could still have had. -/
def brokenTail (first : UInt8) (rest : List UInt8) : Nat :=
  if 0xE0 ≤ first && first < 0xF0 then
    match rest with
    | second :: _ => if allowsSecond first second then 1 else 0
    | [] => 0
  else if 0xF0 ≤ first && first < 0xF5 then
    match rest with
    | second :: third :: _ =>
        if allowsSecond first second then (if isContinuation third then 2 else 1) else 0
    | [second] => if allowsSecond first second then 1 else 0
    | [] => 0
  else 0

/-- The characters of `bytes`, after `skip` bytes that the character
before them already stands for. -/
def lossyChars : Nat → List UInt8 → List Char
  | _, [] => []
  | skip + 1, _ :: rest => lossyChars skip rest
  | 0, first :: rest =>
      match decode? (first :: rest) with
      | some c => c :: lossyChars (c.utf8Size - 1) rest
      | none => '\uFFFD' :: lossyChars (brokenTail first rest) rest

/-- The text of `bytes`, ill-formed stretches replaced. -/
def lossy (bytes : List UInt8) : String := String.ofList (lossyChars 0 bytes)

theorem decode?_encode_append (c : Char) (rest : List UInt8) :
    decode? (String.utf8EncodeChar c ++ rest) = some c := by
  have h : (⟨(String.utf8EncodeChar c ++ rest).toArray⟩ : ByteArray)
      = (String.utf8EncodeChar c).toByteArray ++ ⟨rest.toArray⟩ := by
    ext1
    simp
  rw [decode?, h]
  exact ByteArray.utf8DecodeChar?_utf8EncodeChar_append

theorem lossyChars_skip (skipped rest : List UInt8) :
    lossyChars skipped.length (skipped ++ rest) = lossyChars 0 rest := by
  induction skipped with
  | nil => rfl
  | cons b skipped ih => simpa [lossyChars] using ih

theorem lossyChars_encode (c : Char) (rest : List UInt8) :
    lossyChars 0 (String.utf8EncodeChar c ++ rest) = c :: lossyChars 0 rest := by
  have hlen : (String.utf8EncodeChar c).length = c.utf8Size := String.length_utf8EncodeChar c
  have hdecode := decode?_encode_append c rest
  cases hbytes : String.utf8EncodeChar c with
  | nil => exact absurd hbytes String.utf8EncodeChar_ne_nil
  | cons first tail =>
    rw [hbytes] at hlen hdecode
    have hskip : c.utf8Size - 1 = tail.length := by
      simp only [List.length_cons] at hlen
      omega
    simp only [List.cons_append] at hdecode ⊢
    simp only [lossyChars, hdecode, hskip, lossyChars_skip]

theorem lossyChars_flatMap (cs : List Char) (rest : List UInt8) :
    lossyChars 0 (cs.flatMap String.utf8EncodeChar ++ rest) = cs ++ lossyChars 0 rest := by
  induction cs with
  | nil => rfl
  | cons c cs ih =>
    rw [List.flatMap_cons, List.append_assoc, lossyChars_encode, ih, List.cons_append]

/-- The characters of a text and of the bytes behind it. -/
theorem lossyChars_utf8 (s : String) (rest : List UInt8) :
    lossyChars 0 (utf8 s ++ rest) = s.toList ++ lossyChars 0 rest := by
  rw [utf8_eq_flatMap, lossyChars_flatMap]

/-- Lossy decoding of well-formed bytes loses nothing. -/
@[simp] theorem lossy_utf8 (s : String) : lossy (utf8 s) = s := by
  have h : lossyChars 0 (utf8 s) = s.toList := by simpa [lossyChars] using lossyChars_utf8 s []
  rw [lossy, h, String.ofList_toList]

/-- The text of the first bytes of a text is a prefix of it. -/
theorem prefix_of_take {s t : String} {k : Nat} (h : ofUtf8? ((utf8 s).take k) = some t) :
    t.toList <+: s.toList := by
  have hsplit : utf8 t ++ (utf8 s).drop k = utf8 s := by
    rw [utf8_of_ofUtf8? h, List.take_append_drop]
  have hs : lossyChars 0 (utf8 s) = s.toList := by simpa [lossyChars] using lossyChars_utf8 s []
  rw [← hsplit, lossyChars_utf8] at hs
  exact ⟨_, hs⟩

/-- **What lossy decoding keeps**: exactly the well-formed byte strings. -/
theorem utf8_lossy_eq_iff (bytes : List UInt8) :
    utf8 (lossy bytes) = bytes ↔ (ofUtf8? bytes).isSome := by
  constructor
  · intro h
    rw [← h, ofUtf8?_utf8]
    rfl
  · intro h
    obtain ⟨s, hs⟩ := Option.isSome_iff_exists.mp h
    rw [← utf8_of_ofUtf8? hs, lossy_utf8]

example : lossy [0x2F, 0xFF, 0x61] = "/\uFFFDa" := by decide

end Utf8
