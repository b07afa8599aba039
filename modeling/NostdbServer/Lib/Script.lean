import Mathlib.Data.List.Basic

/-!
# Script — a byte transport as the list of what its calls answer

A transport is described by what each call on it will answer: chunks of
bytes of any size, interruptions, failures. Quantifying over scripts
covers every chunking of a byte stream and every point at which a call
may fail. A script that has run out answers like an orderly end: a read
gives no bytes, a write takes everything.

`fill` is the read loop that `read_exact` and its kin share; `writeAll`
is the write loop. Both recurse on the script, so concrete transports
evaluate.
-/

namespace Script

/-- The kinds of failure the loops tell apart. -/
inductive ErrorKind where
  | interrupted
  | unexpectedEof
  | writeZero
  | other
  deriving DecidableEq, Repr

/-- What one call of `read` answers. A chunk longer than the buffer of
the call stays for the calls after it; an empty chunk is `Ok(0)`. -/
inductive ReadEvent where
  | data (bytes : List UInt8)
  | error (kind : ErrorKind)
  deriving DecidableEq, Repr

/-- What one call of `write` answers: how many bytes it took. -/
inductive WriteEvent where
  | took (count : Nat)
  | error (kind : ErrorKind)
  deriving DecidableEq, Repr

/-! ## Reading -/

/-- One `read` into a buffer of `len` bytes. -/
def read (len : Nat) : List ReadEvent → Except ErrorKind (List UInt8) × List ReadEvent
  | [] => (.ok [], [])
  | .error kind :: rest => (.error kind, rest)
  | .data bytes :: rest =>
      if bytes.length ≤ len then (.ok bytes, rest)
      else (.ok (bytes.take len), .data (bytes.drop len) :: rest)

/-- How a read loop stopped. -/
inductive Filled where
  | full
  | eof
  | failed (kind : ErrorKind)
  deriving DecidableEq, Repr

/-- The bytes a read loop gathered, how it stopped, and what is left. -/
structure Fill where
  bytes : List UInt8
  outcome : Filled
  rest : List ReadEvent
  deriving DecidableEq, Repr

/-- `read` until `need` bytes are there: an interruption is tried again,
an empty read or another failure stops the loop. -/
def fill : List ReadEvent → Nat → Fill
  | events, 0 => ⟨[], .full, events⟩
  | [], _ + 1 => ⟨[], .eof, []⟩
  | .error kind :: rest, need + 1 =>
      if kind = .interrupted then fill rest (need + 1) else ⟨[], .failed kind, rest⟩
  | .data bytes :: rest, need + 1 =>
      if bytes = [] then ⟨[], .eof, rest⟩
      else if bytes.length ≤ need + 1 then
        let more := fill rest (need + 1 - bytes.length)
        ⟨bytes ++ more.bytes, more.outcome, more.rest⟩
      else ⟨bytes.take (need + 1), .full, .data (bytes.drop (need + 1)) :: rest⟩

/-- `fill` is the loop over `read`: one call, then the loop again for
what is still missing. -/
theorem fill_eq_read (events : List ReadEvent) (need : Nat) :
    fill events (need + 1) =
      match read (need + 1) events with
      | (.error .interrupted, rest) => fill rest (need + 1)
      | (.error kind, rest) => ⟨[], .failed kind, rest⟩
      | (.ok [], rest) => ⟨[], .eof, rest⟩
      | (.ok bytes, rest) =>
          let more := fill rest (need + 1 - bytes.length)
          ⟨bytes ++ more.bytes, more.outcome, more.rest⟩ := by
  cases events with
  | nil => rfl
  | cons event rest =>
    cases event with
    | error kind => cases kind <;> rfl
    | data bytes =>
      cases bytes with
      | nil => rfl
      | cons b tail =>
        by_cases hlen : (b :: tail).length ≤ need + 1
        · simp only [fill, read, if_pos hlen]
          rfl
        · simp only [fill, read, if_neg hlen, reduceCtorEq, if_false]
          have hlt : need < tail.length := by
            simp only [List.length_cons, Nat.not_le] at hlen
            omega
          simp [fill, Nat.min_eq_left (Nat.le_of_lt hlt)]

/-- The bytes a script can still deliver. -/
def remaining : List ReadEvent → Nat
  | [] => 0
  | .error _ :: rest => remaining rest
  | .data bytes :: rest => bytes.length + remaining rest

/-- A read loop takes from the script no more than it hands over. -/
theorem fill_remaining (events : List ReadEvent) (need : Nat) :
    (fill events need).bytes.length + remaining (fill events need).rest ≤ remaining events := by
  fun_induction fill events need with
  | case1 => simp
  | case2 => simp
  | case3 rest need ih => simpa [remaining] using ih
  | case4 => simp [remaining]
  | case5 => simp [remaining]
  | case6 bytes rest need hne hle more ih =>
    simp only [List.length_append, remaining, more]
    omega
  | case7 bytes rest need hne hlt =>
    simp only [List.length_take, remaining, List.length_drop]
    omega

/-- A read loop that stopped full holds exactly what was asked for. -/
theorem fill_full {events : List ReadEvent} {need : Nat}
    (h : (fill events need).outcome = .full) : (fill events need).bytes.length = need := by
  fun_induction fill events need with
  | case1 => rfl
  | case2 => cases h
  | case3 rest need ih => exact ih h
  | case4 => cases h
  | case5 => cases h
  | case6 bytes rest need hne hle more ih =>
    have hmore : more.bytes.length = need + 1 - bytes.length := ih h
    simp only [List.length_append, hmore]
    omega
  | case7 bytes rest need hne hlt =>
    simp only [List.length_take]
    omega

/-! ## Scripts that do not fail -/

/-- The bytes of a script, in order. -/
def content : List ReadEvent → List UInt8
  | [] => []
  | .error _ :: rest => content rest
  | .data bytes :: rest => bytes ++ content rest

theorem content_length (events : List ReadEvent) : (content events).length = remaining events := by
  induction events with
  | nil => rfl
  | cons event rest ih =>
    cases event with
    | error kind => exact ih
    | data bytes => simp [content, remaining, ih]

/-- Reads that only deliver: non-empty chunks, with interruptions between
them. -/
def Delivers (events : List ReadEvent) : Prop :=
  ∀ e ∈ events, e = .error .interrupted ∨ ∃ bytes, bytes ≠ [] ∧ e = .data bytes

theorem Delivers.tail {e : ReadEvent} {rest : List ReadEvent} (h : Delivers (e :: rest)) :
    Delivers rest := fun e' he' => h e' (by simp [he'])

/-- **Any chunking reads alike**: over a script that only delivers, the
loop gets the next `need` bytes when they are there, and all that is left
followed by the end when they are not. -/
theorem fill_delivers {events : List ReadEvent} (h : Delivers events) (need : Nat) :
    (fill events need).bytes = (content events).take need ∧
      content (fill events need).rest = (content events).drop need ∧
      Delivers (fill events need).rest ∧
      ((fill events need).outcome = .full ↔ need ≤ (content events).length) ∧
      ((fill events need).outcome = .full ∨ (fill events need).outcome = .eof) := by
  fun_induction fill events need with
  | case1 => simp [h]
  | case2 => simp [content, Delivers]
  | case3 rest need ih => simpa [content] using ih h.tail
  | case4 kind rest need hkind =>
    rcases h (.error kind) (by simp) with he | ⟨bytes, _, he⟩
    · cases he
      exact absurd rfl hkind
    · cases he
  | case5 rest need =>
    rcases h (.data []) (by simp) with he | ⟨bytes, hne, he⟩
    · cases he
    · cases he
      exact absurd rfl hne
  | case6 bytes rest need hne hle more ih =>
    obtain ⟨hbytes, hrest, hdeliv, hfull, hend⟩ := ih h.tail
    refine ⟨?_, ?_, hdeliv, ?_, hend⟩
    · simp only [content, more, hbytes, List.take_append, List.take_of_length_le hle]
    · simp only [content, more, hrest, List.drop_append, List.drop_eq_nil_of_le hle,
        List.nil_append]
    · simp only [content, List.length_append]
      rw [hfull]
      omega
  | case7 bytes rest need hne hlt =>
    have hlt : need + 1 < bytes.length := Nat.not_le.mp hlt
    refine ⟨?_, ?_, ?_, ?_, .inl rfl⟩
    · simp only [content, List.take_append, show need + 1 - bytes.length = 0 by omega,
        List.take_zero, List.append_nil]
    · simp only [content, List.drop_append, show need + 1 - bytes.length = 0 by omega,
        List.drop_zero]
    · intro e he
      rcases List.mem_cons.mp he with rfl | he
      · refine .inr ⟨_, ?_, rfl⟩
        rw [ne_eq, List.drop_eq_nil_iff]
        omega
      · exact h e (by simp [he])
    · simp only [content, List.length_append, true_iff]
      omega

/-! ## Writing -/

/-- What a write loop did: the bytes that went out, whether it failed,
and what is left of the script. -/
structure Wrote where
  bytes : List UInt8
  result : Except ErrorKind Unit
  rest : List WriteEvent

/-- `write` until nothing is left: an interruption is tried again, a
write that takes nothing or another failure stops the loop. -/
def writeAll : List WriteEvent → List UInt8 → Wrote
  | events, [] => ⟨[], .ok (), events⟩
  | [], b :: bytes => ⟨b :: bytes, .ok (), []⟩
  | .error kind :: rest, b :: bytes =>
      if kind = .interrupted then writeAll rest (b :: bytes) else ⟨[], .error kind, rest⟩
  | .took 0 :: rest, _ :: _ => ⟨[], .error .writeZero, rest⟩
  | .took (count + 1) :: rest, b :: bytes =>
      let more := writeAll rest (bytes.drop count)
      ⟨b :: bytes.take count ++ more.bytes, more.result, more.rest⟩

/-- Writes that only accept: every call takes something or is
interrupted. -/
def Accepts (events : List WriteEvent) : Prop :=
  ∀ e ∈ events, e = .error .interrupted ∨ ∃ count, e = .took (count + 1)

theorem Accepts.tail {e : WriteEvent} {rest : List WriteEvent} (h : Accepts (e :: rest)) :
    Accepts rest := fun e' he' => h e' (by simp [he'])

/-- What goes out is always a front part of what was to go out. -/
theorem writeAll_front (events : List WriteEvent) (bytes : List UInt8) :
    ∃ unsent, (writeAll events bytes).bytes ++ unsent = bytes := by
  fun_induction writeAll events bytes with
  | case1 => exact ⟨[], rfl⟩
  | case2 b bytes => exact ⟨[], by simp⟩
  | case3 rest b bytes ih => exact ih
  | case4 kind rest b bytes => exact ⟨b :: bytes, rfl⟩
  | case5 rest b bytes => exact ⟨b :: bytes, rfl⟩
  | case6 count rest b bytes more ih =>
    obtain ⟨unsent, hunsent⟩ := ih
    refine ⟨unsent, ?_⟩
    simp only [more, List.cons_append, List.append_assoc, hunsent, List.take_append_drop]

/-- A write loop that did not fail sent everything. -/
theorem writeAll_ok {events : List WriteEvent} {bytes : List UInt8}
    (h : (writeAll events bytes).result = .ok ()) : (writeAll events bytes).bytes = bytes := by
  fun_induction writeAll events bytes with
  | case1 => rfl
  | case2 => rfl
  | case3 rest b bytes ih => exact ih h
  | case4 => cases h
  | case5 => cases h
  | case6 count rest b bytes more ih =>
    have hmore : more.bytes = bytes.drop count := ih h
    simp [hmore, List.take_append_drop]

/-- Over writes that only accept, everything is sent. -/
theorem writeAll_accepts {events : List WriteEvent} (h : Accepts events) (bytes : List UInt8) :
    (writeAll events bytes).result = .ok () ∧ Accepts (writeAll events bytes).rest := by
  fun_induction writeAll events bytes with
  | case1 => exact ⟨rfl, h⟩
  | case2 => exact ⟨rfl, h⟩
  | case3 rest b bytes ih => exact ih h.tail
  | case4 kind rest b bytes hkind =>
    rcases h (.error kind) (by simp) with he | ⟨count, he⟩
    · cases he
      exact absurd rfl hkind
    · cases he
  | case5 rest b bytes =>
    rcases h (.took 0) (by simp) with he | ⟨count, he⟩
    · cases he
    · cases he
  | case6 count rest b bytes more ih => exact ih h.tail

end Script
