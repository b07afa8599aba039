import NostdbServer.Lib.Run
import NostdbServer.Serve

/-!
# Protocol — what a client may rely on, as a machine of five phases

The daemon keeps its phase in two loops, a slot and the call stack. Here
it is flat: a phase, and what a client sees of each frame. That begins and
finishes take turns is proved of every run of it (`alternate_path`); that
the daemon's runs are runs of it is `Refinement`.
-/

namespace NostdbServer.Protocol

/-! ## The protocol -/

inductive Phase where
  | awaitingHello
  | noSession
  | session (id : SessionId)
  | inTransaction (id : SessionId) (base : UInt64)
  | ended
  deriving DecidableEq, Repr

/-- What a client sees of one frame: how the handshake went, a broken
stream, a refusal of the decoder, or a request answered in either loop. -/
inductive Signal where
  | hello (welcomed : Bool)
  | broken
  | refused
  | answered (place : Place) (operation : Operation) (ok : Bool)
  deriving DecidableEq, Repr

/-- No transaction is open, and requests are served. -/
inductive Phase.Outside : Phase → Prop
  | noSession : Outside .noSession
  | session (id : SessionId) : Outside (.session id)

/-- Requests are served. -/
inductive Phase.Live : Phase → Prop
  | outside {phase : Phase} : phase.Outside → Live phase
  | inTransaction (id : SessionId) (base : UInt64) : Live (.inTransaction id base)

/-- The steps of the protocol. -/
inductive Next : Phase → Signal → Phase → Prop
  | welcomed : Next .awaitingHello (.hello true) .noSession
  | turnedAway : Next .awaitingHello (.hello false) .ended
  | broken {phase : Phase} : phase.Live → Next phase .broken .ended
  | refused {phase : Phase} : phase.Live → Next phase .refused phase
  | opened (id : SessionId) : Next .noSession (.answered .main .openSession true) (.session id)
  | notOpened {phase : Phase} : phase.Outside →
      Next phase (.answered .main .openSession false) phase
  | closed {phase : Phase} : phase.Outside →
      Next phase (.answered .main .closeSession true) .noSession
  | status {phase : Phase} : phase.Outside → Next phase (.answered .main .status true) phase
  | shutdown {phase : Phase} : phase.Outside → Next phase (.answered .main .shutdown true) .ended
  | queried (id : SessionId) (ok : Bool) :
      Next (.session id) (.answered .main .query ok) (.session id)
  | notQueried {phase : Phase} : phase.Outside → Next phase (.answered .main .query false) phase
  | began (id : SessionId) (base : UInt64) :
      Next (.session id) (.answered .main .begin true) (.inTransaction id base)
  | notBegun {phase : Phase} : phase.Outside → Next phase (.answered .main .begin false) phase
  | nothingOpen {phase : Phase} {operation : Operation} : phase.Outside →
      operation = .commit ∨ operation = .rollback →
      Next phase (.answered .main operation false) phase
  | committed (id : SessionId) (base : UInt64) (ok : Bool) :
      Next (.inTransaction id base) (.answered .region .commit ok) (.session id)
  | rolledBack (id : SessionId) (base : UInt64) :
      Next (.inTransaction id base) (.answered .region .rollback true) (.session id)
  | ran (id : SessionId) (base : UInt64) (ok : Bool) :
      Next (.inTransaction id base) (.answered .region .query ok) (.inTransaction id base)
  | busy (id : SessionId) (base : UInt64) {operation : Operation} :
      operation = .begin ∨ operation = .openSession ∨ operation = .closeSession ∨
        operation = .shutdown →
      Next (.inTransaction id base) (.answered .region operation false) (.inTransaction id base)
  | inTransaction (id : SessionId) (base : UInt64) :
      Next (.inTransaction id base) (.answered .region .status true) (.inTransaction id base)

/-! ## Transactions do not nest -/

/-- A transaction begins or is finished. -/
inductive Mark where
  | began
  | finished
  deriving DecidableEq, Repr

def Signal.mark : Signal → Option Mark
  | .answered .main .begin true => some .began
  | .answered .region .commit _ => some .finished
  | .answered .region .rollback _ => some .finished
  | _ => none

/-- The begins answered `ok` and the finishing commits and rollbacks, in
order. -/
def marks (signals : List Signal) : List Mark := signals.filterMap Signal.mark

/-- Begins and finishes take turns, and a begin is first. -/
def Alternate (marks : List Mark) : Prop :=
  (∀ mark, marks.head? = some mark → mark = .began) ∧ marks.IsChain (· ≠ ·)

theorem Alternate.snoc {marks : List Mark} {mark : Mark} (h : Alternate marks)
    (hturn : mark = .began ↔ marks.getLast? ≠ some .began) : Alternate (marks ++ [mark]) := by
  obtain ⟨hfirst, hchain⟩ := h
  constructor
  · intro first hhead
    cases marks with
    | nil =>
      cases hhead
      exact hturn.mpr (by simp)
    | cons m rest => exact hfirst first hhead
  · rw [List.isChain_append]
    refine ⟨hchain, List.isChain_singleton _, fun last hlast next hnext => ?_⟩
    cases hnext
    rintro rfl
    rw [Option.mem_def] at hlast
    cases last with
    | began => exact hturn.mp rfl hlast
    | finished =>
      have hnot : ¬ Mark.finished = .began := by decide
      rw [hlast] at hturn
      exact hnot (hturn.mpr (by decide))

/-- Where the phase and the last mark must agree. -/
def Phase.OpenIff (phase : Phase) (last : Option Mark) : Prop :=
  match phase with
  | .ended => True
  | .inTransaction _ _ => last = some .began
  | _ => last ≠ some .began

theorem Phase.Outside.open_iff {phase : Phase} (h : phase.Outside) {last : Option Mark} :
    phase.OpenIff last ↔ last ≠ some .began := by
  cases h <;> exact Iff.rfl

/-- **Transactions take turns**: in every run of the protocol begins and
finishes alternate, and between frames a transaction is open exactly in
`inTransaction`. -/
theorem alternate_path {signals : List Signal} {phase : Phase}
    (h : Run.Path Next .awaitingHello signals phase) :
    Alternate (marks signals) ∧ phase.OpenIff (marks signals).getLast? := by
  let inv (signals : List Signal) (phase : Phase) : Prop :=
    Alternate (marks signals) ∧ phase.OpenIff (marks signals).getLast?
  have hstep (signals : List Signal) (phase : Phase) (signal : Signal) (phase' : Phase)
      (h : inv signals phase) (hnext : Next phase signal phase') :
      inv (signals ++ [signal]) phase' := by
    obtain ⟨halternate, hopen⟩ := h
    have hmarks : marks (signals ++ [signal]) = marks signals ++ signal.mark.toList := by
      cases hmark : signal.mark <;> simp [marks, hmark]
    have hquiet (hnone : signal.mark = none)
        (hphase : phase'.OpenIff (marks signals).getLast?) : inv (signals ++ [signal]) phase' := by
      simp only [inv, hmarks, hnone, Option.toList_none, List.append_nil]
      exact ⟨halternate, hphase⟩
    have hmarked {mark : Mark} (hmark : signal.mark = some mark)
        (hturn : mark = .began ↔ (marks signals).getLast? ≠ some .began)
        (hphase : phase'.OpenIff (some mark)) : inv (signals ++ [signal]) phase' := by
      simp only [inv, hmarks, hmark, Option.toList_some, List.getLast?_concat]
      exact ⟨halternate.snoc hturn, hphase⟩
    cases hnext with
    | began id base => exact hmarked rfl (iff_of_true rfl hopen) rfl
    | committed id base ok =>
      exact hmarked rfl (iff_of_false (by decide) (not_not.mpr hopen)) (by simp [Phase.OpenIff])
    | rolledBack id base =>
      exact hmarked rfl (iff_of_false (by decide) (not_not.mpr hopen)) (by simp [Phase.OpenIff])
    | nothingOpen houtside hop => rcases hop with rfl | rfl <;> exact hquiet rfl hopen
    | busy id base hop => rcases hop with rfl | rfl | rfl | rfl <;> exact hquiet rfl hopen
    | closed houtside => exact hquiet rfl (houtside.open_iff.mp hopen)
    | broken => exact hquiet rfl trivial
    | turnedAway => exact hquiet rfl trivial
    | shutdown => exact hquiet rfl trivial
    | _ => exact hquiet rfl hopen
  have hstart : inv [] .awaitingHello := by
    refine ⟨⟨?_, List.isChain_nil⟩, by simp [Phase.OpenIff, marks]⟩
    intro mark h
    cases h
  exact h.invariant hstep hstart

end NostdbServer.Protocol
