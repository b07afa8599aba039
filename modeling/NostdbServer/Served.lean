import NostdbServer.Daemon

/-!
# Served — every connection gets its thread, and every thread its end

The loop accepts in the order of the connects and never waits for a thread,
so whatever the clients before it do, or leave undone, a connection is
handed to a thread of its own, unless the loop ends before: each turn of
the loop takes it one place nearer (`Server.distance`), and nothing takes
it back (`connection_spawned`). A thread that is not passed over
serves its connection to the end: each of its steps takes input, or is one
of the last (`every_connection_served`).
-/

namespace NostdbServer.AcceptLoop

open Run Script

variable {E : Engine} {env : Nat → Env E} {stream : Nat → Stream}

/-! ## The line before the loop -/

/-- The connection the loop holds. -/
def Loop.held : Loop → Option Nat
  | .accepted incoming => incoming
  | .spawning c => some c
  | _ => none

/-- The connections that are still to get a thread, in order. -/
def Server.line (s : Server E) : List Nat := s.loop.held.toList ++ s.queue

/-- How many steps the loop is from `accept`. -/
def Loop.stage : Loop → Nat
  | .accepting => 3
  | .accepted _ => 2
  | .spawning _ => 1
  | .returned _ => 0

/-- How many steps of the loop a connection in the line waits for. -/
def Server.distance (c : Nat) (s : Server E) : Nat := 3 * s.line.idxOf c + s.loop.stage

/-- A connection stands in the line of a loop that goes on. -/
def Waiting (c : Nat) (s : Server E) : Prop := c ∈ s.line ∧ ¬s.loop.Ended

/-- A connection has a thread, or the loop has ended. -/
def Settled (c : Nat) (s : Server E) : Prop := s.thread c ≠ .unspawned ∨ s.loop.Ended

/-- A step that is not the loop's leaves a place in the line as it is. -/
theorem Waiting.stays {c : Nat} {a : Act} {s t : Server E} (h : Waiting c s) (ha : ¬a.OfLoop)
    (hstep : step env stream a s = some t) :
    Waiting c t ∧ t.distance c = s.distance c := by
  obtain ⟨hline, hloop⟩ := h
  have hmore (d : Nat) : (s.line ++ [d]).idxOf c = s.line.idxOf c :=
    List.idxOf_append_of_mem hline
  have hconnected : Waiting c s.connected ∧ s.connected.distance c = s.distance c := by
    have hlonger : s.connected.line = s.line ++ [s.opened] := by
      simp only [Server.line, Server.connected, List.append_assoc]
    refine ⟨⟨?_, hloop⟩, ?_⟩
    · rw [hlonger]
      exact List.mem_append_left _ hline
    · simp only [Server.distance, hlonger, hmore]
      rfl
  cases outcome_of_step hstep with
  | connected => exact hconnected
  | accepted | acceptFailed | checked | spawned | spawnPanicked => exact absurd trivial ha
  | served hserve => exact ⟨⟨hline, hloop⟩, rfl⟩
  | stored hthread => exact ⟨⟨hline, hloop⟩, rfl⟩
  | woke hthread => exact hconnected

/-- **A step of the loop takes a connection one place nearer**, to its
thread, or ends the loop. -/
theorem Waiting.nearer {c : Nat} {a : Act} {s t : Server E} (h : Waiting c s) (ha : a.OfLoop)
    (hstep : step env stream a s = some t) :
    Settled c t ∨ (Waiting c t ∧ t.distance c < s.distance c) := by
  obtain ⟨hline, hloop⟩ := h
  cases outcome_of_step hstep with
  | @accepted d queue hat hqueue =>
    have hsame : s.line = d :: queue := by simp [Server.line, Loop.held, hat, hqueue]
    rw [hsame] at hline
    refine .inr ⟨⟨hline, id⟩, ?_⟩
    simp only [Server.distance, hsame, hat]
    simp [Server.line, Loop.held, Loop.stage]
  | acceptFailed hat =>
    have hsame : s.line = s.queue := by simp [Server.line, Loop.held, hat]
    rw [hsame] at hline
    refine .inr ⟨⟨hline, id⟩, ?_⟩
    simp only [Server.distance, hsame, hat]
    simp [Server.line, Loop.held, Loop.stage]
  | @checked incoming hat =>
    by_cases hstopping : s.stopping = true
    · left
      right
      show (s.checked incoming).Ended
      rw [Server.checked_of_stopping hstopping]
      trivial
    · cases incoming with
      | none =>
        left
        right
        show (s.checked none).Ended
        rw [Server.checked, if_neg hstopping]
        trivial
      | some d =>
        have hspawning : s.checked (some d) = .spawning d := if_neg hstopping
        have hsame : s.line = d :: s.queue := by simp [Server.line, Loop.held, hat]
        rw [hsame] at hline
        simp only [hspawning]
        refine .inr ⟨⟨hline, id⟩, ?_⟩
        simp only [Server.distance, hsame, hat]
        simp [Server.line, Loop.held, Loop.stage]
  | @spawned d hat =>
    by_cases hcd : c = d
    · subst hcd
      refine .inl (.inl ?_)
      show (s.moved c .opening).thread c ≠ .unspawned
      rw [Server.moved_self]
      simp
    · -- the place before it is gone
      have hsame : s.line = d :: s.queue := by simp [Server.line, Loop.held, hat]
      rw [hsame] at hline
      have hqueue : c ∈ s.queue := (List.mem_cons.mp hline).resolve_left hcd
      refine .inr ⟨⟨hqueue, id⟩, ?_⟩
      simp only [Server.distance, hsame, hat, List.idxOf_cons_ne _ (Ne.symm hcd)]
      simp only [Server.line, Loop.held, Loop.stage, Server.moved, Option.toList_none,
        List.nil_append]
      omega
  | spawnPanicked hat => exact .inl (.inr trivial)
  | connected | served | stored | woke => exact absurd ha id

/-- The loop that goes on has a step to take where a connection waits. -/
theorem Waiting.enabled {c : Nat} {s : Server E} (h : Waiting c s) :
    ∃ a, Act.Advances a ∧ (step env stream a s).isSome := by
  obtain ⟨hline, hloop⟩ := h
  cases hat : s.loop with
  | accepting =>
    rw [Server.line, hat] at hline
    obtain ⟨first, queue, hqueue⟩ := List.exists_cons_of_ne_nil (List.ne_nil_of_mem hline)
    have hqueue : s.queue = first :: queue := hqueue
    exact ⟨.accept, trivial, by simp [step, hat, hqueue]⟩
  | accepted incoming => exact ⟨.check, trivial, by simp [step, hat]⟩
  | spawning d => exact ⟨.spawn, trivial, by simp [step, hat]⟩
  | returned how =>
    rw [hat] at hloop
    exact absurd trivial hloop

/-- A connection is in the line, or settled. -/
def Covered (s : Server E) : Prop := ∀ c < s.opened, c ∈ s.line ∨ Settled c s

theorem Covered.step {a : Act} {s t : Server E} (h : Covered s)
    (hstep : step env stream a s = some t) : Covered t := by
  have hspawned {c d : Nat} {thread : Thread E} (hthread : thread ≠ .unspawned)
      (hd : s.thread d ≠ .unspawned) : (s.moved c thread).thread d ≠ .unspawned := by
    by_cases hdc : d = c
    · subst hdc
      rwa [Server.moved_self]
    · rwa [Server.moved_ne _ _ hdc]
  have hmoved {c : Nat} {thread : Thread E} (hthread : thread ≠ .unspawned) (d : Nat)
      (hd : d < s.opened) : d ∈ s.line ∨ Settled d (s.moved c thread) := by
    rcases h d hd with hline | hsettled | hended
    · exact .inl hline
    · exact .inr (.inl (hspawned hthread hsettled))
    · exact .inr (.inr hended)
  -- a step of the loop settles what it takes out of the line
  have hloop (ha : a.OfLoop) (hopened : t.opened = s.opened)
      (hkept : ∀ d, s.thread d ≠ .unspawned → t.thread d ≠ .unspawned)
      (hended : s.loop.Ended → t.loop.Ended) : Covered t := by
    intro d hd
    rw [hopened] at hd
    rcases h d hd with hline | hsettled | hover
    · by_cases hover : s.loop.Ended
      · exact .inr (.inr (hended hover))
      · rcases Waiting.nearer ⟨hline, hover⟩ ha hstep with hsettled | ⟨hwaiting, -⟩
        · exact .inr hsettled
        · exact .inl hwaiting.1
    · exact .inr (.inl (hkept d hsettled))
    · exact .inr (.inr (hended hover))
  have hconnected {s : Server E} (hs : Covered s) : Covered s.connected := by
    intro d hd
    by_cases hnew : d = s.opened
    · subst hnew
      left
      simp [Server.line, Server.connected]
    · have hd : d < s.opened + 1 := hd
      rcases hs d (by omega) with hline | hsettled
      · left
        simp only [Server.line, Server.connected, ← List.append_assoc]
        exact List.mem_append_left _ hline
      · exact .inr hsettled
  cases outcome_of_step hstep with
  | connected => exact hconnected h
  | accepted hat => exact hloop trivial rfl (fun _ => id) (by simp [hat, Loop.Ended])
  | acceptFailed hat => exact hloop trivial rfl (fun _ => id) (by simp [hat, Loop.Ended])
  | checked hat => exact hloop trivial rfl (fun _ => id) (by simp [hat, Loop.Ended])
  | spawned hat =>
    exact hloop trivial rfl (fun _ => hspawned (by simp)) (by simp [hat, Loop.Ended])
  | spawnPanicked hat => exact hloop trivial rfl (fun _ => id) (fun _ => trivial)
  | @served c act thread hserve =>
    refine hmoved ?_
    rcases (Thread.serving_of_serve hserve).2 with hserving | rfl | rfl
    · rintro rfl
      exact hserving
    · simp
    · simp
  | stored hthread => exact hmoved (by simp)
  | @woke c hthread => exact hconnected (@hmoved c .ended (by simp))

section

variable {b : Behaviour (step env stream)}

/-- A connection gets a thread of its own, or the loop ends, in every
behaviour that is fair to the loop alone: no client that is served, or
waited for, keeps another one out. -/
theorem connection_spawned (hstart : b.state 0 = {}) (hfair : b.Fair Act.Advances) (n c : Nat)
    (hopened : c < (b.state n).opened) :
    ∃ m, n ≤ m ∧ ((b.state m).thread c ≠ .unspawned ∨ (b.state m).loop.Ended) := by
  have hspawns : b.LeadsTo (Waiting c) (Settled c) := by
    refine Behaviour.leadsTo_of_measure (Server.distance c) hfair ?_ (fun s hs => hs.enabled) ?_
    · intro s a t hs hstep
      by_cases ha : a.OfLoop
      · rcases hs.nearer ha hstep with hsettled | ⟨hwaiting, hless⟩
        · exact .inl hsettled
        · exact .inr ⟨hwaiting, Nat.le_of_lt hless⟩
      · obtain ⟨hwaiting, hsame⟩ := hs.stays ha hstep
        exact .inr ⟨hwaiting, Nat.le_of_eq hsame⟩
    · intro s a t hs ha hstep
      exact hs.nearer ha.ofLoop hstep
  obtain ⟨acts, hruns⟩ := b.exists_run n
  rw [hstart] at hruns
  have hcovered : Covered (b.state n) :=
    invariant (fun _ _ _ h hstep => h.step hstep) (fun c hc => absurd hc (Nat.not_lt_zero c)) hruns
  rcases hcovered c hopened with hline | hsettled
  · by_cases hended : (b.state n).loop.Ended
    · exact ⟨n, Nat.le_refl n, .inr hended⟩
    · exact hspawns n ⟨hline, hended⟩
  · exact ⟨n, Nat.le_refl n, hsettled⟩

end

/-! ## A thread and its end -/

/-- How many steps a thread is from the end of `serve_connection`, at
most. -/
def Thread.left (stream : Stream) : Thread E → Nat
  | .opening => 2 * remaining stream.incoming + 4
  | .serving state =>
      if state.isEnded then 1 else 2 * remaining state.world.stream.incoming + 3
  | .handling state => 2 * remaining state.world.stream.incoming + 2
  | _ => 0

/-- The handshake adds nothing to the input. -/
theorem remaining_start (env : Env E) (stream : Stream)
    (hgoing : (start env stream).2.isEnded = false) :
    remaining (start env stream).2.world.stream.incoming ≤ remaining stream.incoming := by
  unfold start at hgoing ⊢
  cases hhandshake : handshake env ({ stream } : World E) with
  | mk result world =>
    cases result with
    | error how =>
      rw [hhandshake] at hgoing
      cases hgoing
    | ok version => exact handshake_remaining hhandshake

/-- **A step of a thread is one of the last**, or leaves fewer to come. -/
theorem left_of_serve {env : Env E} {stream : Stream} {act : Serve} {thread thread' : Thread E}
    (h : thread.serve env stream act = some thread') :
    ¬thread'.Serving ∨ thread'.left stream < thread.left stream := by
  cases thread with
  | opening =>
    cases act with
    | handshake =>
      cases h
      right
      simp only [Thread.left]
      cases hended : (start env stream).2.isEnded with
      | true => simp
      | false =>
        have hless := remaining_start env stream hended
        simp only [Bool.false_eq_true, if_false]
        omega
    | panic =>
      cases h
      exact .inl id
    | _ => cases h
  | serving state =>
    cases act with
    | read =>
      cases state with
      | ended how slot world => cases h
      | _ =>
        cases h
        right
        simp [Thread.left, State.isEnded]
    | leave =>
      cases state with
      | ended how slot world =>
        cases h
        left
        by_cases hhow : how = .shutdownRequested
        · rw [if_pos hhow]
          exact id
        · rw [if_neg hhow]
          exact id
      | _ => cases h
    | panic =>
      cases h
      exact .inl id
    | _ => cases h
  | handling state =>
    cases act with
    | handle =>
      cases h
      right
      simp only [Thread.left]
      rcases step_consumes env (start env stream).1 state with hended | hless
      · simp [hended]
      · split
        · omega
        · have hbytes : Frame.PREFIX_BYTES = 4 := rfl
          omega
    | panic =>
      cases h
      exact .inl id
    | _ => cases h
  | _ => cases act <;> cases h

/-- A step in which the thread of a connection goes on. Nothing obliges it
to panic. -/
def Act.Serves (c : Nat) : Act → Prop
  | .serve d act => d = c ∧ act ≠ .panic
  | _ => False

/-- A thread in `serve_connection` has a step to take. -/
theorem serve_enabled (env : Env E) (stream : Stream) {thread : Thread E} (h : thread.Serving) :
    ∃ act, act ≠ .panic ∧ (thread.serve env stream act).isSome := by
  cases thread with
  | opening => exact ⟨.handshake, by simp, rfl⟩
  | serving state =>
    cases state with
    | ended how slot world => exact ⟨.leave, by simp, rfl⟩
    | _ => exact ⟨.read, by simp, rfl⟩
  | handling state => exact ⟨.handle, by simp, rfl⟩
  | _ => exact h.elim

/-- A thread is in `serve_connection`, in a run. -/
def Busy (env : Nat → Env E) (stream : Nat → Stream) (c : Nat) (s : Server E) : Prop :=
  Placed env stream s ∧ (s.thread c).Serving

/-- A step that is not a thread's own leaves it where it is. -/
theorem Busy.stays {c : Nat} {a : Act} {s t : Server E} (h : Busy env stream c s)
    (ha : ∀ act, a ≠ .serve c act) (hstep : step env stream a s = some t) :
    t.thread c = s.thread c := by
  obtain ⟨hplaced, hserving⟩ := h
  have hother {d : Nat} (hd : ¬(s.thread d).Serving) : c ≠ d := by
    rintro rfl
    exact hd hserving
  cases outcome_of_step hstep with
  | connected | accepted | acceptFailed | checked | spawnPanicked => rfl
  | @spawned d hat =>
    exact Server.moved_ne _ _ (hother (by rw [(hplaced.loop d (.inr hat)).2.1]; exact id))
  | @served d act thread hserve =>
    refine Server.moved_ne _ _ ?_
    rintro rfl
    exact ha act rfl
  | stored hthread => exact Server.moved_ne _ _ (hother (by rw [hthread]; exact id))
  | woke hthread => exact Server.moved_ne _ _ (hother (by rw [hthread]; exact id))

section

variable {b : Behaviour (step env stream)}

/-- **Every thread ends**: a thread in `serve_connection` that is not
passed over for good leaves it, whatever the other connections and the loop
do. -/
theorem busy_leadsTo {c : Nat} (hfair : b.Fair (Act.Serves c)) :
    b.LeadsTo (Busy env stream c) (fun s => ¬(s.thread c).Serving ∧ s.thread c ≠ .unspawned) := by
  have hserved {s t : Server E} {act : Serve} (hs : Busy env stream c s)
      (hstep : step env stream (.serve c act) s = some t) :
      (¬(t.thread c).Serving ∧ t.thread c ≠ .unspawned) ∨
        (Busy env stream c t ∧ (t.thread c).left (stream c) < (s.thread c).left (stream c)) := by
    have hplaced := hs.1.step hstep
    cases outcome_of_step hstep with
    | @served _ _ thread hserve =>
      have hnow : (s.moved c thread).thread c = thread := Server.moved_self _ _ _
      rcases left_of_serve hserve with hleft | hless
      · refine .inl ⟨by rwa [hnow], ?_⟩
        rw [hnow]
        rcases (Thread.serving_of_serve hserve).2 with hserving | rfl | rfl
        · exact absurd hserving hleft
        · simp
        · simp
      · by_cases hserving : thread.Serving
        · exact .inr ⟨⟨hplaced, by rwa [hnow]⟩, by rwa [hnow]⟩
        · refine .inl ⟨by rwa [hnow], ?_⟩
          rw [hnow]
          rcases (Thread.serving_of_serve hserve).2 with hserving' | rfl | rfl
          · exact absurd hserving' hserving
          · simp
          · simp
  refine Behaviour.leadsTo_of_measure (fun s => (s.thread c).left (stream c)) hfair ?_ ?_ ?_
  · intro s a t hs hstep
    by_cases ha : ∀ act, a ≠ .serve c act
    · have hsame := hs.stays ha hstep
      refine .inr ⟨⟨hs.1.step hstep, by rw [hsame]; exact hs.2⟩, ?_⟩
      simp only [hsame, Nat.le_refl]
    · push Not at ha
      obtain ⟨act, rfl⟩ := ha
      rcases hserved hs hstep with hleft | ⟨hbusy, hless⟩
      · exact .inl hleft
      · exact .inr ⟨hbusy, Nat.le_of_lt hless⟩
  · intro s hs
    obtain ⟨act, hgoes, hact⟩ := serve_enabled (env c) (stream c) hs.2
    exact ⟨.serve c act, ⟨rfl, hgoes⟩, by simpa [step] using hact⟩
  · intro s a t hs ha hstep
    cases a with
    | serve d act =>
      obtain ⟨rfl, -⟩ := ha
      exact hserved hs hstep
    | _ => exact ha.elim

/-- **Every connection is served to its end**, or the loop ends: in every
behaviour that is fair to the loop it gets a thread, and where the
behaviour is fair to that thread too, the thread leaves
`serve_connection`, whatever the other clients do and however long they
stay. -/
theorem every_connection_served (hstart : b.state 0 = {}) (hloop : b.Fair Act.Advances) (n c : Nat)
    (hopened : c < (b.state n).opened) :
    (∃ m, n ≤ m ∧ ((b.state m).thread c ≠ .unspawned ∨ (b.state m).loop.Ended)) ∧
    (b.Fair (Act.Serves c) → ∃ m, n ≤ m ∧
      ((¬((b.state m).thread c).Serving ∧ (b.state m).thread c ≠ .unspawned) ∨
        (b.state m).loop.Ended)) := by
  obtain ⟨m, hm, hsettled⟩ := connection_spawned hstart hloop n c hopened
  refine ⟨⟨m, hm, hsettled⟩, fun hthread => ?_⟩
  rcases hsettled with hspawned | hended
  · by_cases hserving : ((b.state m).thread c).Serving
    · obtain ⟨acts, hruns⟩ := b.exists_run m
      rw [hstart] at hruns
      obtain ⟨k, hk, hleft⟩ := busy_leadsTo hthread m ⟨placed_of_runs hruns, hserving⟩
      exact ⟨k, Nat.le_trans hm hk, .inl hleft⟩
    · exact ⟨m, hm, .inl ⟨hserving, hspawned⟩⟩
  · exact ⟨m, hm, .inr hended⟩

end

/-! ## A client beside another -/

/-- A loop that has ended stays ended. -/
theorem ended_of_step (s : Server E) (a : Act) (t : Server E) (h : s.loop.Ended)
    (hstep : step env stream a s = some t) : t.loop.Ended := by
  cases outcome_of_step hstep with
  | connected | served | stored | woke => exact h
  | spawnPanicked hat => trivial
  | accepted hat | acceptFailed hat | checked hat | spawned hat =>
    rw [hat] at h
    exact h.elim

/-- The first client transacts and stays, and every other opens a session
and leaves. -/
def besideStream : Nat → Stream
  | 0 => .saying transacts
  | _ => .saying [sayHello, ask "r1" "open_session" [("database", .string "work")]]

/-- The second client connects while the first one is in its transaction. -/
def joins : List Act :=
  arrives 0 ++ answers 0 ++ answers 0 ++ [.serve 0 .read] ++ [.connect]

/-- The second client gets its thread and is served to its end. -/
def visits : List Act :=
  [.accept, .check, .spawn, .serve 1 .handshake] ++ answers 1 ++ answers 1 ++ [.serve 1 .leave]

def Thread.isOver : Thread E → Bool
  | .ended => true
  | _ => false

theorem Thread.eq_ended {thread : Thread E} (h : thread.isOver = true) : thread = .ended := by
  cases thread <;> first | rfl | cases h

instance : (thread : Thread E) → Decidable thread.InRegion
  | .serving (.region _ _ _) | .handling (.region _ _ _) => isTrue trivial
  | .serving (.main _ _ _) | .serving (.ended _ _ _) => isFalse id
  | .handling (.main _ _ _) | .handling (.ended _ _ _) => isFalse id
  | .unspawned | .opening | .stopping | .waking | .ended => isFalse id

/-- The second client has come and gone: the loop is inside `accept` and
nobody waits for it, and the first client is in its transaction. -/
theorem visits_accepting :
    ∃ s, Runs bothEnv besideStream (joins ++ visits) s ∧ s.loop = .accepting ∧ s.queue = [] ∧
      (s.thread 1).isOver = true ∧ (s.thread 0).InRegion := by
  have hvisits : (Run.after (step bothEnv besideStream) (joins ++ visits) {}).any (fun s =>
      decide (s.loop = .accepting ∧ s.queue = [] ∧ (s.thread 1).isOver = true ∧
        (s.thread 0).InRegion)) = true := by
    decide +kernel
  exact Run.exists_of_any hvisits

/-- The second client is opened once it has connected. -/
theorem joins_opened {s : Server Engine.journal} (h : Runs bothEnv besideStream joins s) :
    1 < s.opened := by
  have hjoins : (Run.after (step bothEnv besideStream) joins {}).any (fun s =>
      decide (1 < s.opened)) = true := by
    decide +kernel
  obtain ⟨t, hruns, ht⟩ := Run.exists_of_any hjoins
  obtain rfl : s = t := Option.some.inj (h.symm.trans hruns)
  exact ht

/-- The loop goes on and the first client stays in its transaction: the
second one gets a thread all the same, and is served to its end. -/
theorem every_connection_served_beside :
    ∃ (b : Behaviour (step bothEnv besideStream)) (n k : Nat), b.state 0 = {} ∧
      (∀ m, ¬(b.state m).loop.Ended) ∧ (∀ m, k ≤ m → ((b.state m).thread 0).InRegion) ∧
      (∃ m, n ≤ m ∧ (b.state m).thread 1 ≠ .unspawned) ∧
      ∃ m, n ≤ m ∧ ¬((b.state m).thread 1).Serving ∧ (b.state m).thread 1 ≠ .unspawned := by
  obtain ⟨s, hruns, haccepting, hqueue, hover, hregion⟩ := visits_accepting
  obtain ⟨b, hpasses, hstops⟩ := Behaviour.of_run hruns
  have hstart : b.state 0 = {} := Option.some.inj (hpasses 0).symm
  have hstays (m : Nat) (hm : (joins ++ visits).length ≤ m) : b.state m = s := (hstops m hm).1
  have hjoined : Runs bothEnv besideStream joins (b.state joins.length) := by
    have hat := hpasses joins.length
    rwa [List.take_left] at hat
  have hgoes (m : Nat) : ¬(b.state m).loop.Ended := by
    intro hended
    have hlast := Behaviour.keeps ended_of_step hended
      (Nat.le_max_left m (joins ++ visits).length)
    rw [hstays _ (Nat.le_max_right m _), haccepting] at hlast
    exact hlast
  -- nobody waits for the loop, so it may rest inside `accept`
  have hloop : b.Fair Act.Advances := by
    refine .of_stops hstays (fun a ha => ?_)
    cases a with
    | accept | check | spawn => simp only [step, haccepting, hqueue]
    | _ => exact ha.elim
  have hthread : b.Fair (Act.Serves 1) := by
    refine .of_stops hstays (fun a ha => ?_)
    cases a with
    | serve d act =>
      obtain ⟨rfl, -⟩ := ha
      cases act <;> simp [step, Thread.eq_ended hover, Thread.serve]
    | _ => exact ha.elim
  obtain ⟨⟨m, hm, hspawned⟩, hserved⟩ :=
    every_connection_served hstart hloop joins.length 1 (joins_opened hjoined)
  obtain ⟨m', hm', hleft⟩ := hserved hthread
  refine ⟨b, joins.length, (joins ++ visits).length, hstart, hgoes, fun m hm => ?_,
    ⟨m, hm, hspawned.resolve_right (hgoes m)⟩, ⟨m', hm', hleft.resolve_right (hgoes m')⟩⟩
  rw [hstays m hm]
  exact hregion

end NostdbServer.AcceptLoop
