import NostdbServer.AcceptLoop

/-!
# Shutdown — what is still served when the accept loop returns

A shutdown stops the daemon after ending its sessions: `Drained` is what
the caller of `accept_until_shutdown` then finds. The loop does not join
the threads it spawned, so it is drained where the flag was stored while
no connection was being served and none was about to be (`Alone`), and
that is the weakest such condition on the store: behind any other the
loop may return while a connection is still served (`drained_exact`).
-/

namespace NostdbServer.AcceptLoop

variable {E : Engine} {env : Nat → Env E} {stream : Nat → Stream}

/-! ## What a thread holds -/

/-- The session open on a thread's connection. -/
def Thread.session : Thread E → Option (Session E.Database)
  | .serving state => state.slot.session
  | .handling state => state.slot.session
  | _ => none

/-- Whether a transaction region is active on it. -/
def Thread.InRegion : Thread E → Prop
  | .serving (.region _ _ _) => True
  | .handling (.region _ _ _) => True
  | _ => False

/-- Whether it is between a read and an answer. -/
def Thread.InRequest : Thread E → Prop
  | .handling _ => True
  | _ => False

/-- **Every connection handed to a thread has been served to its end**: no
session is open, no region is active, and no request is under way. -/
structure Drained (s : Server E) : Prop where
  ended : ∀ c, ¬(s.thread c).Serving
  session : ∀ c, (s.thread c).session = none
  region : ∀ c, ¬(s.thread c).InRegion
  request : ∀ c, ¬(s.thread c).InRequest

theorem Thread.session_of_not_serving {thread : Thread E} (h : ¬thread.Serving) :
    thread.session = none := by
  cases thread with
  | serving state => exact absurd trivial h
  | handling state => exact absurd trivial h
  | _ => rfl

theorem Thread.InRegion.serving {thread : Thread E} (h : thread.InRegion) : thread.Serving := by
  cases thread <;> trivial

theorem Thread.InRequest.serving {thread : Thread E} (h : thread.InRequest) : thread.Serving := by
  cases thread <;> trivial

/-- A thread outside `serve_connection` holds nothing. -/
theorem Drained.of_ended {s : Server E} (h : ∀ c, ¬(s.thread c).Serving) : Drained s where
  ended := h
  session c := Thread.session_of_not_serving (h c)
  region c hregion := h c hregion.serving
  request c hrequest := h c hrequest.serving

/-! ## A flag stored alone -/

/-- **The flag is stored alone**: no connection made so far is being
served, and the loop is not about to spawn one. -/
def Alone (s : Server E) : Act → Prop
  | .store _ => (∀ c < s.opened, ¬(s.thread c).Serving) ∧ ∀ c < s.opened, s.loop ≠ .spawning c
  | _ => True

instance (thread : Thread E) : Decidable thread.Serving := by
  cases thread <;> unfold Thread.Serving <;> infer_instance

instance (s : Server E) (a : Act) : Decidable (Alone s a) := by
  cases a <;> unfold Alone <;> infer_instance

/-- Once the flag is set, nothing is served, and nothing will be. -/
structure Halting (env : Nat → Env E) (stream : Nat → Stream) (s : Server E) : Prop where
  placed : Placed env stream s
  returned : s.loop = .returned .ok → s.stopping = true
  ended : s.stopping = true → ∀ c, ¬(s.thread c).Serving
  loop : s.stopping = true → ∀ c, s.loop ≠ .spawning c

theorem Halting.step {a : Act} {s t : Server E} (h : Halting env stream s) (halone : Alone s a)
    (hstep : step env stream a s = some t) : Halting env stream t := by
  have hplaced := h.placed.step hstep
  cases outcome_of_step hstep with
  | connected => exact ⟨hplaced, h.returned, h.ended, h.loop⟩
  | accepted hloop hqueue => exact ⟨hplaced, by simp, h.ended, by simp⟩
  | acceptFailed hloop => exact ⟨hplaced, by simp, h.ended, by simp⟩
  | @checked incoming hloop =>
    refine ⟨hplaced, Server.stopping_of_checked, h.ended, fun hstopping c hspawning => ?_⟩
    have hstopping : s.stopping = true := hstopping
    rw [(Server.eq_of_checked hspawning).1] at hstopping
    cases hstopping
  | @spawned c hloop =>
    exact ⟨hplaced, by simp, fun hstopping => absurd hloop (h.loop hstopping c), by simp⟩
  | spawnPanicked hloop => exact ⟨hplaced, by simp, h.ended, by simp⟩
  | @served c act thread hserve =>
    -- only what is being served moves on, so the flag is clear
    have hserving := (Thread.serving_of_serve hserve).1
    exact ⟨hplaced, h.returned, fun hstopping => absurd hserving (h.ended hstopping c), h.loop⟩
  | @stored c hthread =>
    refine ⟨hplaced, fun _ => rfl, fun _ d => ?_, fun _ d hd => ?_⟩
    · show ¬((s.moved c .waking).thread d).Serving
      by_cases hd : d = c
      · subst hd
        rw [Server.moved_self]
        exact id
      · rw [Server.moved_ne _ _ hd]
        by_cases hopened : d < s.opened
        · exact halone.1 d hopened
        · rw [h.placed.unopened d (Nat.le_of_not_lt hopened)]
          exact id
    · have hd : s.loop = .spawning d := hd
      exact halone.2 d (h.placed.loop d (.inr hd)).1 hd
  | @woke c hthread =>
    refine ⟨hplaced, h.returned, fun hstopping d => ?_, h.loop⟩
    show ¬((s.moved c .ended).thread d).Serving
    by_cases hd : d = c
    · subst hd
      rw [Server.moved_self]
      exact id
    · rw [Server.moved_ne _ _ hd]
      exact h.ended hstopping d

theorem Halting.start : Halting env stream ({} : Server E) where
  placed := Placed.start
  returned h := by cases h
  ended h := by cases h
  loop h := by cases h

/-! ## The way to a return -/

variable (env stream) in
/-- With the flag set and a connection waiting, the loop can return, and
serves on what it serves or is about to. -/
theorem exists_return {s : Server E} (hstopping : s.stopping = true) (hqueue : s.queue ≠ [])
    (hloop : ¬s.loop.Ended) :
    ∃ acts t, Run.after (step env stream) acts s = some t ∧ t.loop = .returned .ok ∧
      ∀ c, (s.thread c).Serving ∨ s.loop = .spawning c → (t.thread c).Serving := by
  obtain ⟨first, queue, hfirst⟩ := List.exists_cons_of_ne_nil hqueue
  cases hat : s.loop with
  | accepting =>
    refine ⟨[.accept, .check], { s with loop := .returned .ok, queue }, ?_, rfl, ?_⟩
    · simp [Run.after, step, hat, hfirst, Server.checked, hstopping]
    · rintro c (hc | hc)
      · exact hc
      · cases hc
  | accepted incoming =>
    refine ⟨[.check], { s with loop := .returned .ok }, ?_, rfl, ?_⟩
    · simp [Run.after, step, hat, Server.checked, hstopping]
    · rintro c (hc | hc)
      · exact hc
      · cases hc
  | spawning d =>
    refine ⟨[.spawn, .accept, .check], { s.moved d .opening with loop := .returned .ok, queue },
      ?_, rfl, ?_⟩
    · simp [Run.after, step, hat, hfirst, Server.checked, hstopping, Server.moved]
    · intro c hc
      show ((s.moved d .opening).thread c).Serving
      by_cases hne : c = d
      · subst hne
        rw [Server.moved_self]
        trivial
      · rw [Server.moved_ne _ _ hne]
        rcases hc with hc | hc
        · exact hc
        · cases hc
          exact absurd rfl hne
  | returned how =>
    rw [hat] at hloop
    exact absurd trivial hloop

/-- Behind a store that is not alone the loop can return while a
connection is still served. -/
theorem exists_undrained {s : Server E} {c : Nat} (hthread : s.thread c = .stopping)
    (hloop : ¬s.loop.Ended) (halone : ¬Alone s (.store c)) :
    ∃ acts t, Run.after (step env stream) (.store c :: acts) s = some t ∧
      t.loop = .returned .ok ∧ ¬Drained t := by
  have hother : ∃ d, (s.thread d).Serving ∨ s.loop = .spawning d := by
    by_contra hnone
    push Not at hnone
    exact halone ⟨fun d _ => (hnone d).1, fun d _ => (hnone d).2⟩
  obtain ⟨d, hd⟩ := hother
  let stored : Server E := { s.moved c .waking with stopping := true }
  let woken : Server E := (stored.moved c .ended).connected
  have hstore : step env stream (.store c) s = some stored := by simp [step, hthread, stored]
  have hwake : step env stream (.wake c) stored = some woken := by
    have hwaking : stored.thread c = .waking := Server.moved_self s c .waking
    simp only [step, hwaking, woken]
  obtain ⟨acts, t, hrun, hok, hkeeps⟩ := exists_return env stream (s := woken) rfl
    (by simp [woken, Server.connected]) hloop
  refine ⟨.wake c :: acts, t, ?_, hok, fun hdrained => hdrained.ended d (hkeeps d ?_)⟩
  · simp only [Run.after, hstore, hwake, Option.bind_some, hrun]
  · rcases hd with hserving | hspawning
    · have hne : d ≠ c := by
        rintro rfl
        rw [hthread] at hserving
        exact hserving
      have hsame : woken.thread d = s.thread d :=
        (Server.moved_ne stored .ended hne).trans (Server.moved_ne s .waking hne)
      exact .inl (hsame ▸ hserving)
    · exact .inr hspawning

/-- **A shutdown ends every session** where each store of the flag is
alone: in every such run the daemon is drained when the loop returns `Ok`.
No weaker condition on the store will do: behind one that is not alone
there is a schedule in which the loop returns `Ok` and the daemon is not
drained. -/
theorem drained_of_alone (env : Nat → Env E) (stream : Nat → Stream) :
    (∀ acts s, Run.Under (step env stream) Alone acts {} → Runs env stream acts s →
      s.loop = .returned .ok → Drained s) ∧
    (∀ acts s c, Runs env stream acts s → s.thread c = .stopping → ¬s.loop.Ended →
      ¬Alone s (.store c) →
      ∃ acts' t, Runs env stream (acts ++ .store c :: acts') t ∧ t.loop = .returned .ok ∧
        ¬Drained t) := by
  constructor
  · intro acts s halone hruns hok
    have hhalting : Halting env stream s := Run.invariant_under
      (fun _ _ _ h halone hstep => h.step halone hstep) Halting.start halone hruns
    exact Drained.of_ended (hhalting.ended (hhalting.returned hok))
  · intro acts s c hruns hthread hloop halone
    obtain ⟨acts', t, hrun, hok, hnot⟩ := exists_undrained hthread hloop halone
    exact ⟨acts', t, Run.after_append.mpr ⟨s, hruns, hrun⟩, hok, hnot⟩

/-! ## Two clients -/

/-- A client that begins a transaction and queries in it. -/
def transacts : List Value :=
  [sayHello, ask "r1" "open_session" [("database", .string "work")], ask "r2" "begin" [],
    ask "r3" "query" [("statement", .string "CREATE")]]

/-- A client that asks for a shutdown. -/
def asksShutdown : List Value := [sayHello, ask "down" "shutdown" []]

/-- A daemon that reads both, under the default limits. -/
def bothEnv (_ : Nat) : Env Engine.journal :=
  Env.conversing Limits.default workCatalog (transacts ++ [ask "down" "shutdown" []])

/-- The first connection transacts, and every other asks for a shutdown. -/
def bothStream : Nat → Stream
  | 0 => .saying transacts
  | _ => .saying asksShutdown

/-- A client connects, and its handshake is over. -/
def arrives (c : Nat) : List Act := [.connect, .accept, .check, .spawn, .serve c .handshake]

/-- A frame is read and answered. -/
def answers (c : Nat) : List Act := [.serve c .read, .serve c .handle]

/-- A shutdown is asked for, and `serve_connection` returns. -/
def asks (c : Nat) : List Act := answers c ++ [.serve c .leave]

/-- The flag is stored, and the loop woken. -/
def stops (c : Nat) : List Act := [.store c, .wake c, .accept, .check]

/-- The first client is in a transaction when the second has asked. -/
def midway : List Act :=
  arrives 0 ++ answers 0 ++ answers 0 ++ [.serve 0 .read] ++ arrives 1 ++ asks 1

def Thread.isStopping : Thread E → Bool
  | .stopping => true
  | _ => false

def Thread.isWaking : Thread E → Bool
  | .waking => true
  | _ => false

theorem Thread.eq_stopping {thread : Thread E} (h : thread.isStopping = true) :
    thread = .stopping := by
  cases thread <;> first | rfl | cases h

/-- The second client's shutdown is about to be stored, and the first
client's query is read and not answered, inside its transaction. -/
theorem midway_stopping : ∃ s, Runs bothEnv bothStream midway s ∧ s.thread 1 = .stopping ∧
    ¬s.loop.Ended ∧ ¬Alone s (.store 1) := by
  have hmidway : (Run.after (step bothEnv bothStream) midway {}).any (fun s =>
      decide ((s.thread 1).isStopping = true ∧ s.loop = .accepting ∧ ¬Alone s (.store 1)))
        = true := by
    decide +kernel
  obtain ⟨s, hruns, hthread, hloop, halone⟩ := Run.exists_of_any hmidway
  refine ⟨s, hruns, Thread.eq_stopping hthread, ?_, halone⟩
  rw [hloop]
  exact id

/-- The first client transacts, leaves its transaction to the end of its
input and is served to its end; then the second one asks. -/
def inTurn : List Act :=
  arrives 0 ++ answers 0 ++ answers 0 ++ answers 0 ++ answers 0 ++ [.serve 0 .leave] ++
    arrives 1 ++ asks 1

/-- Asked for when the other client is gone, a shutdown is stored alone,
and the loop woken. -/
theorem inTurn_returned :
    Run.Under (step bothEnv bothStream) Alone (inTurn ++ stops 1) {} ∧
    ∃ s, Runs bothEnv bothStream (inTurn ++ stops 1) s ∧ s.loop = .returned .ok ∧
      s.stopping = true := by
  have hreturns : (Run.after (step bothEnv bothStream) (inTurn ++ stops 1) {}).any (fun s =>
      decide (s.loop = .returned .ok ∧ s.stopping = true)) = true := by
    decide +kernel
  exact ⟨by decide +kernel, Run.exists_of_any hreturns⟩

/-- Behind a client that transacted and left, a shutdown drains the
daemon; while that client is in its transaction, it may not. -/
theorem drained_of_alone_both :
    (∃ s, Runs bothEnv bothStream (inTurn ++ stops 1) s ∧ Drained s) ∧
    ∃ acts t, Runs bothEnv bothStream (midway ++ .store 1 :: acts) t ∧ t.loop = .returned .ok ∧
      ¬Drained t := by
  constructor
  · obtain ⟨halone, s, hruns, hok, -⟩ := inTurn_returned
    exact ⟨s, hruns, (drained_of_alone bothEnv bothStream).1 _ s halone hruns hok⟩
  · obtain ⟨s, hruns, hthread, hloop, halone⟩ := midway_stopping
    exact (drained_of_alone bothEnv bothStream).2 midway s 1 hruns hthread hloop halone

/-- The loop may return `Ok` while the first client is still served. -/
theorem not_always_drained :
    ¬ ∀ (env : Nat → Env Engine.journal) stream acts s, Runs env stream acts s →
      s.loop = .returned .ok → Drained s := by
  intro h
  obtain ⟨s, hruns, hthread, hloop, halone⟩ := midway_stopping
  obtain ⟨acts, t, hrun, hok, hnot⟩ := exists_undrained hthread hloop halone
  exact hnot (h bothEnv bothStream _ t (Run.after_append.mpr ⟨s, hruns, hrun⟩) hok)

end NostdbServer.AcceptLoop
