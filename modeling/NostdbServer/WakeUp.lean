import NostdbServer.Lib.Fair
import NostdbServer.Shutdown

/-!
# WakeUp — no shutdown is lost

The loop is blocked inside `accept` and cannot see the flag until a
connection arrives, so the thread that stores the flag connects once. That
this is enough is an invariant (`Woken`): with the flag set and the loop
not ended, a connection is in the queue, or the loop has accepted one and
is about to look at the flag, or a thread is still to connect.

From it the loop ends in every behaviour that is fair to the loop and to
the threads about to connect, and with the flag set it spawns no thread
for a connection made afterwards (`no_shutdown_lost`).
-/

namespace NostdbServer.AcceptLoop

open Run

variable {E : Engine} {env : Nat → Env E} {stream : Nat → Stream}

/-! ## What will wake the loop -/

/-- **The loop will be woken**, or need not be. -/
def Woken (s : Server E) : Prop :=
  s.queue ≠ [] ∨ (∃ incoming, s.loop = .accepted incoming) ∨ ∃ c, s.thread c = .waking

/-- With the flag set, the loop will be woken or has ended. -/
def Alert (s : Server E) : Prop := s.stopping = true → ¬s.loop.Ended → Woken s

/-- A thread about to connect is not inside `serve_connection`. -/
theorem ne_of_serve {s : Server E} {c d : Nat} {act : Serve} {thread : Thread E}
    (hserve : (s.thread c).serve (env c) (stream c) act = some thread)
    (hwaking : s.thread d = .waking) : d ≠ c := by
  rintro rfl
  have hserving := (Thread.serving_of_serve hserve).1
  rw [hwaking] at hserving
  exact hserving

theorem Alert.step {a : Act} {s t : Server E} (hplaced : Placed env stream s) (h : Alert s)
    (hstep : step env stream a s = some t) : Alert t := by
  intro hstopping hloop
  cases outcome_of_step hstep with
  | connected => exact .inl (by simp [Server.connected])
  | accepted hat hqueue => exact .inr (.inl ⟨_, rfl⟩)
  | acceptFailed hat => exact .inr (.inl ⟨_, rfl⟩)
  | @checked incoming hat =>
    -- the loop sees the flag, and ends
    have hstopping : s.stopping = true := hstopping
    have hended : (s.checked incoming).Ended := by
      rw [Server.checked_of_stopping hstopping]
      trivial
    exact absurd hended hloop
  | @spawned c hat =>
    have hwoken := h hstopping (by rw [hat]; exact id)
    rcases hwoken with hqueue | ⟨incoming, haccepted⟩ | ⟨d, hwaking⟩
    · exact .inl hqueue
    · rw [hat] at haccepted
      cases haccepted
    · have hne : d ≠ c := by
        rintro rfl
        rw [(hplaced.loop d (.inr hat)).2.1] at hwaking
        cases hwaking
      exact .inr (.inr ⟨d, (Server.moved_ne _ _ hne).trans hwaking⟩)
  | spawnPanicked hat => exact absurd trivial hloop
  | @served c act thread hserve =>
    rcases h hstopping hloop with hqueue | haccepted | ⟨d, hwaking⟩
    · exact .inl hqueue
    · exact .inr (.inl haccepted)
    · exact .inr (.inr ⟨d, (Server.moved_ne _ _ (ne_of_serve hserve hwaking)).trans hwaking⟩)
  | @stored c hthread => exact .inr (.inr ⟨c, Server.moved_self _ _ _⟩)
  | @woke c hthread => exact .inl (by simp [Server.connected])

/-- Where a run stands, and that the loop will be woken there. -/
structure Watched (env : Nat → Env E) (stream : Nat → Stream) (s : Server E) : Prop where
  placed : Placed env stream s
  alert : Alert s

theorem Watched.step {a : Act} {s t : Server E} (h : Watched env stream s)
    (hstep : step env stream a s = some t) : Watched env stream t :=
  ⟨h.placed.step hstep, h.alert.step h.placed hstep⟩

theorem watched_of_runs {acts : List Act} {s : Server E} (h : Runs env stream acts s) :
    Watched env stream s :=
  Run.invariant (fun _ _ _ hs hstep => hs.step hstep)
    ⟨Placed.start, fun hstopping => by cases hstopping⟩ h

/-! ## Connections made too late -/

/-- With the flag set, no connection from `bound` on has a thread or is
about to get one. -/
structure TurnedAway (bound : Nat) (s : Server E) : Prop where
  stopping : s.stopping = true
  thread : ∀ c, bound ≤ c → s.thread c = .unspawned
  loop : ∀ c, bound ≤ c → s.loop ≠ .spawning c

theorem TurnedAway.step {bound : Nat} {a : Act} {s t : Server E} (h : TurnedAway bound s)
    (hstep : step env stream a s = some t) : TurnedAway bound t := by
  have hmoved {c : Nat} {thread : Thread E} (hc : s.thread c ≠ .unspawned) (d : Nat)
      (hd : bound ≤ d) : (s.moved c thread).thread d = .unspawned := by
    have hne : d ≠ c := fun heq => hc (heq ▸ h.thread d hd)
    rw [Server.moved_ne _ _ hne, h.thread d hd]
  cases outcome_of_step hstep with
  | connected => exact ⟨h.stopping, h.thread, h.loop⟩
  | accepted hat hqueue => exact ⟨h.stopping, h.thread, by simp⟩
  | acceptFailed hat => exact ⟨h.stopping, h.thread, by simp⟩
  | @checked incoming hat =>
    refine ⟨h.stopping, h.thread, fun c _ => ?_⟩
    show s.checked incoming ≠ .spawning c
    rw [Server.checked_of_stopping h.stopping]
    simp
  | @spawned c hat =>
    refine ⟨h.stopping, fun d hd => ?_, by simp⟩
    have hne : d ≠ c := by
      rintro rfl
      exact h.loop d hd hat
    exact (Server.moved_ne _ _ hne).trans (h.thread d hd)
  | spawnPanicked hat => exact ⟨h.stopping, h.thread, by simp⟩
  | @served c act thread hserve =>
    refine ⟨h.stopping, hmoved (fun hunspawned => ?_), h.loop⟩
    have hserving := (Thread.serving_of_serve hserve).1
    rw [hunspawned] at hserving
    exact hserving
  | @stored c hthread => exact ⟨rfl, hmoved (by simp [hthread]), h.loop⟩
  | @woke c hthread => exact ⟨h.stopping, hmoved (by simp [hthread]), h.loop⟩

/-- What has not been opened when the flag is set is turned away. -/
theorem Placed.turnedAway {s : Server E} (h : Placed env stream s) (hstopping : s.stopping = true) :
    TurnedAway s.opened s where
  stopping := hstopping
  thread := h.unopened
  loop c hc hspawning := by
    have hlt := (h.loop c (.inr hspawning)).1
    omega

/-! ## The loop ends -/

/-- A step of the loop. -/
def Act.OfLoop : Act → Prop
  | .accept | .acceptFails | .check | .spawn | .spawnPanics => True
  | _ => False

/-- A step in which the loop goes on. Nothing obliges `accept` or a spawn
to fail. -/
def Act.Advances : Act → Prop
  | .accept | .check | .spawn => True
  | _ => False

theorem Act.Advances.ofLoop {a : Act} (h : a.Advances) : a.OfLoop := by
  cases a with
  | accept | check | spawn => trivial
  | _ => exact h.elim

/-- A step that is not the loop's leaves it and a set flag alone, and takes
no connection from the queue. -/
theorem stays_of_step {a : Act} {s t : Server E} (hstep : step env stream a s = some t)
    (ha : ¬a.OfLoop) : t.loop = s.loop ∧ (s.stopping = true → t.stopping = true) ∧
      (s.queue ≠ [] → t.queue ≠ []) := by
  cases outcome_of_step hstep with
  | connected => exact ⟨rfl, id, by simp [Server.connected]⟩
  | accepted | acceptFailed | checked | spawned | spawnPanicked => exact absurd trivial ha
  | served hserve => exact ⟨rfl, id, id⟩
  | stored hthread => exact ⟨rfl, fun _ => rfl, id⟩
  | woke hthread => exact ⟨rfl, id, by simp [Server.connected]⟩

section

variable {b : Behaviour (step env stream)}

/-- What only the loop can end, and each step of the loop ends, does end
where the loop can go on. -/
theorem leadsTo_of_loop (hfair : b.Fair Act.Advances) {p q : Server E → Prop}
    (hstays : ∀ s a t, p s → ¬a.OfLoop → step env stream a s = some t → p t)
    (henabled : ∀ s, p s → ∃ a, Act.Advances a ∧ (step env stream a s).isSome)
    (hacts : ∀ s a t, p s → a.OfLoop → step env stream a s = some t → q t) : b.LeadsTo p q := by
  apply Behaviour.leadsTo_of_fair hfair ?_ henabled
  · intro s a t hp ha hstep
    exact hacts s a t hp ha.ofLoop hstep
  · intro s a t hp hstep
    by_cases ha : a.OfLoop
    · exact .inr (hacts s a t hp ha hstep)
    · exact .inl (hstays s a t hp ha hstep)

/-- The loop has accepted, and will find the flag set. -/
def Accepted (s : Server E) : Prop := s.stopping = true ∧ ∃ incoming, s.loop = .accepted incoming

/-- The loop is inside `accept`, with a connection to accept. -/
def Ready (s : Server E) : Prop := s.stopping = true ∧ s.loop = .accepting ∧ s.queue ≠ []

/-- The loop is inside `accept`, and a thread is about to connect. -/
def Called (c : Nat) (s : Server E) : Prop :=
  s.stopping = true ∧ s.loop = .accepting ∧ s.thread c = .waking

/-- The loop is about to spawn a thread. -/
def Spawning (s : Server E) : Prop := s.stopping = true ∧ ∃ c, s.loop = .spawning c

theorem accepted_leadsTo (hfair : b.Fair Act.Advances) :
    b.LeadsTo Accepted (fun s => s.loop.Ended) := by
  refine leadsTo_of_loop hfair ?_ ?_ ?_
  · rintro s a t ⟨hstopping, incoming, hloop⟩ ha hstep
    obtain ⟨hsame, hset, -⟩ := stays_of_step hstep ha
    exact ⟨hset hstopping, incoming, hsame.trans hloop⟩
  · rintro s ⟨hstopping, incoming, hloop⟩
    exact ⟨.check, trivial, by simp [step, hloop]⟩
  · rintro s a t ⟨hstopping, incoming, hloop⟩ ha hstep
    cases outcome_of_step hstep with
    | checked hat =>
      show (s.checked _).Ended
      rw [Server.checked_of_stopping hstopping]
      trivial
    | accepted hat | acceptFailed hat | spawned hat | spawnPanicked hat =>
      rw [hloop] at hat
      cases hat
    | connected | served | stored | woke => exact absurd ha id

theorem ready_leadsTo (hfair : b.Fair Act.Advances) : b.LeadsTo Ready Accepted := by
  refine leadsTo_of_loop hfair ?_ ?_ ?_
  · rintro s a t ⟨hstopping, hloop, hqueue⟩ ha hstep
    obtain ⟨hsame, hset, hkept⟩ := stays_of_step hstep ha
    exact ⟨hset hstopping, hsame.trans hloop, hkept hqueue⟩
  · rintro s ⟨hstopping, hloop, hqueue⟩
    obtain ⟨first, queue, hfirst⟩ := List.exists_cons_of_ne_nil hqueue
    exact ⟨.accept, trivial, by simp [step, hloop, hfirst]⟩
  · rintro s a t ⟨hstopping, hloop, hqueue⟩ ha hstep
    cases outcome_of_step hstep with
    | accepted hat => exact ⟨hstopping, _, rfl⟩
    | acceptFailed hat => exact ⟨hstopping, _, rfl⟩
    | checked hat | spawned hat | spawnPanicked hat =>
      rw [hloop] at hat
      cases hat
    | connected | served | stored | woke => exact absurd ha id

/-- Behind the spawn the loop is inside `accept` again. -/
theorem spawning_leadsTo (hfair : b.Fair Act.Advances) :
    b.LeadsTo Spawning (fun s => s.loop.Ended ∨ (s.stopping = true ∧ s.loop = .accepting)) := by
  refine leadsTo_of_loop hfair ?_ ?_ ?_
  · rintro s a t ⟨hstopping, c, hloop⟩ ha hstep
    obtain ⟨hsame, hset, -⟩ := stays_of_step hstep ha
    exact ⟨hset hstopping, c, hsame.trans hloop⟩
  · rintro s ⟨hstopping, c, hloop⟩
    exact ⟨.spawn, trivial, by simp [step, hloop]⟩
  · rintro s a t ⟨hstopping, c, hloop⟩ ha hstep
    cases outcome_of_step hstep with
    | spawned hat => exact .inr ⟨hstopping, rfl⟩
    | spawnPanicked hat => exact .inl trivial
    | accepted hat | acceptFailed hat | checked hat =>
      rw [hloop] at hat
      cases hat
    | connected | served | stored | woke => exact absurd ha id

/-- A thread about to connect does, unless the loop accepts before. -/
theorem called_leadsTo {c : Nat} (hfair : b.Fair (· = .wake c)) :
    b.LeadsTo (Called c) (fun s => Accepted s ∨ Ready s) := by
  refine Behaviour.leadsTo_of_fair hfair ?_ ?_ ?_
  · rintro s a t ⟨hstopping, hloop, hthread⟩ hstep
    cases outcome_of_step hstep with
    | connected => exact .inl ⟨hstopping, hloop, hthread⟩
    | accepted hat => exact .inr (.inl ⟨hstopping, _, rfl⟩)
    | acceptFailed hat => exact .inr (.inl ⟨hstopping, _, rfl⟩)
    | checked hat | spawned hat | spawnPanicked hat =>
      rw [hloop] at hat
      cases hat
    | @served d act thread hserve =>
      exact .inl ⟨hstopping, hloop,
        (Server.moved_ne _ _ (ne_of_serve hserve hthread)).trans hthread⟩
    | @stored d hstored =>
      have hne : c ≠ d := by
        rintro rfl
        rw [hthread] at hstored
        cases hstored
      exact .inl ⟨rfl, hloop, (Server.moved_ne _ _ hne).trans hthread⟩
    | @woke d hwaking => exact .inr (.inr ⟨hstopping, hloop, by simp [Server.connected]⟩)
  · rintro s ⟨hstopping, hloop, hthread⟩
    exact ⟨.wake c, rfl, by simp [step, hthread]⟩
  · rintro s a t ⟨hstopping, hloop, hthread⟩ rfl hstep
    cases outcome_of_step hstep with
    | woke hwaking => exact .inr ⟨hstopping, hloop, by simp [Server.connected]⟩

/-- With the flag set the loop ends, where it and the threads that are to
wake it go on. -/
theorem stopping_leadsTo (hstart : b.state 0 = {}) (hloop : b.Fair Act.Advances)
    (hwake : ∀ c, b.Fair (· = .wake c)) :
    b.LeadsTo (fun s => s.stopping = true) (fun s => s.loop.Ended) := by
  have hready : b.LeadsTo Ready (fun s => s.loop.Ended) :=
    (ready_leadsTo hloop).trans (accepted_leadsTo hloop)
  have hcalled (c : Nat) : b.LeadsTo (Called c) (fun s => s.loop.Ended) :=
    (called_leadsTo (hwake c)).trans ((accepted_leadsTo hloop).or hready)
  have haccepting : b.LeadsTo (fun s => s.stopping = true ∧ s.loop = .accepting)
      (fun s => s.loop.Ended) := by
    refine .trans (.of_imp (q := fun s => Ready s ∨ ∃ c, Called c s) ?_)
      (hready.or (.of_exists hcalled))
    rintro n ⟨hstopping, hat⟩
    obtain ⟨acts, hruns⟩ := b.exists_run n
    rw [hstart] at hruns
    rcases (watched_of_runs hruns).alert hstopping (by rw [hat]; exact id) with
      hqueue | ⟨incoming, haccepted⟩ | ⟨c, hwaking⟩
    · exact .inl ⟨hstopping, hat, hqueue⟩
    · rw [hat] at haccepted
      cases haccepted
    · exact .inr ⟨c, hstopping, hat, hwaking⟩
  have hspawning : b.LeadsTo Spawning (fun s => s.loop.Ended) :=
    (spawning_leadsTo hloop).trans ((Behaviour.LeadsTo.of_imp fun _ => id).or haccepting)
  intro n hstopping
  cases hat : (b.state n).loop with
  | accepting => exact haccepting n ⟨hstopping, hat⟩
  | accepted incoming => exact accepted_leadsTo hloop n ⟨hstopping, incoming, hat⟩
  | spawning c => exact hspawning n ⟨hstopping, c, hat⟩
  | returned how =>
    refine ⟨n, Nat.le_refl n, ?_⟩
    show (b.state n).loop.Ended
    rw [hat]
    trivial

end

/-! ## No shutdown is lost -/

/-- **No shutdown is lost**, with any connections and any requests to
shut down. -/
structure NoShutdownLost (env : Nat → Env E) (stream : Nat → Stream) : Prop where
  /-- With the flag set and the loop not ended, something will wake it. -/
  woken : ∀ acts s, Runs env stream acts s → s.stopping = true → ¬s.loop.Ended → Woken s
  /-- With the flag set the loop is not blocked for good. -/
  ends : ∀ b : Behaviour (step env stream), b.state 0 = {} → b.Fair Act.Advances →
    (∀ c, b.Fair (· = .wake c)) → ∀ n, (b.state n).stopping = true →
    ∃ m, n ≤ m ∧ (b.state m).loop.Ended
  /-- What connects with the flag set is never served. -/
  turnedAway : ∀ acts s acts' t c, Runs env stream acts s → s.stopping = true →
    Runs env stream (acts ++ acts') t → s.opened ≤ c → t.thread c = .unspawned

theorem no_shutdown_lost (env : Nat → Env E) (stream : Nat → Stream) :
    NoShutdownLost env stream where
  woken _ _ hruns hstopping hloop := (watched_of_runs hruns).alert hstopping hloop
  ends _ hstart hloop hwake n hstopping := stopping_leadsTo hstart hloop hwake n hstopping
  turnedAway acts s acts' t c hruns hstopping hruns' hc := by
    obtain ⟨u, hu, hrest⟩ := Run.after_append.mp hruns'
    rw [Runs, hu, Option.some.injEq] at hruns
    subst hruns
    have hturned : TurnedAway u.opened t :=
      Run.invariant (fun _ _ _ h hstep => h.step hstep)
        ((placed_of_runs hu).turnedAway hstopping) hrest
    exact hturned.thread c hc

/-- A loop that has ended does not go on. -/
theorem step_of_ended {s : Server E} (h : s.loop.Ended) {a : Act} (ha : a.Advances) :
    step env stream a s = none := by
  cases hat : s.loop with
  | returned how =>
    cases a with
    | accept | check | spawn => simp only [step, hat]
    | _ => exact ha.elim
  | _ =>
    rw [hat] at h
    exact h.elim

/-- A thread that is not about to connect does not. -/
theorem step_wake {s : Server E} {c : Nat} (h : (s.thread c).isWaking = false) :
    step env stream (.wake c) s = none := by
  cases hat : s.thread c with
  | waking =>
    rw [hat] at h
    cases h
  | _ => simp only [step, hat]

/-- A run that leaves the loop ended and no thread about to connect is a
fair behaviour once nothing happens any more. -/
theorem exists_fair {acts : List Act} {s : Server E} (hruns : Runs env stream acts s)
    (hloop : s.loop.Ended) (hwake : ∀ c < s.opened, (s.thread c).isWaking = false) :
    ∃ b : Behaviour (step env stream), (∀ n, Runs env stream (acts.take n) (b.state n)) ∧
      b.Fair Act.Advances ∧ ∀ c, b.Fair (· = .wake c) := by
  obtain ⟨b, hpasses, hstops⟩ := Behaviour.of_run hruns
  have hstays (n : Nat) (hn : acts.length ≤ n) : b.state n = s := (hstops n hn).1
  refine ⟨b, hpasses, .of_stops hstays (fun a ha => step_of_ended hloop ha), fun c =>
    .of_stops hstays ?_⟩
  rintro a rfl
  apply step_wake
  by_cases hc : c < s.opened
  · exact hwake c hc
  · rw [(placed_of_runs hruns).unopened c (Nat.le_of_not_lt hc)]
    rfl

/-- The second client's shutdown is stored. -/
def storedInTurn : List Act := inTurn ++ [.store 1]

/-- A third client connects before the wake-up does. -/
def tooLate : List Act := [.connect, .wake 1, .accept, .check]

theorem storedInTurn_stopping {s : Server Engine.journal}
    (h : Runs bothEnv bothStream storedInTurn s) :
    s.stopping = true ∧ s.opened = 2 ∧ s.loop = .accepting := by
  have hstored : (Run.after (step bothEnv bothStream) storedInTurn {}).any (fun s =>
      decide (s.stopping = true ∧ s.opened = 2 ∧ s.loop = .accepting)) = true := by
    decide +kernel
  obtain ⟨t, hruns, ht⟩ := Run.exists_of_any hstored
  obtain rfl : s = t := Option.some.inj (h.symm.trans hruns)
  exact ht

theorem tooLate_returned :
    ∃ s, Runs bothEnv bothStream (storedInTurn ++ tooLate) s ∧ s.loop = .returned .ok ∧
      s.opened = 4 ∧ ∀ c < s.opened, (s.thread c).isWaking = false := by
  have hreturns : (Run.after (step bothEnv bothStream) (storedInTurn ++ tooLate) {}).any (fun s =>
      decide (s.loop = .returned .ok ∧ s.opened = 4 ∧
        ∀ c < s.opened, (s.thread c).isWaking = false)) = true := by
    decide +kernel
  exact Run.exists_of_any hreturns

/-- Behind the store, with the loop blocked and the wake-up not yet made,
something will wake the loop; it ends; and the client that connects in
between is never served. -/
theorem no_shutdown_lost_late :
    ∃ (b : Behaviour (step bothEnv bothStream)) (n m : Nat), b.state 0 = {} ∧
      (b.state n).stopping = true ∧ (b.state n).loop = .accepting ∧ Woken (b.state n) ∧
      (∃ k, n ≤ k ∧ (b.state k).loop.Ended) ∧
      (b.state n).opened = 2 ∧ 2 < (b.state m).opened ∧ (b.state m).thread 2 = .unspawned := by
  obtain ⟨s, hruns, hok, hopened, hwake⟩ := tooLate_returned
  obtain ⟨b, hpasses, hloop, hfair⟩ := exists_fair hruns (hok ▸ trivial) hwake
  have hstart : b.state 0 = {} := Option.some.inj (hpasses 0).symm
  have hstored : Runs bothEnv bothStream storedInTurn (b.state storedInTurn.length) := by
    have hat := hpasses storedInTurn.length
    rwa [List.take_left] at hat
  have hend : b.state (storedInTurn ++ tooLate).length = s := by
    have hat := hpasses (storedInTurn ++ tooLate).length
    rw [List.take_length] at hat
    exact Option.some.inj (hat.symm.trans hruns)
  obtain ⟨hstopping, htwo, haccepting⟩ := storedInTurn_stopping hstored
  have hlost := no_shutdown_lost bothEnv bothStream
  refine ⟨b, storedInTurn.length, (storedInTurn ++ tooLate).length, hstart, hstopping, haccepting,
    hlost.woken _ _ hstored hstopping (haccepting ▸ id),
    hlost.ends b hstart hloop hfair _ hstopping, htwo, ?_, ?_⟩
  · rw [hend, hopened]
    decide
  · rw [hend]
    exact hlost.turnedAway _ _ tooLate s 2 hstored hstopping hruns (Nat.le_of_eq htwo)

end NostdbServer.AcceptLoop
