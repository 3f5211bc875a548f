import Gfe.Client.Connector
import Gfe.Lib.Unless
import Gfe.Listen.Accept
import Gfe.LoadBalancing.Throughput

/-! # Who is refused

The caps on connections accepted, on connections to servers and on the requests of a pool
count the same way: whoever asks takes a place first and gives it back when there was none.
Until then it stands in the way of others, so a place that nobody holds can be refused. A
refusal is right as long as nobody else is being refused at the same moment.
-/

namespace Gfe

open Interleaving

/-! ## Connections accepted -/

namespace Accept

variable {κ ι : Type} [DecidableEq κ] [DecidableEq ι] {limits : Limits}
  {arrivals : Arrivals κ ι} {loop : κ}

omit [DecidableEq κ] in
/-- The counter a refusal is about. -/
def Limit.cap (loop : κ) : Limit → Option (Cap κ)
  | .connectionsPerPeer => none
  | .maxConnections => some .total
  | .maxConnectionsPerListener => some (.listener loop)

/-- The connection takes a place under the cap and sees it reached. -/
def Denied (limits : Limits) (cap : Cap κ) (i : ι) (s s' : Admission κ ι) : Prop :=
  Places.Denied (limits.max cap) i (s.places cap) (s'.places cap)

/-- Where each connection is stays as it was. -/
def SamePhases (s s' : Admission κ ι) : Prop := ∀ i, (s'.ledger i).phase = (s.ledger i).phase

theorem samePhases_take (cap : Cap κ) (j : ι) (s : Admission κ ι) :
    SamePhases s (s.take cap j).2 := by
  intro i
  by_cases same : i = j <;> simp [Admission.take, same]

theorem samePhases_give (cap : Cap κ) (j : ι) (s : Admission κ ι) : SamePhases s (s.give cap j) := by
  intro i
  by_cases same : i = j <;> simp [Admission.give, same]

omit [DecidableEq κ] [DecidableEq ι] in
theorem samePhases_askPeer (peer : IpAddr) (now : Instant) (s : Admission κ ι) :
    SamePhases s (s.askPeer peer now).2 := by
  intro i
  unfold Admission.askPeer
  split <;> rfl

theorem moves_tryAcquire (cap : Cap κ) (max : Option Nat) (j : ι) :
    (tryAcquire cap max j).Moves SamePhases := by
  refine .bind (.lift (.exchange (samePhases_take cap j))) fun already => ?_
  cases max with
  | none => exact .pure _
  | some max =>
    dsimp only
    split
    · exact .bind (.lift (.write (samePhases_give cap j))) fun _ => .throw _
    · exact .pure _

theorem moves_admitConnection (loop : κ) (j : ι) (peer : IpAddr) (now : Instant) :
    (admitConnection limits loop j peer now).Moves SamePhases := by
  refine .bind (.lift (.exchange (samePhases_askPeer peer now))) fun allowed => ?_
  cases allowed
  on_goal 1 => refine .bind (.throw _) fun _ => ?_
  all_goals
    refine .bind (.mapError (moves_tryAcquire _ _ j)) fun total => ?_
    refine .bind (.lift (p := ExceptT.run _) (moves_tryAcquire _ _ j)) fun result => ?_
    cases result with
    | ok here => exact .pure _
    | error reached => exact .bind (.lift (.write (samePhases_give _ j))) fun _ => .throw _

variable {i : ι} {limit : Limit} {cap : Cap κ}

/-- The connection is not refused for this limit. -/
def Spared (i : ι) (limit : Limit) (s : Admission κ ι) : Prop :=
  (s.ledger i).phase ≠ .refused limit

omit [DecidableEq κ] [DecidableEq ι] in
theorem SamePhases.spared {s s' : Admission κ ι} (same : SamePhases s s') (spared : Spared i limit s) :
    Spared i limit s' := by
  rw [Spared, same i]
  exact spared

omit [DecidableEq κ] in
theorem spared_note {j : ι} {phase : Phase} (harmless : j = i → phase ≠ .refused limit)
    (s : Admission κ ι) (spared : Spared i limit s) : Spared i limit (s.note j phase) := by
  by_cases same : i = j
  · subst same
    simpa [Spared] using harmless rfl
  · simpa [Spared, same] using spared

theorem unless_tryAcquire (asked : Cap κ) :
    (ExceptT.run (tryAcquire asked (some (limits.max asked)) i)).Unless (Denied limits cap i)
      (Spared i limit) fun result => asked = cap → ∃ permit, result = .ok permit := by
  by_cases same : asked = cap
  · subst same
    apply Program.Unless.bindFallible
    apply Program.Unless.liftFallible
    apply Program.Unless.exchange
    intro s
    by_cases full : (limits.max asked : Int) ≤ s.inUse asked
    · exact .inl ⟨by rw [s.places_take, if_pos rfl], full⟩
    · refine .inr ⟨(samePhases_take asked i s).spared, ?_⟩
      simp only [Admission.take, full, if_false]
      exact .ret fun _ => ⟨_, rfl⟩
  · refine (Program.Unless.ofMoves ?_).weaken fun _ _ absurd => (same absurd).elim
    exact Program.Moves.weaken (moves_tryAcquire _ _ i) fun s s' phases => phases.spared

/-- The connection is refused for a limit only after it was denied under its cap. -/
theorem unless_admitConnection (about : limit.cap loop = some cap) (peer : IpAddr) (now : Instant) :
    (ExceptT.run (admitConnection limits loop i peer now)).Unless (Denied limits cap i)
      (Spared i limit) fun result => result ≠ .error limit := by
  apply Program.Unless.bindFallible
  apply Program.Unless.liftFallible
  apply Program.Unless.exchange
  refine fun s => .inr ⟨(samePhases_askPeer peer now s).spared, ?_⟩
  cases (s.askPeer peer now).1 with
  | false =>
    refine .bindFallible (.ret ?_)
    rintro ⟨⟩
    cases about
  | true =>
    simp only [Bool.not_true, Bool.false_eq_true, if_false]
    apply Program.Unless.bindFallible
    apply Program.Unless.mapError
    refine (unless_tryAcquire .total).weaken ?_
    rintro (reached | total) granted
    · -- refused under the cap of all loops, which then is not the one asked about
      rintro ⟨⟩
      cases about
      obtain ⟨permit, none⟩ := granted rfl
      cases none
    · apply Program.Unless.bindFallible
      apply Program.Unless.liftFallible
      refine (unless_tryAcquire (.listener loop)).weaken ?_
      rintro (reached | here) granted
      · apply Program.Unless.bindFallible
        apply Program.Unless.liftFallible
        refine .write (fun s => (samePhases_give _ i s).spared) (.ret ?_)
        rintro ⟨⟩
        cases about
        obtain ⟨permit, none⟩ := granted rfl
        cases none
      · exact .ret nofun

theorem unless_runListener (about : limit.cap (arrivals.loop i) = some cap) (queue : List ι)
    (mine : ∀ j ∈ queue, arrivals.loop j = loop) :
    (runListener limits arrivals loop queue).Unless (Denied limits cap i) (Spared i limit)
      fun _ => True := by
  induction queue with
  | nil => exact .ret True.intro
  | cons j rest ih =>
    obtain ⟨own, others⟩ := List.forall_mem_cons.mp mine
    apply Program.Unless.bind
    refine .write (spared_note fun _ => nofun) ?_
    have decided : (ExceptT.run (admitConnection limits loop j (arrivals.peer j)
        (arrivals.now j))).Unless (Denied limits cap i) (Spared i limit)
        fun result => j = i → result ≠ .error limit := by
      by_cases same : j = i
      · subst same
        exact (unless_admitConnection (own ▸ about) _ _).weaken fun _ fine _ => fine
      · refine (Program.Unless.ofMoves ?_).weaken fun _ _ absurd => (same absurd).elim
        exact Program.Moves.weaken (moves_admitConnection _ j _ _) fun s s' phases => phases.spared
    apply Program.Unless.bind
    refine decided.weaken ?_
    rintro (given | permits) fine
    · apply Program.Unless.bind
      refine .write (spared_note fun same => ?_) (ih others)
      rintro ⟨⟩
      exact fine same rfl
    · apply Program.Unless.bind
      exact .write (spared_note fun _ => nofun) (ih others)

theorem TaskStep.spared {s s' : Admission κ ι} (step : TaskStep arrivals s s')
    (spared : Spared i limit s) : Spared i limit s' := by
  cases step with
  | ends serving => exact spared_note (by simp) s spared
  | givesTotal | givesHere =>
    exact spared_note (by simp) _ (SamePhases.spared (samePhases_give _ _ s) spared)

theorem passed_of_refused [Fintype ι] {c : Crowd κ (Admission κ ι) Unit}
    (run : Crowd.Steps (TaskStep arrivals) (listening limits arrivals) c)
    (refused : (c.state.ledger i).phase = .refused limit)
    (about : limit.cap (arrivals.loop i) = some cap) :
    Crowd.Passed (TaskStep arrivals) (fun s s' =>
      Places.FairlyDenied (limits.max cap) i (s.places cap) (s'.places cap))
      (listening limits arrivals) c := by
  have around : ∀ s s' : Admission κ ι, TaskStep arrivals s s' → Spared i limit s →
      Spared i limit s' := fun s s' step => step.spared
  have initial : Spared i limit (listening limits arrivals).state := by
    simp [Spared, listening, Admission.new]
  rcases Crowd.passed_or_kept around (fun loop => unless_runListener about _ (arrivals.own loop))
    initial run with passed | ⟨spared, _⟩
  · exact passed.imp fun a s before denied => ((listening_sound before).1.sound cap).fairlyDenied denied
  · exact absurd refused spared

end Accept

/-! ## Connections to servers -/

namespace Client

variable {ι δ : Type} [DecidableEq ι] {max : Nat} {i : ι}

theorem unless_tryAcquire :
    (ExceptT.run (tryAcquire (some max) i)).Unless (Places.Denied max i) (fun _ => True)
      fun result => ∃ permit, result = .ok permit := by
  apply Program.Unless.bindFallible
  apply Program.Unless.liftFallible
  apply Program.Unless.exchange
  intro s
  by_cases full : (max : Int) ≤ s.count
  · exact .inl ⟨rfl, full⟩
  · refine .inr ⟨id, ?_⟩
    simp only [full, if_false]
    exact .ret ⟨_, rfl⟩

theorem unless_connection (dialed : Except δ Unit) :
    (connection (some max) dialed i).Unless (Places.Denied max i) (fun _ => True)
      fun result => ∀ reached, result ≠ .error (.limit reached) := by
  apply Program.Unless.bind
  apply Program.Unless.bindFallible
  apply Program.Unless.mapError
  refine unless_tryAcquire.weaken ?_
  rintro _ ⟨permit, rfl⟩
  cases dialed with
  | ok opened => exact .ret (.bind (.write (fun _ => id) (.ret nofun)))
  | error error =>
    apply Program.Unless.bindFallible
    apply Program.Unless.liftFallible
    exact .write (fun _ => id) (.ret (.ret nofun))

theorem passed_of_refused [Fintype ι] {dialed : ι → Except δ Unit}
    {c : Crowd ι (Connections ι) (Except (ConnectError δ) Unit)}
    (run : Crowd.Steps Eq (connecting (some max) dialed) c) {reached : LimitReached}
    (refused : c.threads i = .ret (.error (.limit reached))) :
    Crowd.Passed Eq (Places.FairlyDenied max i) (connecting (some max) dialed) c := by
  let fine (j : ι) (result : Except (ConnectError δ) Unit) : Prop :=
    j = i → ∀ reached, result ≠ .error (.limit reached)
  have spec : ∀ j, ((connecting (some max) dialed).threads j).Unless (Places.Denied max i)
      (fun _ => True) (fine j) := by
    intro j
    by_cases same : j = i
    · subst same
      exact (unless_connection (dialed j)).weaken fun _ good _ => good
    · exact (Program.Unless.anyhow _).weaken fun _ _ absurd => (same absurd).elim
  rcases Crowd.passed_or_kept (fun _ _ _ => id) spec True.intro run with passed | ⟨_, still⟩
  · exact passed.imp fun a s before denied => (connecting_sound before).1.fairlyDenied denied
  · have ended := still i
    rw [refused] at ended
    exact absurd rfl (ended rfl reached)

end Client

/-! ## Requests of a pool -/

section

variable {ι τ : Type} [DecidableEq ι] {pool : Pool τ} {q r : ι} {max : NonZeroU32}

theorem PoolState.places_enter (s : PoolState ι) (r : ι) (max : Nat) :
    (s.enter r max).2.places = s.places.enter r := by
  refine congrArg₂ Places.mk ?_ (funext fun q => ?_)
  · rw [s.inFlight_enter, Function.update_self]
    rfl
  · by_cases same : q = r
    · subst same
      rw [s.ledger_enter, Function.update_self]
      split <;> rfl
    · rw [s.ledger_enter_of_ne same, Function.update_of_ne same]
      rfl

/-- The request was not told that too many are in flight. -/
def PlaceLeft (r : ι) (s : PoolState ι) : Prop := .error .maxInFlight ∉ (s.ledger r).answers

theorem placeLeft_askRate (q : ι) (now : Instant) (s : PoolState ι) (left : PlaceLeft r s) :
    PlaceLeft r (s.askRate q now).2 := by
  by_cases same : r = q
  · subst same
    rw [PlaceLeft, s.ledger_askRate, Entry.answered, List.mem_append, not_or]
    refine ⟨left, ?_⟩
    split <;> simp
  · rwa [PlaceLeft, s.ledger_askRate_of_ne same]

theorem placeLeft_release (q : ι) (counter : Counter) (s : PoolState ι) (left : PlaceLeft r s) :
    PlaceLeft r (s.release q counter) := by
  by_cases same : r = q
  · subst same
    simpa [PlaceLeft, PoolState.release] using left
  · rwa [PlaceLeft, s.ledger_release_of_ne same]

theorem moves_drop (guard : InflightGuard) (q : ι) :
    (guard.drop q).Moves fun s s' => PlaceLeft r s → PlaceLeft r s' := by
  obtain ⟨counter⟩ := guard
  cases counter with
  | none => exact .ret _
  | some counter => exact .write (placeLeft_release q counter)

theorem moves_admitAtRate (q : ι) (now : Instant) (guard : InflightGuard) :
    (admitAtRate q now guard).Moves fun s s' => PlaceLeft r s → PlaceLeft r s' := by
  refine .bind (.exchange (placeLeft_askRate q now)) fun permitted => ?_
  split
  · exact .ret _
  · exact .bind (moves_drop guard q) fun _ => .ret _

theorem unless_visit (capped : pool.maxInFlight = some max) (q : ι) (now : Instant) :
    (visit pool q now).Unless
      (fun s s' => Places.Denied max.val.toNat r s.places s'.places) (PlaceLeft r)
      fun _ => True := by
  have leaves : ∀ guard : InflightGuard, (guard.drop q).Unless
      (fun s s' => Places.Denied max.val.toNat r s.places s'.places) (PlaceLeft r)
      fun _ => True := fun guard => .ofMoves (moves_drop guard q)
  apply Program.Unless.bind
  rw [admitRequest, capped]
  apply Program.Unless.bind
  apply Program.Unless.exchange
  intro s
  by_cases denied : q = r ∧ (max.val.toNat : Int) ≤ s.inFlight .pool
  · obtain ⟨rfl, full⟩ := denied
    exact .inl ⟨s.places_enter q _, full⟩
  · refine .inr ⟨?_, ?_⟩
    · intro left
      by_cases same : r = q
      · subst same
        rw [PlaceLeft, s.ledger_enter, if_neg fun full => denied ⟨rfl, full⟩]
        exact left
      · rwa [PlaceLeft, s.ledger_enter_of_ne same]
    · rw [s.enter_fst]
      split
      · exact .bind ((leaves _).weaken fun _ _ => .ret (.ret True.intro))
      · refine (Program.Unless.ofMoves (moves_admitAtRate q now _)).weaken ?_
        rintro (limit | guard) _
        · exact .ret True.intro
        · exact leaves guard

theorem passed_of_maxInFlight [Fintype ι] (capped : pool.maxInFlight = some max)
    (times : ι → Instant) {status : HandleId → HealthStatus} {unknownIsSelectable : Bool}
    {random : UInt64} {c : Crowd ι (PoolState ι) Unit}
    (run : Crowd.Steps Around (visits pool times (.new pool status unknownIsSelectable random)) c)
    (refused : .error .maxInFlight ∈ (c.state.ledger r).answers) :
    Crowd.Passed Around (fun s s' =>
      Places.FairlyDenied max.val.toNat r s.places s'.places)
      (visits pool times (.new pool status unknownIsSelectable random)) c := by
  have around : ∀ s s' : PoolState ι, Around s s' → PlaceLeft r s → PlaceLeft r s' := by
    intro s s' around left
    rwa [PlaceLeft, around.ledger]
  have initial : PlaceLeft r
      (visits pool times (.new pool status unknownIsSelectable random)).state := by
    simp [PlaceLeft, visits, PoolState.new]
  rcases Crowd.passed_or_kept around (fun q => unless_visit capped q (times q)) initial run with
    passed | ⟨left, _⟩
  · refine passed.imp fun a s before denied => Places.Sound.fairlyDenied ?_ denied
    have balanced : Balanced a.state ∧ _ := visits_keep (fun r s s' moved => moved.balanced)
      (fun s s' around => around.balanced) times (balanced_new ..) before
    exact balanced.1.places
  · exact absurd refused left

end

/-! ## All three -/

/-- Whoever is refused under a cap on connections accepted, on connections to servers or on the
    requests of a pool took a place at a moment when, if nobody else was being refused, as many
    as the cap allows were held. -/
theorem refused_only_if_full (κ ι δ τ : Type) [DecidableEq κ] [DecidableEq ι] [Fintype ι] :
    (∀ (limits : Accept.Limits) (arrivals : Accept.Arrivals κ ι)
        (c : Crowd κ (Accept.Admission κ ι) Unit),
        Crowd.Steps (Accept.TaskStep arrivals) (Accept.listening limits arrivals) c →
        ∀ i limit cap, (c.state.ledger i).phase = .refused limit →
          limit.cap (arrivals.loop i) = some cap →
          Crowd.Passed (Accept.TaskStep arrivals) (fun s s' =>
            Places.FairlyDenied (limits.max cap) i (s.places cap) (s'.places cap))
            (Accept.listening limits arrivals) c) ∧
      (∀ (max : Nat) (dialed : ι → Except δ Unit)
        (c : Crowd ι (Client.Connections ι) (Except (Client.ConnectError δ) Unit)),
        Crowd.Steps Eq (Client.connecting (some max) dialed) c →
        ∀ i reached, c.threads i = .ret (.error (.limit reached)) →
          Crowd.Passed Eq (Places.FairlyDenied max i) (Client.connecting (some max) dialed) c) ∧
      ∀ (pool : Pool τ) (max : NonZeroU32) (times : ι → Instant) (status : HandleId → HealthStatus)
        (unknownIsSelectable : Bool) (random : UInt64) (c : Crowd ι (PoolState ι) Unit),
        pool.maxInFlight = some max →
        Crowd.Steps Around (visits pool times (.new pool status unknownIsSelectable random)) c →
        ∀ r, .error .maxInFlight ∈ (c.state.ledger r).answers →
          Crowd.Passed Around (fun s s' =>
            Places.FairlyDenied max.val.toNat r s.places s'.places)
            (visits pool times (.new pool status unknownIsSelectable random)) c := by
  refine ⟨?accept, ?connect, ?visit⟩
  case accept =>
    intro limits arrivals c run i limit cap refused about
    exact Accept.passed_of_refused run refused about
  case connect =>
    intro max dialed c run i reached refused
    exact Client.passed_of_refused run refused
  case visit =>
    intro pool max times status unknownIsSelectable random c capped run r refused
    exact passed_of_maxInFlight capped times run refused

/-- One of the programs takes this many actions. -/
def advanced {σ α : Type} {n : Nat} (c : Crowd (Fin n) σ α) (i : Fin n) (actions : Nat) :
    Crowd (Fin n) σ α :=
  ⟨Function.update c.threads i ((c.threads i).advance actions c.state).1,
    ((c.threads i).advance actions c.state).2⟩

/-- Three connections to servers under a cap of one. -/
def three : Crowd (Fin 3) (Client.Connections (Fin 3)) (Except (Client.ConnectError Unit) Unit) :=
  Client.connecting (some 1) fun _ => .ok ()

/-- The second one is refused while the first is open. -/
theorem refused_only_if_full_three :
    Crowd.Passed Eq (Places.FairlyDenied 1 1) three (advanced (advanced three 0 1) 1 2) := by
  refine (refused_only_if_full Unit (Fin 3) Unit Unit).2.1 1 _ _ ?_ 1 ⟨1⟩ rfl
  exact (Crowd.steps_advance Eq _ _ 0 1).trans (Crowd.steps_advance Eq _ _ 1 2)

/-- The first of three connections is open and closes; the second was counted while it was and
    has yet to give its place back. -/
def closing : Crowd (Fin 3) (Client.Connections (Fin 3)) (Except (Client.ConnectError Unit) Unit) :=
  advanced (advanced (advanced three 0 1) 1 1) 0 1

/-- The third one is refused, though nobody has held a permit since before it asked. -/
theorem free_place_refused :
    Crowd.Steps Eq three closing ∧ closing.threads 2 = three.threads 2 ∧
      Crowd.Step Eq closing (advanced closing 2 1) ∧
      Crowd.Step Eq (advanced closing 2 1) (advanced (advanced closing 2 1) 2 1) ∧
      (advanced (advanced closing 2 1) 2 1).threads 2 = .ret (.error (.limit ⟨1⟩)) ∧
      ∀ c ∈ [closing, advanced closing 2 1, advanced (advanced closing 2 1) 2 1],
        c.state.below 1 = ∅ ∧ ¬ Places.Full 1 c.state := by
  have nobody : [closing, advanced closing 2 1, advanced (advanced closing 2 1) 2 1].all
      fun c => c.state.below 1 = ∅ := by
    decide +kernel
  refine ⟨?_, rfl, ?_, ?_, rfl, ?_⟩
  · exact ((Crowd.steps_advance Eq _ _ 0 1).trans (Crowd.steps_advance Eq _ _ 1 1)).trans
      (Crowd.steps_advance Eq _ _ 0 1)
  · exact Crowd.step_advance Eq rfl _
  · exact Crowd.step_advance Eq rfl _
  · intro c member
    have empty : c.state.below 1 = ∅ := by
      simpa using List.all_eq_true.mp nobody c member
    refine ⟨empty, ?_⟩
    rw [Places.Full, Nat.cast_one, empty]
    decide

end Gfe
