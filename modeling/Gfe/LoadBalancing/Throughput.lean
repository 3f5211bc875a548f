import Gfe.LoadBalancing.Admission
import Gfe.RateLimiting.Window

/-! # What the rate of a pool admits

Requests ask a pool to be admitted and leave it again, in any interleaving. The
answers of the rate are those of a token bucket that is asked by the requests
that got a place and by nobody else.
-/

namespace Gfe

open Interleaving

variable {ι τ : Type} [DecidableEq ι] {rate : NonZeroU32} {pool : Pool τ}

/-! ## The rate is a token bucket -/

theorem TokenBucket.run_concat (bucket : TokenBucket) (calls : List Instant) (now : Instant) :
    bucket.run (calls ++ [now]) =
      ((bucket.run calls).1 ++ [((bucket.run calls).2.tryAcquire now).1.isOk],
        ((bucket.run calls).2.tryAcquire now).2) := by
  induction calls generalizing bucket with
  | nil => rfl
  | cons first rest ih =>
    rw [List.cons_append, run, run, ih]
    rfl

/-- The rate answered as a bucket of its own that is asked at these times. -/
structure Metered (rate : NonZeroU32) (s : PoolState ι) : Prop where
  bucket : s.rate = some ((TokenBucket.new rate rate).run (s.asked.map (·.now))).2
  answers : s.asked.map (·.permitted) = ((TokenBucket.new rate rate).run (s.asked.map (·.now))).1
  noted : ∀ asked ∈ s.asked, (s.ledger asked.request).answers =
    [if asked.permitted then .ok () else .error .maxRequestsPerSecond]

omit [DecidableEq ι] in
theorem Metered.keeps {s s' : PoolState ι} (metered : Metered rate s)
    (same : s'.rate = s.rate) (asked : s'.asked = s.asked)
    (answers : ∀ q, (s.ledger q).answers ≠ [] → (s'.ledger q).answers = (s.ledger q).answers) :
    Metered rate s' := by
  refine ⟨by rw [same, asked]; exact metered.bucket, by rw [asked]; exact metered.answers, ?_⟩
  intro a member
  rw [asked] at member
  have noted := metered.noted a member
  rw [answers a.request (by simp [noted]), noted]

theorem Moved.metered {r : ι} {s s' : PoolState ι}
    (moved : Moved pool r s s') (metered : Metered rate s) : Metered rate s' := by
  have final := fun q => moved.answers (q := q)
  cases moved with
  | apart apart own => exact metered.keeps apart.rate apart.asked final
  | @enters max capped free fresh =>
    exact metered.keeps (s.rate_enter r _) (s.asked_enter r _) final
  | takes | releases => exact metered.keeps rfl rfl final
  | asks now fresh =>
    have rated := metered.bucket
    generalize held : (TokenBucket.new rate rate).run (s.asked.map (·.now)) = reached at rated
    have asked := PoolState.asked_askRate rated r now
    refine ⟨?_, ?_, ?_⟩
    · simp only [PoolState.rate_askRate rated, asked, List.map_append, List.map_cons, List.map_nil,
        TokenBucket.run_concat, held]
    · simp only [asked, List.map_append, List.map_cons, List.map_nil, TokenBucket.run_concat,
        held, metered.answers]
    · intro a member
      rw [asked, List.mem_append, List.mem_singleton] at member
      rcases member with old | rfl
      · have noted := metered.noted a old
        rw [final a.request (by simp [noted]), noted]
      · rw [s.ledger_askRate, PoolState.askRate_fst rated, Entry.answered, fresh]
        rfl

/-! ## Visits -/

/-- A request that asks to be admitted and, if it is, leaves some time later. -/
def visit (pool : Pool τ) (r : ι) (now : Instant) : Program (PoolState ι) Unit :=
  admitRequest pool r now >>= fun
    | .ok guard => guard.drop r
    | .error _ => pure ()

/-- Requests that come at these times, before any of them has. -/
def visits (pool : Pool τ) (times : ι → Instant) (start : PoolState ι) :
    Crowd ι (PoolState ι) Unit :=
  ⟨fun r => visit pool r (times r), start⟩

theorem accounts_visit {r : ι} {entry : Entry} (now : Instant)
    (books : entry.Books [] []) (never : entry.taken .pool = 0) :
    Accounts pool r (visit pool r now) entry fun _ e => ∃ answers, e.Books answers [] := by
  apply Accounts.bind
  refine (accounts_admitRequest now books never).weaken ?_
  rintro (limit | guard) e held
  · exact .ret ⟨_, held⟩
  · obtain ⟨kept, lives, _⟩ := held
    rw [← List.append_nil guard.held] at kept
    exact (accounts_drop kept lives).weaken fun _ e dropped => ⟨_, dropped.1⟩

/-- A request and its answer, as a call of the rate. -/
def Asked.call (asked : Asked ι) : Instant × Bool := (asked.now, asked.permitted)

omit [DecidableEq ι] in
theorem Metered.calls {s : PoolState ι} (metered : Metered rate s)
    {before after : List (Asked ι)} (part : s.asked = before ++ after)
    (ordered : (s.asked.map (·.now)).Pairwise (· ≤ ·)) :
    Calls rate.val (before.map Asked.call) := by
  have whole : Calls rate.val (s.asked.map Asked.call) := by
    refine ⟨List.pairwise_map.mpr (List.pairwise_map.mp ordered), ?_⟩
    have answers := metered.answers
    rw [((TokenBucket.new rate rate).run_eq _).1] at answers
    rw [List.map_map, List.map_map]
    exact answers
  rw [part, List.map_append] at whole
  exact whole.of_append.1

omit [DecidableEq ι] in
theorem metered_new (rated : pool.rate = some rate)
    (status : HandleId → HealthStatus) (unknownIsSelectable : Bool) (random : UInt64) :
    Metered rate (.new pool status unknownIsSelectable random : PoolState ι) := by
  refine ⟨?_, rfl, fun _ none => by cases none⟩
  simp only [PoolState.new, rated]
  rfl

/-! ## One visit after the other -/

theorem toNat_pos (n : NonZeroU32) : 0 < n.val.toNat :=
  Nat.pos_of_ne_zero fun zero => n.property (UInt32.toNat_inj.mp zero)

theorem run_drop (r : ι) (guard : InflightGuard) (s : PoolState ι) :
    ((guard.drop r).run s).2.asked = s.asked ∧ ((guard.drop r).run s).2.rate = s.rate ∧
      ((guard.drop r).run s).2.inFlight .pool =
        s.inFlight .pool - if guard.counter = some .pool then 1 else 0 := by
  obtain ⟨counter⟩ := guard
  cases counter with
  | none => exact ⟨rfl, rfl, (sub_zero _).symm⟩
  | some counter =>
    refine ⟨rfl, rfl, ?_⟩
    simp only [InflightGuard.drop, Program.run_write, PoolState.release, PoolState.inFlight_note]
    by_cases same : counter = .pool
    · simp [same]
    · simp [same, Function.update_of_ne (Ne.symm same)]

theorem run_admitAtRate (r : ι) (now : Instant) (guard : InflightGuard) (s : PoolState ι) :
    (Program.run (admitAtRate r now guard >>= fun
      | .ok guard => guard.drop r
      | .error _ => pure ()) s).2 = ((guard.drop r).run (s.askRate r now).2).2 := by
  rw [admitAtRate, Program.bind_assoc, Program.run_bind, Program.run_exchange]
  split <;> simp

theorem run_visit (pool : Pool τ) (r : ι) (now : Instant) {s : PoolState ι} {bucket : TokenBucket}
    (rated : s.rate = some bucket) (empty : s.inFlight .pool = 0) :
    ((visit pool r now).run s).2.asked =
        s.asked ++ [⟨r, now, (bucket.tryAcquire now).1.isOk⟩] ∧
      ((visit pool r now).run s).2.rate = some (bucket.tryAcquire now).2 ∧
      ((visit pool r now).run s).2.inFlight .pool = 0 := by
  unfold visit admitRequest
  split
  · rw [run_admitAtRate]
    obtain ⟨asked, rate, inFlight⟩ := run_drop r ⟨none⟩ (s.askRate r now).2
    rw [asked, rate, inFlight, PoolState.asked_askRate rated, PoolState.rate_askRate rated,
      PoolState.inFlight_askRate, empty]
    exact ⟨rfl, rfl, rfl⟩
  · rename_i max _
    have room : ¬(max.val.toNat : Int) ≤ s.inFlight .pool := by
      have positive := toNat_pos max
      omega
    rw [Program.bind_assoc, Program.run_bind, Program.run_exchange, PoolState.enter_fst,
      if_neg room, run_admitAtRate]
    generalize entered : (s.enter r max.val.toNat).2 = t
    have rated' : t.rate = some bucket := by
      rw [← entered, PoolState.rate_enter, rated]
    obtain ⟨asked, rate, inFlight⟩ := run_drop r ⟨some .pool⟩ (t.askRate r now).2
    rw [asked, rate, inFlight, PoolState.asked_askRate rated', PoolState.rate_askRate rated',
      PoolState.inFlight_askRate, ← entered, PoolState.asked_enter, PoolState.inFlight_enter, empty]
    exact ⟨rfl, rfl, rfl⟩

theorem visits_in_turn (pool : Pool τ) (times : ι → Instant) (turns : List ι)
    (once : turns.Nodup) {threads : ι → Program (PoolState ι) Unit}
    (waiting : ∀ r ∈ turns, threads r = visit pool r (times r)) {s : PoolState ι}
    {bucket : TokenBucket} (rated : s.rate = some bucket) (empty : s.inFlight .pool = 0) :
    ∃ c : Crowd ι (PoolState ι) Unit, Crowd.Steps Around ⟨threads, s⟩ c ∧
      c.state.asked.map (·.now) = s.asked.map (·.now) ++ turns.map times := by
  induction turns generalizing threads s bucket with
  | nil => exact ⟨_, .refl, (List.append_nil _).symm⟩
  | cons r rest ih =>
    obtain ⟨asked, next, left⟩ := run_visit pool r (times r) rated empty
    have first := Crowd.steps_run Around threads s r
    rw [waiting r List.mem_cons_self] at first
    obtain ⟨new, once⟩ := List.nodup_cons.mp once
    have still : ∀ q ∈ rest, Function.update threads r
        (.ret ((visit pool r (times r)).run s).1) q = visit pool q (times q) := by
      intro q member
      have other : q ≠ r := by
        rintro rfl
        exact new member
      rw [Function.update_of_ne other]
      exact waiting q (List.mem_cons_of_mem _ member)
    obtain ⟨c, steps, times⟩ := ih once still next left
    refine ⟨c, first.trans steps, ?_⟩
    rw [times, asked]
    simp

theorem visits_keep {inv : PoolState ι → Prop}
    (kept : ∀ r s s', Moved pool r s s' → inv s → inv s')
    (around : ∀ s s', Around s s' → inv s → inv s') (times : ι → Instant)
    {status : HandleId → HealthStatus} {unknownIsSelectable : Bool} {random : UInt64}
    (initial : inv (.new pool status unknownIsSelectable random))
    {c : Crowd ι (PoolState ι) Unit} (steps : Crowd.Steps Around
      (visits pool times (.new pool status unknownIsSelectable random)) c) :
    inv c.state ∧ ∀ r, (c.threads r).Obeys (ledgerOf r) (Moved pool r)
      (fun s => (s.ledger r).Lives pool) (fun _ s => ∃ answers, (s.ledger r).Books answers [])
      c.state := by
  have fresh : ∀ r, Entry.Books ((visits pool times
      (.new pool status unknownIsSelectable random)).state.ledger (r : ι)) [] [] := fun r =>
    ⟨rfl, fun _ => rfl, by simp [visits, PoolState.new], by simp⟩
  have apart : ∀ (i j : ι) s s', i ≠ j → Moved pool i s s' → (ledgerOf j).may s s' :=
    fun i j s s' other moved => moved.others (Ne.symm other)
  have allowed : ∀ s s', Around s s' → inv s → (∀ i : ι, (ledgerOf i).may s s') ∧ inv s' :=
    fun s s' moved held => ⟨fun i => congrFun moved.ledger i, around s s' moved held⟩
  exact Crowd.sound allowed apart kept initial
    (fun r => accounts_visit (times r) (fresh r) rfl _ rfl) steps

variable [Fintype ι]

/-- At every moment of the visits the books balance, the rate has answered as a
    bucket of its own, and the requests that have left hold nothing. -/
theorem visits_sound (rated : pool.rate = some rate)
    (times : ι → Instant) {status : HandleId → HealthStatus} {unknownIsSelectable : Bool}
    {random : UInt64} {c : Crowd ι (PoolState ι) Unit}
    (steps : Crowd.Steps Around
      (visits pool times (.new pool status unknownIsSelectable random)) c) :
    Balanced c.state ∧ Metered rate c.state ∧
      ∀ r, c.threads r = .ret () → ∃ answers, (c.state.ledger r).Books answers [] := by
  have kept : ∀ (i : ι) s s', Moved pool i s s' → Balanced s ∧ Metered rate s →
      Balanced s' ∧ Metered rate s' :=
    fun i s s' moved held => ⟨moved.balanced held.1, moved.metered held.2⟩
  have around : ∀ s s' : PoolState ι, Around s s' → Balanced s ∧ Metered rate s →
      Balanced s' ∧ Metered rate s' := by
    intro s s' around held
    refine ⟨around.balanced held.1, held.2.keeps around.rate around.asked ?_⟩
    intro q _
    rw [around.ledger]
  obtain ⟨⟨balanced, metered⟩, threads⟩ := visits_keep kept around times
    ⟨balanced_new .., metered_new rated ..⟩ steps
  refine ⟨balanced, metered, ?_⟩
  intro r returned
  have ended := threads r
  rw [returned] at ended
  exact ended.now

/-- A pool of one backend that admits this many requests a second. -/
def Pool.rated (rate : NonZeroU32) : Pool Scheme :=
  ⟨['p'], .roundRobin, [⟨['h'], 80, 1⟩], .http, [0], [], true, none, some rate⟩

/-- Two requests about to come at once to a pool that admits one a second. -/
def twoComing : Crowd (Fin 2) (PoolState (Fin 2)) Unit :=
  visits (.rated ⟨1, one_ne_zero_u32⟩) (fun _ => ⟨0, clockRange_pos⟩)
    (.new (.rated ⟨1, one_ne_zero_u32⟩) (fun _ => .unknown) true 0)

/-- The two requests after both have left. -/
def twoGone : Crowd (Fin 2) (PoolState (Fin 2)) Unit :=
  let first := (twoComing.threads 0).run twoComing.state
  let threads := Function.update twoComing.threads 0 (.ret first.1)
  let second := (threads 1).run first.2
  ⟨Function.update threads 1 (.ret second.1), second.2⟩

theorem steps_twoGone : Crowd.Steps Around twoComing twoGone :=
  (Crowd.steps_run Around twoComing.threads twoComing.state 0).trans
    (Crowd.steps_run Around _ _ 1)

theorem asked_twoGone : twoGone.state.asked =
    [⟨0, ⟨0, by decide⟩, true⟩] ++ ⟨1, ⟨0, by decide⟩, false⟩ :: [] := by
  decide +kernel

/-- The rate of a pool refuses a request only if a second's worth of requests was
    admitted in the second before it; it answers as a bucket that no request
    refused for want of a place ever asked; and the places taken are those of
    requests under way, a request refused under the rate keeping none. -/
theorem rate_refuses_after_quota {pool : Pool τ} {rate : NonZeroU32}
    (rated : pool.rate = some rate) (times : ι → Instant) {status : HandleId → HealthStatus}
    {unknownIsSelectable : Bool} {random : UInt64} {c : Crowd ι (PoolState ι) Unit}
    (steps : Crowd.Steps Around
      (visits pool times (.new pool status unknownIsSelectable random)) c)
    (ordered : (c.state.asked.map (·.now)).Pairwise (· ≤ ·)) :
    (∀ before refused after, c.state.asked = before ++ refused :: after →
        refused.permitted = false → rate.val.toNat ≤ (before.filter fun asked =>
          asked.permitted && decide (refused.now.nanos < asked.now.nanos + oneSecond)).length) ∧
      (c.state.asked.map (·.permitted) =
          ((TokenBucket.new rate rate).run (c.state.asked.map (·.now))).1 ∧
        ∀ r, .error .maxInFlight ∈ (c.state.ledger r).answers →
          ∀ asked ∈ c.state.asked, asked.request ≠ r) ∧
      c.state.inFlight .pool =
          (Finset.univ.filter fun r => (c.state.ledger r).place.isSome).card ∧
        ∀ r, c.threads r = .ret () →
          .error .maxRequestsPerSecond ∈ (c.state.ledger r).answers →
          (c.state.ledger r).place = none := by
  obtain ⟨balanced, metered, left⟩ := visits_sound rated times steps
  refine ⟨?_, ⟨metered.answers, ?_⟩, balanced.places.count, ?_⟩
  · intro before refused after part denied
    rw [List.append_cons] at part
    have calls := metered.calls part ordered
    rw [List.map_append, List.map_singleton, Asked.call, denied] at calls
    have enough := calls.refused
    rwa [List.filter_map, List.length_map] at enough
  · rintro r full asked member rfl
    rw [metered.noted asked member] at full
    split at full <;> simp at full
  · intro r returned _
    obtain ⟨answers, books⟩ := left r returned
    simpa using books.placed

/-- At one request a second, the second of two at once is refused, and one was
    admitted. -/
theorem rate_refuses_second_request :
    1 ≤ ((twoGone.state.asked.take 1).filter fun asked =>
      asked.permitted && decide (0 < asked.now.nanos + oneSecond)).length := by
  have ordered : (twoGone.state.asked.map (·.now)).Pairwise (· ≤ ·) := by
    rw [asked_twoGone]
    decide
  have enough := (rate_refuses_after_quota rfl _ steps_twoGone ordered).1 _ _ _ asked_twoGone rfl
  rw [asked_twoGone]
  exact enough

/-- More than a second's worth of requests is admitted within a second, if a
    second's worth is more than one. -/
theorem burst_admitted (pool : Pool τ) (rated : pool.rate = some rate)
    (twice : 2 ≤ rate.val.toNat) (status : HandleId → HealthStatus) (unknownIsSelectable : Bool)
    (random : UInt64) :
    ∃ (times : Fin (rate.val.toNat + 1) → Instant) (c : Crowd _ _ Unit),
      Crowd.Steps Around (visits pool times (.new pool status unknownIsSelectable random)) c ∧
      (c.state.asked.map (·.now)).Pairwise (· ≤ ·) ∧
      (c.state.asked.filter fun asked => asked.permitted &&
        decide (0 ≤ asked.now.nanos ∧ asked.now.nanos < 0 + oneSecond)).length =
          rate.val.toNat + 1 := by
  let start : Instant := ⟨0, by decide⟩
  let later : Instant := ⟨oneSecond - 1, by decide⟩
  let times : Fin (rate.val.toNat + 1) → Instant := fun r =>
    if r.val < rate.val.toNat then start else later
  have burst : Calls rate.val (List.replicate rate.val.toNat (start, true) ++ [(later, true)]) :=
    Calls.burst twice (Nat.zero_add _).symm
  have turns : (List.finRange (rate.val.toNat + 1)).map times =
      (List.replicate rate.val.toNat (start, true) ++ [(later, true)]).map Prod.fst := by
    have all : (List.finRange rate.val.toNat).map (times ∘ Fin.castSucc) =
        List.replicate rate.val.toNat start := by
      refine List.eq_replicate_iff.mpr ⟨by simp, ?_⟩
      intro now member
      obtain ⟨r, _, rfl⟩ := List.mem_map.mp member
      exact if_pos r.isLt
    have last : times (Fin.last _) = later := if_neg (lt_irrefl _)
    rw [List.finRange_succ_last, List.map_append, List.map_map, all, List.map_singleton, last]
    simp
  have start_rated : (PoolState.new pool status unknownIsSelectable random :
      PoolState (Fin (rate.val.toNat + 1))).rate = some (.new rate rate) := by
    simp only [PoolState.new, rated]
    rfl
  have waiting : ∀ r ∈ List.finRange (rate.val.toNat + 1),
      (fun r => visit pool r (times r)) r = visit pool r (times r) := fun _ _ => rfl
  obtain ⟨c, steps, now⟩ :=
    visits_in_turn pool times _ (List.nodup_finRange _) waiting start_rated rfl
  have metered := (visits_sound rated times steps).2.1
  replace now : c.state.asked.map (·.now) = _ := now.trans turns
  have answers := metered.answers
  rw [now, ((TokenBucket.new rate rate).run_eq _).1] at answers
  replace answers : c.state.asked.map (·.permitted) = _ := answers.trans burst.answers.symm
  have calls : c.state.asked.map Asked.call =
      List.replicate rate.val.toNat (start, true) ++ [(later, true)] := by
    have zipped : ∀ calls : List (Instant × Bool),
        List.zip (calls.map Prod.fst) (calls.map Prod.snd) = calls := by
      intro calls
      simp [List.zip_map']
    rw [← zipped (_ ++ _), ← now, ← answers, List.zip_map']
    rfl
  refine ⟨times, c, steps, ?_, ?_⟩
  · rw [now]
    exact List.pairwise_map.mpr burst.ordered
  · rw [List.filter_eq_self.mpr, ← List.length_map Asked.call, calls]
    · simp
    · intro asked member
      have call : asked.call ∈ c.state.asked.map Asked.call := List.mem_map_of_mem member
      rw [calls] at call
      simp only [Asked.call, List.mem_append, List.mem_replicate, List.mem_singleton,
        Prod.mk.injEq] at call
      rcases call with ⟨_, now, permitted⟩ | ⟨now, permitted⟩ <;>
        · rw [now, permitted]
          decide

/-- The requests admitted in any second number at most the rate, in every
    interleaving of visits that ask the rate in the order of their times, exactly
    if the rate is one request a second. -/
theorem rate_bounds_every_second_iff (pool : Pool τ) {rate : NonZeroU32}
    (rated : pool.rate = some rate) (status : HandleId → HealthStatus)
    (unknownIsSelectable : Bool) (random : UInt64) :
    (∀ (n : Nat) (times : Fin n → Instant) (c : Crowd (Fin n) (PoolState (Fin n)) Unit),
        Crowd.Steps Around (visits pool times (.new pool status unknownIsSelectable random)) c →
        (c.state.asked.map (·.now)).Pairwise (· ≤ ·) →
        ∀ start : Nat, (c.state.asked.filter fun asked => asked.permitted &&
          decide (start ≤ asked.now.nanos ∧ asked.now.nanos < start + oneSecond)).length ≤
            rate.val.toNat) ↔
      rate.val = 1 := by
  have one : rate.val = 1 ↔ rate.val.toNat = 1 := UInt32.toNat_inj.symm
  rw [one]
  constructor
  · intro bounded
    by_contra other
    have twice : 2 ≤ rate.val.toNat := by
      have positive := toNat_pos rate
      omega
    obtain ⟨times, c, steps, ordered, admitted⟩ :=
      burst_admitted pool rated twice status unknownIsSelectable random
    have within := bounded _ times c steps ordered 0
    omega
  · intro once n times c steps ordered start
    have metered := (visits_sound rated times steps).2.1
    have calls := metered.calls (List.append_nil _).symm ordered
    have below := calls.window (toNat_pos rate) start
    rw [List.filter_map, List.length_map] at below
    exact Nat.le_of_lt_succ (below.trans_le (by omega))

/-- At one request a second, the second in which two came saw one admitted. -/
theorem rate_of_one_bounds_second :
    (twoGone.state.asked.filter fun asked => asked.permitted &&
      decide (0 ≤ asked.now.nanos ∧ asked.now.nanos < 0 + oneSecond)).length ≤ 1 := by
  have ordered : (twoGone.state.asked.map (·.now)).Pairwise (· ≤ ·) := by
    rw [asked_twoGone]
    decide
  have bounded := (rate_bounds_every_second_iff (.rated ⟨1, by decide⟩) rfl (fun _ => .unknown)
    true 0).mpr rfl
  exact bounded 2 _ twoGone steps_twoGone ordered 0

/-- At two requests a second, three are admitted within one. -/
theorem rate_of_two_admits_three :
    ∃ (times : Fin 3 → Instant) (c : Crowd (Fin 3) (PoolState (Fin 3)) Unit),
      Crowd.Steps Around (visits (.rated ⟨2, by decide⟩) times
        (.new (.rated ⟨2, by decide⟩) (fun _ => .unknown) true 0)) c ∧
      (c.state.asked.map (·.now)).Pairwise (· ≤ ·) ∧
      2 < (c.state.asked.filter fun asked => asked.permitted &&
        decide (0 ≤ asked.now.nanos ∧ asked.now.nanos < 0 + oneSecond)).length := by
  obtain ⟨times, c, steps, ordered, admitted⟩ :=
    burst_admitted (Pool.rated ⟨2, by decide⟩) rfl (by decide) (fun _ => .unknown) true 0
  exact ⟨times, c, steps, ordered, lt_of_lt_of_eq (show 2 < UInt32.toNat 2 + 1 by decide)
    admitted.symm⟩

end Gfe
