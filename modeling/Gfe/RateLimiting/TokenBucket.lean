import Gfe.Config.Types
import Gfe.Lib.Bucket

/-! # Token buckets

So many permits a second, of which a burst may be taken at once. The bucket has
no clock: every call says what time it is. What it holds is kept in billionths
of a permit, so that a nanosecond at a rate of one permit a second earns one.
Machine arithmetic is written out: a product or sum is taken modulo the range of
its type, and `Level.Exact` says that none of them leaves it.
-/

namespace Gfe

/-- The range of a clock: `2 ^ 64` seconds, in nanoseconds. -/
def clockRange : Nat := 2 ^ 64 * 10 ^ 9

theorem clockRange_pos : 0 < clockRange := by decide

/-- A reading of a clock. -/
@[ext] structure Instant where
  nanos : Nat
  inRange : nanos < clockRange
  deriving DecidableEq, Repr

namespace Instant

instance : LE Instant := ⟨fun a b => a.nanos ≤ b.nanos⟩

instance (a b : Instant) : Decidable (a ≤ b) := inferInstanceAs (Decidable (a.nanos ≤ b.nanos))

theorem le_def {a b : Instant} : a ≤ b ↔ a.nanos ≤ b.nanos := .rfl

/-- `saturating_duration_since`, in nanoseconds. -/
def since (now earlier : Instant) : Nat := now.nanos - earlier.nanos

end Instant

def unitsPerPermit : Nat := 1000000000

/-- Why no permit was given. -/
structure RateLimited where
  perSecond : UInt32
  burst : UInt32
  deriving DecidableEq, Repr

/-! ## Levels -/

structure Level where
  /-- Permits held, in billionths. -/
  units : Nat
  /-- When it was last refilled, if it was ever asked. -/
  refilledAt : Option Instant
  deriving DecidableEq, Repr

/-- The time between the last refill and now. -/
def elapsed (refilledAt : Option Instant) (now : Instant) : Nat :=
  match refilledAt with
  | none => 0
  | some earlier => now.since earlier

def latest (refilledAt : Option Instant) (now : Instant) : Instant :=
  match refilledAt with
  | none => now
  | some earlier => if now ≤ earlier then earlier else now

namespace Level

def full (burst : UInt32) : Level := ⟨burst.toNat * unitsPerPermit % 2 ^ 64, none⟩

def refill (level : Level) (now : Instant) (perSecond burst : UInt32) : Level :=
  let full := burst.toNat * unitsPerPermit % 2 ^ 64
  let earned := elapsed level.refilledAt now * perSecond.toNat % 2 ^ 128
  let units := (level.units + earned) % 2 ^ 128
  { units := if units < 2 ^ 64 then min units full else full
    refilledAt := some (latest level.refilledAt now) }

def take (level : Level) (now : Instant) (perSecond burst : UInt32) :
    Except RateLimited Unit × Level :=
  let level := level.refill now perSecond burst
  if unitsPerPermit ≤ level.units then
    (.ok (), { level with units := level.units - unitsPerPermit })
  else (.error ⟨perSecond, burst⟩, level)

def isFull (level : Level) (burst : UInt32) : Bool :=
  level.units == burst.toNat * unitsPerPermit % 2 ^ 64

/-- The exact results of the arithmetic of a refill are in the range of their
    types. -/
structure Exact (level : Level) (now : Instant) (perSecond burst : UInt32) : Prop where
  full : burst.toNat * unitsPerPermit < 2 ^ 64
  earned : elapsed level.refilledAt now * perSecond.toNat < 2 ^ 128
  units : level.units + elapsed level.refilledAt now * perSecond.toNat < 2 ^ 128

def capacity (burst : UInt32) : Nat := burst.toNat * unitsPerPermit

/-- What the levels of a bucket have in common. -/
structure Valid (burst : UInt32) (level : Level) : Prop where
  bounded : level.units ≤ capacity burst
  fresh : level.refilledAt = none → level.units = capacity burst

theorem capacity_lt (burst : UInt32) : capacity burst < 2 ^ 64 := by
  have bound := burst.toNat_lt
  simp only [capacity, unitsPerPermit]
  omega

theorem capacity_mod (burst : UInt32) :
    burst.toNat * unitsPerPermit % 2 ^ 64 = capacity burst :=
  Nat.mod_eq_of_lt (capacity_lt burst)

theorem full_valid (burst : UInt32) : (full burst).Valid burst :=
  ⟨(capacity_mod burst).le, fun _ => capacity_mod burst⟩

variable {level : Level} {perSecond burst : UInt32}

theorem elapsed_lt (refilledAt : Option Instant) (now : Instant) :
    elapsed refilledAt now < clockRange := by
  have within := now.inRange
  cases refilledAt with
  | none => exact (Nat.zero_le _).trans_lt within
  | some earlier => exact (Nat.sub_le ..).trans_lt within

/-- No refill of a valid level overflows: `2 ^ 64` seconds at a rate of `2 ^ 32`
    are less than `2 ^ 126` units. -/
theorem Valid.exact (valid : level.Valid burst) (now : Instant) (perSecond : UInt32) :
    level.Exact now perSecond burst := by
  have held := valid.bounded.trans_lt (capacity_lt burst)
  have earned : elapsed level.refilledAt now * perSecond.toNat ≤ clockRange * 2 ^ 32 :=
    Nat.mul_le_mul (elapsed_lt ..).le perSecond.toNat_lt.le
  have range : clockRange * 2 ^ 32 + 2 ^ 64 < 2 ^ 128 := by decide
  exact ⟨capacity_lt burst, by omega, by omega⟩

theorem Valid.refill_eq (valid : level.Valid burst) (now : Instant) (perSecond : UInt32) :
    level.refill now perSecond burst =
      ⟨Bucket.earn (capacity burst) level.units (elapsed level.refilledAt now * perSecond.toNat),
        some (latest level.refilledAt now)⟩ := by
  have exact := valid.exact now perSecond
  have capped := capacity_lt burst
  simp only [refill, capacity_mod, Nat.mod_eq_of_lt exact.earned, Nat.mod_eq_of_lt exact.units,
    Bucket.earn, Level.mk.injEq, and_true]
  split <;> omega

theorem valid_of_le {units : Nat} (within : units ≤ capacity burst) (now : Instant) :
    (⟨units, some now⟩ : Level).Valid burst :=
  ⟨within, nofun⟩

theorem Valid.refill (valid : level.Valid burst) (now : Instant) (perSecond : UInt32) :
    (level.refill now perSecond burst).Valid burst := by
  rw [valid.refill_eq]
  exact valid_of_le (Bucket.earn_le ..) _

/-- A call is an ask of a capped account. -/
theorem Valid.take_eq (valid : level.Valid burst) (now : Instant) (perSecond : UInt32)
    {asked : Bool × Nat} (ask : Bucket.ask (capacity burst) unitsPerPermit level.units
      (elapsed level.refilledAt now * perSecond.toNat) = asked) :
    level.take now perSecond burst =
      (if asked.1 then .ok () else .error ⟨perSecond, burst⟩,
        ⟨asked.2, some (latest level.refilledAt now)⟩) := by
  subst ask
  simp only [take, valid.refill_eq, Bucket.ask]
  split <;> simp

theorem Valid.take (valid : level.Valid burst) (now : Instant) (perSecond : UInt32) :
    (level.take now perSecond burst).2.Valid burst := by
  rw [valid.take_eq now perSecond rfl]
  exact valid_of_le (Bucket.ask_le ..) _

theorem nanos_latest (earlier now : Instant) :
    (latest (some earlier) now).nanos = max earlier.nanos now.nanos := by
  simp only [latest, Instant.le_def]
  split <;> omega

theorem latest_of_le {earlier now : Instant} (order : now ≤ earlier) :
    latest (some earlier) now = earlier := if_pos order

theorem Valid.refill_seen (valid : level.Valid burst) {seen now : Instant}
    (refilled : level.refilledAt = some seen) (before : now ≤ seen) (perSecond : UInt32) :
    level.refill now perSecond burst = level := by
  have none : now.since seen = 0 := Nat.sub_eq_zero_of_le before
  rw [valid.refill_eq, refilled, latest_of_le before, ← refilled]
  simp only [refilled, elapsed, none, Nat.zero_mul, Bucket.earn_zero valid.bounded]
  rw [← refilled]

theorem Valid.refill_refill (valid : level.Valid burst) {now later : Instant} (order : now ≤ later)
    (perSecond : UInt32) :
    (level.refill now perSecond burst).refill later perSecond burst =
      level.refill later perSecond burst := by
  rw [Instant.le_def] at order
  rw [(valid.refill now perSecond).refill_eq, valid.refill_eq, valid.refill_eq]
  simp only [Bucket.earn_earn, ← Nat.add_mul, Level.mk.injEq, Option.some.injEq, Instant.ext_iff,
    nanos_latest]
  cases refilled : level.refilledAt with
  | none =>
    -- A level that was never asked is full, whatever it earns.
    simp only [valid.fresh refilled, Bucket.earn_full, latest, max_eq_right order, and_self]
  | some earlier =>
    have total : elapsed (some earlier) now +
        elapsed (some (latest (some earlier) now)) later = elapsed (some earlier) later := by
      simp only [elapsed, Instant.since, nanos_latest]
      omega
    simp only [total, nanos_latest, true_and]
    omega

end Level

/-! ## What time earns -/

/-- The largest time seen after these calls. -/
def latestAfter (refilledAt : Option Instant) (calls : List Instant) : Option Instant :=
  calls.foldl (fun seen now => some (latest seen now)) refilledAt

/-- By how much these calls advance the largest time seen. The first time ever
    seen is where it starts. -/
def advance (refilledAt : Option Instant) (calls : List Instant) : Nat :=
  match refilledAt.or calls.head?, latestAfter refilledAt calls with
  | some start, some last => last.since start
  | _, _ => 0

/-- What each of these calls earns, in units. -/
def gains (perSecond : UInt32) (refilledAt : Option Instant) : List Instant → List Nat
  | [] => []
  | now :: later =>
    elapsed refilledAt now * perSecond.toNat ::
      gains perSecond (some (latest refilledAt now)) later

theorem latestAfter_some (start : Instant) (calls : List Instant) :
    ∃ last, latestAfter (some start) calls = some last ∧ start ≤ last := by
  induction calls generalizing start with
  | nil => exact ⟨start, rfl, le_refl start.nanos⟩
  | cons now later ih =>
    obtain ⟨last, reached, after⟩ := ih (latest (some start) now)
    refine ⟨last, reached, ?_⟩
    simp only [Instant.le_def, Level.nanos_latest] at after ⊢
    omega

theorem le_latestAfter (refilledAt : Option Instant) {calls : List Instant} {seen : Instant}
    (member : seen ∈ calls) : ∃ last, latestAfter refilledAt calls = some last ∧ seen ≤ last := by
  induction calls generalizing refilledAt with
  | nil => cases member
  | cons now later ih =>
    rcases List.mem_cons.mp member with rfl | member
    · obtain ⟨last, reached, after⟩ := latestAfter_some (latest refilledAt seen) later
      refine ⟨last, reached, Nat.le_trans ?_ after⟩
      cases refilledAt with
      | none => exact Nat.le_refl _
      | some earlier =>
        rw [Level.nanos_latest]
        omega
    · exact ih (some (latest refilledAt now)) member

theorem advance_some {start last : Instant} {calls : List Instant}
    (reached : latestAfter (some start) calls = some last) :
    advance (some start) calls = last.since start := by
  simp [advance, reached]

theorem sum_gains (perSecond : UInt32) (refilledAt : Option Instant) (calls : List Instant) :
    (gains perSecond refilledAt calls).sum = advance refilledAt calls * perSecond.toNat := by
  induction calls generalizing refilledAt with
  | nil =>
    cases refilledAt with
    | none => simp [gains, advance]
    | some start => simp [gains, advance, latestAfter, Instant.since]
  | cons now later ih =>
    have next : latestAfter refilledAt (now :: later) =
        latestAfter (some (latest refilledAt now)) later := rfl
    obtain ⟨last, reached, after⟩ := latestAfter_some (latest refilledAt now) later
    rw [gains, List.sum_cons, ih, advance_some reached, ← Nat.add_mul]
    congr 1
    cases refilledAt with
    | none =>
      have first : latest none now = now := rfl
      rw [first] at next reached ⊢
      simp [elapsed, advance, next, reached]
    | some start =>
      rw [advance_some (next.trans reached)]
      simp only [Instant.le_def, elapsed, Instant.since, Level.nanos_latest] at after ⊢
      omega

/-- A series of calls at these times: whether each got a permit, and the level
    afterwards. -/
def Level.takes (perSecond burst : UInt32) (level : Level) : List Instant → List Bool × Level
  | [] => ([], level)
  | now :: later =>
    let first := level.take now perSecond burst
    let rest := takes perSecond burst first.2 later
    (first.1.isOk :: rest.1, rest.2)

namespace Level

variable {level : Level} {perSecond burst : UInt32}

theorem Valid.takes_eq (valid : level.Valid burst) (calls : List Instant) :
    (level.takes perSecond burst calls).1 = (Bucket.asks (capacity burst) unitsPerPermit
        level.units (gains perSecond level.refilledAt calls)).1 ∧
      (level.takes perSecond burst calls).2.units = (Bucket.asks (capacity burst) unitsPerPermit
        level.units (gains perSecond level.refilledAt calls)).2 := by
  induction calls generalizing level with
  | nil => exact ⟨rfl, rfl⟩
  | cons now later ih =>
    generalize ask : Bucket.ask (capacity burst) unitsPerPermit level.units
      (elapsed level.refilledAt now * perSecond.toNat) = asked
    have within : asked.2 ≤ capacity burst := ask ▸ Bucket.ask_le ..
    have rest := ih (valid_of_le within (latest level.refilledAt now))
    rw [takes, valid.take_eq now perSecond ask, gains, Bucket.asks_cons, ask]
    obtain ⟨answer, left⟩ := asked
    cases answer <;> exact ⟨congrArg _ rest.1, rest.2⟩

theorem Valid.takes (valid : level.Valid burst) (calls : List Instant) :
    (level.takes perSecond burst calls).2.Valid burst := by
  induction calls generalizing level with
  | nil => exact valid
  | cons now later ih => exact ih (valid.take now perSecond)

theorem Valid.takes_refilledAt (valid : level.Valid burst) (calls : List Instant) :
    (level.takes perSecond burst calls).2.refilledAt = latestAfter level.refilledAt calls := by
  induction calls generalizing level with
  | nil => rfl
  | cons now later ih =>
    rw [Level.takes, ih (valid.take now perSecond), valid.take_eq now perSecond rfl]
    rfl

theorem Valid.paid_takes_le (valid : level.Valid burst) (perSecond : UInt32)
    (calls : List Instant) :
    Bucket.paid (level.takes perSecond burst calls).1 ≤
      burst.toNat + advance level.refilledAt calls * perSecond.toNat / unitsPerPermit := by
  have spent := Bucket.asks_le_earned (capacity burst) unitsPerPermit level.units
    (gains perSecond level.refilledAt calls)
  have held := valid.bounded
  rw [← (valid.takes_eq calls).1, ← (valid.takes_eq calls).2, sum_gains] at spent
  have permit : 0 < unitsPerPermit := by decide
  rw [← Nat.mul_add_div permit, Nat.le_div_iff_mul_le permit, Nat.mul_comm unitsPerPermit]
  simp only [capacity] at held
  omega

end Level

/-! ## Buckets -/

structure TokenBucket where
  perSecond : NonZeroU32
  burst : NonZeroU32
  level : Level
  valid : level.Valid burst

namespace TokenBucket

/-- It starts full. -/
def new (perSecond burst : NonZeroU32) : TokenBucket :=
  ⟨perSecond, burst, .full burst, Level.full_valid burst⟩

def tryAcquire (bucket : TokenBucket) (now : Instant) : Except RateLimited Unit × TokenBucket :=
  ((bucket.level.take now bucket.perSecond bucket.burst).1,
    { bucket with
      level := (bucket.level.take now bucket.perSecond bucket.burst).2
      valid := bucket.valid.take now bucket.perSecond })

/-- A series of calls at these times: whether each got a permit, and the bucket
    afterwards. -/
def run (bucket : TokenBucket) : List Instant → List Bool × TokenBucket
  | [] => ([], bucket)
  | now :: later =>
    let first := bucket.tryAcquire now
    let rest := first.2.run later
    (first.1.isOk :: rest.1, rest.2)

theorem run_eq (bucket : TokenBucket) (calls : List Instant) :
    (bucket.run calls).1 = (bucket.level.takes bucket.perSecond bucket.burst calls).1 ∧
      (bucket.run calls).2.level =
        (bucket.level.takes bucket.perSecond bucket.burst calls).2 ∧
      (bucket.run calls).2.perSecond = bucket.perSecond ∧
      (bucket.run calls).2.burst = bucket.burst := by
  induction calls generalizing bucket with
  | nil => exact ⟨rfl, rfl, rfl, rfl⟩
  | cons now later ih =>
    obtain ⟨answers, level, perSecond, burst⟩ := ih (bucket.tryAcquire now).2
    exact ⟨congrArg _ answers, level, perSecond, burst⟩

end TokenBucket

/-- After any calls of a bucket, at any times: it holds no more than its burst
    and the next call computes without overflow; a further series of calls gives
    at most the burst and what the clock earned while it advanced; a time no
    later than one seen before changes nothing; and refilling on the way to a
    later time is refilling at that time. -/
theorem tokenBucket_accounts (perSecond burst : NonZeroU32) (before : List Instant) :
    let bucket := ((TokenBucket.new perSecond burst).run before).2
    bucket.level.units ≤ burst.val.toNat * unitsPerPermit ∧
      (∀ now, bucket.level.Exact now perSecond burst) ∧
      (∀ calls, Bucket.paid (bucket.run calls).1 ≤ burst.val.toNat +
        perSecond.val.toNat * advance (latestAfter none before) calls / 10 ^ 9) ∧
      (∀ now, (∃ seen ∈ before, now ≤ seen) →
        bucket.level.refill now perSecond burst = bucket.level) ∧
      ∀ first second, first ≤ second →
        (bucket.level.refill first perSecond burst).refill second perSecond burst =
          bucket.level.refill second perSecond burst := by
  intro bucket
  have started := TokenBucket.run_eq (.new perSecond burst) before
  have level : bucket.level = _ := started.2.1
  have rate : bucket.perSecond = perSecond := started.2.2.1
  have size : bucket.burst = burst := started.2.2.2
  have valid : bucket.level.Valid burst := size ▸ bucket.valid
  have refilled : bucket.level.refilledAt = latestAfter none before := by
    rw [level]
    exact (Level.full_valid burst).takes_refilledAt before
  refine ⟨valid.bounded, fun now => valid.exact now perSecond, ?_, ?_, ?_⟩
  · intro calls
    have paid := valid.paid_takes_le perSecond calls
    rw [refilled, Nat.mul_comm] at paid
    rw [(bucket.run_eq calls).1, rate, size]
    exact paid
  · rintro now ⟨seen, member, order⟩
    obtain ⟨last, reached, after⟩ := le_latestAfter none member
    exact valid.refill_seen (refilled.trans reached) (Nat.le_trans order after) perSecond
  · intro first second order
    exact valid.refill_refill order perSecond

/-- A clock that steps back by two nanoseconds. -/
theorem tokenBucket_ignores_step_back :
    let bucket := ((TokenBucket.new ⟨3, by decide⟩ ⟨2, by decide⟩).run [⟨5, by decide⟩]).2
    bucket.level.refill ⟨3, by decide⟩ 3 2 = bucket.level :=
  (tokenBucket_accounts ⟨3, by decide⟩ ⟨2, by decide⟩ [⟨5, by decide⟩]).2.2.2.1 ⟨3, by decide⟩
    ⟨⟨5, by decide⟩, List.mem_singleton_self _, by decide⟩

end Gfe
