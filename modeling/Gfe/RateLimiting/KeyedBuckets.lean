import Gfe.Lib.HashMap
import Gfe.RateLimiting.TokenBucket

/-! # Token buckets by key

A table of levels, one for every key that makes a difference. A level that is
full again is the level of a key never seen, so when the table is full such keys
are forgotten; a new key that finds no room is let through uncounted. Seen from
a key, none of this shows: it has a bucket of its own.
-/

namespace Gfe

variable {now : Instant}

structure Table (κ : Type) where
  levels : HashMap κ Level
  /-- When keys to forget were last looked for. -/
  sweptAt : Option Instant
  untracked : Nat

structure KeyedBuckets (κ : Type) where
  perSecond : NonZeroU32
  burst : NonZeroU32
  capacity : Nat
  nonzero : capacity ≠ 0
  table : Table κ

/-- How long a full table waits before looking again: a second. -/
def sweepInterval : Nat := 1000000000

namespace KeyedBuckets

variable {κ : Type}

def new (perSecond burst : NonZeroU32) (capacity : Nat) (nonzero : capacity ≠ 0) :
    KeyedBuckets κ :=
  ⟨perSecond, burst, capacity, nonzero, ⟨∅, none, 0⟩⟩

def lookedRecently (table : Table κ) (now : Instant) : Bool :=
  match table.sweptAt with
  | some earlier => decide (now.since earlier < sweepInterval)
  | none => false

/-- Forget the keys whose level is full, unless that was done a moment ago. -/
def forgetIdle (buckets : KeyedBuckets κ) (now : Instant) : Table κ :=
  let table := buckets.table
  if lookedRecently table now then table
  else { table with
    sweptAt := some now
    levels := (table.levels.mapValues (·.refill now buckets.perSecond buckets.burst)).retain
      fun _ level => !level.isFull buckets.burst }

def len (buckets : KeyedBuckets κ) : Nat := buckets.table.levels.entries.length

theorem forgetIdle_levels (buckets : KeyedBuckets κ) (now : Instant) :
    (buckets.forgetIdle now).levels = buckets.table.levels ∨
      (buckets.forgetIdle now).levels =
        (buckets.table.levels.mapValues (·.refill now buckets.perSecond buckets.burst)).retain
          fun _ level => !level.isFull buckets.burst := by
  unfold forgetIdle
  dsimp only
  split
  · exact .inl rfl
  · exact .inr rfl

theorem forgetIdle_untracked (buckets : KeyedBuckets κ) (now : Instant) :
    (buckets.forgetIdle now).untracked = buckets.table.untracked := by
  unfold forgetIdle
  dsimp only
  split <;> rfl

theorem forgetIdle_length (buckets : KeyedBuckets κ) (now : Instant) :
    (buckets.forgetIdle now).levels.entries.length ≤ buckets.len := by
  rcases buckets.forgetIdle_levels now with same | swept
  · rw [same]
    exact Nat.le_refl _
  · rw [swept]
    refine (List.length_filter_le ..).trans ?_
    rw [HashMap.mapValues, List.length_map]
    exact Nat.le_refl _

variable [DecidableEq κ]

def remember (buckets : KeyedBuckets κ) (key : κ) (level : Level) : KeyedBuckets κ :=
  { buckets with table := { buckets.table with levels := buckets.table.levels.insert key level } }

def letThrough (buckets : KeyedBuckets κ) : KeyedBuckets κ :=
  { buckets with table := { buckets.table with untracked := buckets.table.untracked + 1 } }

def tryAcquire (buckets : KeyedBuckets κ) (key : κ) (now : Instant) :
    Except RateLimited Unit × KeyedBuckets κ :=
  match buckets.table.levels.lookup key with
  | some level =>
    let taken := level.take now buckets.perSecond buckets.burst
    (taken.1, buckets.remember key taken.2)
  | none =>
    let buckets :=
      if buckets.capacity ≤ buckets.table.levels.entries.length then
        { buckets with table := buckets.forgetIdle now }
      else buckets
    if buckets.capacity ≤ buckets.table.levels.entries.length then (.ok (), buckets.letThrough)
    else
      let taken := (Level.full buckets.burst).take now buckets.perSecond buckets.burst
      (taken.1, buckets.remember key taken.2)

/-- A call that leaves its key unknown: it was let through uncounted. -/
def uncounted (buckets : KeyedBuckets κ) (key : κ) (now : Instant) : Bool :=
  ((buckets.tryAcquire key now).2.table.levels.lookup key).isNone

/-- A call with its answer, and whether it was counted. -/
structure Answered (κ : Type) where
  key : κ
  now : Instant
  permitted : Bool
  counted : Bool

/-- A series of calls: how each was answered, and the table afterwards. -/
def run (buckets : KeyedBuckets κ) : List (κ × Instant) → List (Answered κ) × KeyedBuckets κ
  | [] => ([], buckets)
  | (key, now) :: later =>
    let first := buckets.tryAcquire key now
    let rest := first.2.run later
    (⟨key, now, first.1.isOk, !buckets.uncounted key now⟩ :: rest.1, rest.2)

/-- The counted calls of one key. -/
def ofKey (answered : List (Answered κ)) (key : κ) : List (Answered κ) :=
  answered.filter fun call => call.key = key && call.counted

def held (buckets : KeyedBuckets κ) (key : κ) : Level :=
  (buckets.table.levels.lookup key).getD (.full buckets.burst)

theorem forgetIdle_lookup_none (buckets : KeyedBuckets κ) (now : Instant) {key : κ}
    (unknown : buckets.table.levels.lookup key = none) :
    (buckets.forgetIdle now).levels.lookup key = none := by
  rcases buckets.forgetIdle_levels now with same | swept
  · rw [same, unknown]
  · rw [swept, HashMap.lookup_retain, HashMap.lookup_mapValues, unknown]
    rfl

/-- The table a call works on: a full one is swept first for a new key. -/
def readied (buckets : KeyedBuckets κ) (key : κ) (now : Instant) : KeyedBuckets κ :=
  if buckets.table.levels.lookup key = none ∧ buckets.capacity ≤ buckets.len then
    { buckets with table := buckets.forgetIdle now }
  else buckets

/-- A call counts against the level of its key, or finds the table full of other
    keys. -/
theorem tryAcquire_cases (buckets : KeyedBuckets κ) (key : κ) (now : Instant) :
    let readied := buckets.readied key now
    let taken := (readied.held key).take now buckets.perSecond buckets.burst
    (buckets.tryAcquire key now = (taken.1, readied.remember key taken.2) ∧
        (readied.table.levels.lookup key = none → readied.len < buckets.capacity)) ∨
      (buckets.tryAcquire key now = (.ok (), readied.letThrough) ∧
        readied.table.levels.lookup key = none ∧ buckets.table.levels.lookup key = none ∧
        buckets.capacity ≤ buckets.len) := by
  intro readied taken
  cases known : buckets.table.levels.lookup key with
  | some level =>
    have same : readied = buckets := if_neg (by simp [known])
    left
    simp only [taken, same, tryAcquire, held, known, Option.getD_some, true_and]
    nofun
  | none =>
    by_cases full : buckets.capacity ≤ buckets.len
    · have swept : readied = { buckets with table := buckets.forgetIdle now } :=
        if_pos ⟨known, full⟩
      have gone := buckets.forgetIdle_lookup_none now known
      simp only [len] at full
      by_cases still : buckets.capacity ≤ (buckets.forgetIdle now).levels.entries.length
      · right
        simp only [swept, tryAcquire, known, full, if_true, still, gone, len, and_self]
      · left
        simp only [taken, swept, tryAcquire, known, full, if_true, still, if_false, held, gone,
          Option.getD_none, true_and, len]
        exact fun _ => Nat.lt_of_not_le still
    · have same : readied = buckets := if_neg (by simp [full])
      simp only [len] at full
      left
      simp only [taken, same, tryAcquire, known, full, if_false, held, Option.getD_none, true_and,
        len]
      exact fun _ => Nat.lt_of_not_le full

/-! ## A bucket of one's own -/

/-- From a time on, no call can tell the levels apart. -/
def Alike (perSecond burst : UInt32) (start : Nat) (a b : Level) : Prop :=
  ∀ now : Instant, start ≤ now.nanos → a.refill now perSecond burst = b.refill now perSecond burst

def RefilledBy (start : Nat) (level : Level) : Prop :=
  ∀ refilled, level.refilledAt = some refilled → refilled.nanos ≤ start

section Alike

variable {perSecond burst : UInt32} {start : Nat} {a b : Level} {now : Instant}

theorem Alike.take_eq (alike : Alike perSecond burst start a b) (after : start ≤ now.nanos) :
    a.take now perSecond burst = b.take now perSecond burst := by
  simp only [Level.take, alike now after]

theorem RefilledBy.latest_eq (past : RefilledBy start a) (after : start ≤ now.nanos) :
    latest a.refilledAt now = now := by
  cases refilled : a.refilledAt with
  | none => rfl
  | some earlier =>
    have order := (past earlier refilled).trans after
    ext
    rw [Level.nanos_latest]
    omega

theorem RefilledBy.refill (past : RefilledBy start a) (after : start ≤ now.nanos) :
    RefilledBy now.nanos (a.refill now perSecond burst) := by
  intro refilled stamped
  rw [Level.refill, past.latest_eq after, Option.some.injEq] at stamped
  rw [← stamped]

theorem refill_alike (valid : a.Valid burst) :
    Alike perSecond burst now.nanos (a.refill now perSecond burst) a :=
  fun _ after => valid.refill_refill after perSecond

/-- A level that is full again is as good as a new one. -/
theorem full_alike (valid : a.Valid burst) (past : RefilledBy start a) (after : start ≤ now.nanos)
    (full : (a.refill now perSecond burst).isFull burst = true) :
    Alike perSecond burst now.nanos (.full burst) a := by
  intro later order
  have units : (a.refill now perSecond burst).units = Level.capacity burst := by
    rw [Level.isFull, Level.capacity_mod] at full
    exact eq_of_beq full
  rw [← valid.refill_refill (show now ≤ later from order) perSecond,
    (Level.full_valid burst).refill_eq, (valid.refill now perSecond).refill_eq, units,
    (past.refill after).latest_eq order]
  simp only [Level.full, Level.capacity_mod, Bucket.earn_full]
  rfl

end Alike

structure Follows (buckets : KeyedBuckets κ) (own : κ → Level) (start : Nat) : Prop where
  valid : ∀ key, (buckets.held key).Valid buckets.burst
  past : ∀ key, RefilledBy start (buckets.held key)
  alike : ∀ key, Alike buckets.perSecond buckets.burst start (buckets.held key) (own key)

variable {buckets : KeyedBuckets κ} {own : κ → Level} {start : Nat}

theorem Follows.later (follows : buckets.Follows own start) {later : Nat} (order : start ≤ later) :
    buckets.Follows own later where
  valid := follows.valid
  past key refilled stamped := (follows.past key refilled stamped).trans order
  alike key now after := follows.alike key now (order.trans after)

theorem Follows.forgetIdle (follows : buckets.Follows own start)
    (after : start ≤ now.nanos) :
    ({ buckets with table := buckets.forgetIdle now } : KeyedBuckets κ).Follows own now.nanos := by
  suffices each : ∀ key, ∃ level, level.Valid buckets.burst ∧ RefilledBy now.nanos level ∧
      Alike buckets.perSecond buckets.burst now.nanos level (own key) ∧
      ({ buckets with table := buckets.forgetIdle now } : KeyedBuckets κ).held key = level by
    choose level valid past alike held using each
    exact ⟨fun key => held key ▸ valid key, fun key => held key ▸ past key,
      fun key => held key ▸ alike key⟩
  have untouched := follows.later after
  intro key
  rcases buckets.forgetIdle_levels now with same | swept
  · refine ⟨_, follows.valid key, untouched.past key, untouched.alike key, ?_⟩
    simp only [held, same]
  · cases known : buckets.table.levels.lookup key with
    | none =>
      refine ⟨_, follows.valid key, untouched.past key, untouched.alike key, ?_⟩
      simp [held, swept, HashMap.lookup_retain, HashMap.lookup_mapValues, known]
    | some level =>
      have valid := follows.valid key
      have past := follows.past key
      have alike := untouched.alike key
      simp only [held, known, Option.getD_some] at valid past alike
      cases full : (level.refill now buckets.perSecond buckets.burst).isFull buckets.burst with
      | true =>
        refine ⟨.full buckets.burst, Level.full_valid _, nofun, ?_, ?_⟩
        · intro later order
          exact (full_alike valid past after full later order).trans (alike later order)
        · simp [held, swept, HashMap.lookup_retain, HashMap.lookup_mapValues, known, full,
            Option.filter]
      | false =>
        refine ⟨level.refill now buckets.perSecond buckets.burst, valid.refill now _,
          past.refill after, ?_, ?_⟩
        · intro later order
          exact (refill_alike valid later order).trans (alike later order)
        · simp [held, swept, HashMap.lookup_retain, HashMap.lookup_mapValues, known, full,
            Option.filter]

theorem Follows.readied (follows : buckets.Follows own start) (key : κ)
    (after : start ≤ now.nanos) : (buckets.readied key now).Follows own now.nanos := by
  unfold KeyedBuckets.readied
  split
  · exact follows.forgetIdle after
  · exact follows.later after

@[simp] theorem readied_perSecond (buckets : KeyedBuckets κ) (key : κ) (now : Instant) :
    (buckets.readied key now).perSecond = buckets.perSecond := by
  unfold readied
  split <;> rfl

@[simp] theorem readied_burst (buckets : KeyedBuckets κ) (key : κ) (now : Instant) :
    (buckets.readied key now).burst = buckets.burst := by
  unfold readied
  split <;> rfl

@[simp] theorem readied_capacity (buckets : KeyedBuckets κ) (key : κ) (now : Instant) :
    (buckets.readied key now).capacity = buckets.capacity := by
  unfold readied
  split <;> rfl

@[simp] theorem readied_untracked (buckets : KeyedBuckets κ) (key : κ) (now : Instant) :
    (buckets.readied key now).table.untracked = buckets.table.untracked := by
  unfold readied
  split
  · exact buckets.forgetIdle_untracked now
  · rfl

theorem readied_len (buckets : KeyedBuckets κ) (key : κ) (now : Instant) :
    (buckets.readied key now).len ≤ buckets.len := by
  unfold readied
  split
  · exact buckets.forgetIdle_length now
  · exact Nat.le_refl _

/-- What a call does, as a key sees it. -/
structure Served (buckets : KeyedBuckets κ) (own : κ → Level) (key : κ) (now : Instant) : Prop where
  counted : buckets.uncounted key now = false →
    (buckets.tryAcquire key now).1 = ((own key).take now buckets.perSecond buckets.burst).1 ∧
      (buckets.tryAcquire key now).2.Follows
        (Function.update own key ((own key).take now buckets.perSecond buckets.burst).2) now.nanos ∧
      (buckets.tryAcquire key now).2.table.untracked = buckets.table.untracked
  uncounted : buckets.uncounted key now = true →
    (buckets.tryAcquire key now).1 = .ok () ∧
      (buckets.tryAcquire key now).2.Follows own now.nanos ∧
      (buckets.tryAcquire key now).2.table.untracked = buckets.table.untracked + 1 ∧
      buckets.capacity ≤ buckets.len ∧ buckets.table.levels.lookup key = none
  within : buckets.len ≤ buckets.capacity →
    (buckets.tryAcquire key now).2.len ≤ buckets.capacity
  perSecond : (buckets.tryAcquire key now).2.perSecond = buckets.perSecond
  burst : (buckets.tryAcquire key now).2.burst = buckets.burst
  capacity : (buckets.tryAcquire key now).2.capacity = buckets.capacity

theorem held_remember (buckets : KeyedBuckets κ) (key other : κ) (level : Level) :
    (buckets.remember key level).held other =
      if other = key then level else buckets.held other := by
  simp only [held, remember, HashMap.lookup_insert]
  split <;> rfl

theorem Follows.remember (follows : buckets.Follows own start) {key : κ} {level : Level}
    (valid : level.Valid buckets.burst) (past : RefilledBy start level) :
    (buckets.remember key level).Follows (Function.update own key level) start := by
  constructor
  · intro other
    rw [held_remember]
    split
    · exact valid
    · exact follows.valid other
  · intro other
    rw [held_remember]
    split
    · exact past
    · exact follows.past other
  · intro other
    rw [held_remember, Function.update_apply]
    split
    · exact fun _ _ => rfl
    · exact follows.alike other

theorem RefilledBy.take {level : Level} (past : RefilledBy start level)
    (after : start ≤ now.nanos) (perSecond burst : UInt32) :
    RefilledBy now.nanos (level.take now perSecond burst).2 := by
  have same : (level.take now perSecond burst).2.refilledAt =
      (level.refill now perSecond burst).refilledAt := by
    unfold Level.take
    dsimp only
    split <;> rfl
  intro refilled stamped
  exact past.refill after refilled (same ▸ stamped)

theorem Follows.served (follows : buckets.Follows own start) (key : κ)
    (after : start ≤ now.nanos) : buckets.Served own key now := by
  have ready := follows.readied key after
  have alike := (ready.alike key).take_eq (Nat.le_refl now.nanos)
  have shorter := buckets.readied_len key now
  have valid := (ready.valid key).take now buckets.perSecond
  have past := (ready.past key).take (Nat.le_refl now.nanos) buckets.perSecond buckets.burst
  simp only [readied_perSecond, readied_burst] at alike
  rcases buckets.tryAcquire_cases key now with ⟨result, room⟩ | ⟨result, unknown, before, full⟩
  · have known : buckets.uncounted key now = false := by
      rw [KeyedBuckets.uncounted, result, KeyedBuckets.remember, AList.lookup_insert]
      rfl
    constructor
    · intro _
      rw [result, ← alike]
      exact ⟨rfl, ready.remember (by simpa using valid) past, readied_untracked ..⟩
    · intro unknown
      rw [known] at unknown
      cases unknown
    · intro within
      rw [result, len, KeyedBuckets.remember, HashMap.length_insert]
      split
      · exact shorter.trans within
      · rename_i unknown
        exact room (Option.not_isSome_iff_eq_none.mp unknown)
    all_goals
      rw [result]
      simp [KeyedBuckets.remember]
  · have new : buckets.uncounted key now = true := by
      rw [KeyedBuckets.uncounted, result, letThrough, unknown]
      rfl
    constructor
    · intro known
      rw [new] at known
      cases known
    · intro _
      rw [result]
      exact ⟨rfl, ⟨ready.valid, ready.past, ready.alike⟩, by simp [letThrough], full, before⟩
    · intro within
      rw [result]
      exact shorter.trans within
    all_goals
      rw [result]
      simp [letThrough]

/-! ## Series of calls -/

/-- Later calls are made at later times. -/
def Ordered (calls : List (κ × Instant)) : Prop := calls.Pairwise fun a b => a.2 ≤ b.2

/-- What holds of a table with a rate, a burst and a capacity, whatever was
    asked of it. -/
structure Sound (perSecond burst : NonZeroU32) (capacity : Nat) (own : κ → Level) (start : Nat)
    (buckets : KeyedBuckets κ) : Prop where
  rate : buckets.perSecond = perSecond
  size : buckets.burst = burst
  room : buckets.capacity = capacity
  follows : buckets.Follows own start
  within : buckets.len ≤ capacity

variable {perSecond burst : NonZeroU32} {capacity : Nat}

theorem Sound.step (sound : buckets.Sound perSecond burst capacity own start) (key : κ)
    (after : start ≤ now.nanos) :
    (buckets.tryAcquire key now).2.Sound perSecond burst capacity
      (if buckets.uncounted key now then own
        else Function.update own key ((own key).take now perSecond burst).2) now.nanos := by
  have served := sound.follows.served key after
  have within := served.within (sound.room ▸ sound.within)
  rw [sound.room] at within
  refine ⟨served.perSecond.trans sound.rate, served.burst.trans sound.size,
    served.capacity.trans sound.room, ?_, within⟩
  cases counted : buckets.uncounted key now with
  | true => exact (served.uncounted counted).2.1
  | false =>
    have follows := (served.counted counted).2.1
    rw [sound.rate, sound.size] at follows
    exact follows

theorem Sound.run (sound : buckets.Sound perSecond burst capacity own start)
    {calls : List (κ × Instant)} (ordered : Ordered calls)
    (after : ∀ call ∈ calls, start ≤ call.2.nanos) :
    ∃ own' start', (buckets.run calls).2.Sound perSecond burst capacity own' start' ∧
      (start' = start ∨ ∃ call ∈ calls, start' = call.2.nanos) := by
  induction calls generalizing buckets own start with
  | nil => exact ⟨own, start, sound, .inl rfl⟩
  | cons call later ih =>
    obtain ⟨first, rest⟩ := List.pairwise_cons.mp ordered
    obtain ⟨own', start', reached, moment⟩ :=
      ih (sound.step call.1 (after call List.mem_cons_self)) rest first
    refine ⟨own', start', reached, .inr ?_⟩
    rcases moment with same | ⟨other, member, same⟩
    · exact ⟨call, List.mem_cons_self, same⟩
    · exact ⟨other, List.mem_cons_of_mem _ member, same⟩

/-- Each key gets the answers of a bucket of its own. -/
theorem Sound.answers (sound : buckets.Sound perSecond burst capacity own start)
    {calls : List (κ × Instant)} (ordered : Ordered calls)
    (after : ∀ call ∈ calls, start ≤ call.2.nanos) (key : κ) :
    (ofKey (buckets.run calls).1 key).map (·.permitted) =
      ((own key).takes perSecond burst ((ofKey (buckets.run calls).1 key).map (·.now))).1 := by
  induction calls generalizing buckets own start with
  | nil => rfl
  | cons call later ih =>
    obtain ⟨asked, now⟩ := call
    obtain ⟨first, rest⟩ := List.pairwise_cons.mp ordered
    have reached : start ≤ now.nanos := after _ List.mem_cons_self
    have served := sound.follows.served asked reached
    have later := ih (sound.step asked reached) rest first
    simp only [KeyedBuckets.run]
    cases counted : buckets.uncounted asked now with
    | true =>
      rw [counted] at later
      simpa [ofKey] using later
    | false =>
      rw [counted] at later
      by_cases same : asked = key
      · subst same
        have answer := (served.counted counted).1
        rw [sound.rate, sound.size] at answer
        simp only [if_false, Bool.false_eq_true, Function.update_self] at later
        simpa [ofKey, Level.takes, answer] using later
      · simp only [if_false, Bool.false_eq_true, Function.update_of_ne (Ne.symm same)] at later
        simpa [ofKey, same] using later

theorem Sound.untracked (sound : buckets.Sound perSecond burst capacity own start)
    {calls : List (κ × Instant)} (ordered : Ordered calls)
    (after : ∀ call ∈ calls, start ≤ call.2.nanos) :
    (buckets.run calls).2.table.untracked =
      buckets.table.untracked + ((buckets.run calls).1.filter (!·.counted)).length := by
  induction calls generalizing buckets own start with
  | nil => rfl
  | cons call later ih =>
    obtain ⟨asked, now⟩ := call
    obtain ⟨first, rest⟩ := List.pairwise_cons.mp ordered
    have reached : start ≤ now.nanos := after _ List.mem_cons_self
    have served := sound.follows.served asked reached
    simp only [KeyedBuckets.run, ih (sound.step asked reached) rest first]
    cases counted : buckets.uncounted asked now with
    | true =>
      rw [(served.uncounted counted).2.2.1]
      simp
      omega
    | false =>
      rw [(served.counted counted).2.2]
      simp

theorem sound_new (perSecond burst : NonZeroU32) (capacity : Nat) (nonzero : capacity ≠ 0) :
    (new perSecond burst capacity nonzero : KeyedBuckets κ).Sound perSecond burst capacity
      (fun _ => .full burst) 0 where
  rate := rfl
  size := rfl
  room := rfl
  follows := ⟨fun _ => Level.full_valid burst, fun _ => nofun, fun _ _ _ => rfl⟩
  within := Nat.zero_le _

end KeyedBuckets

open KeyedBuckets in
/-- Calls at times that do not go back: leaving out those let through uncounted,
    each key gets the answers of a bucket of its own that starts full; no more
    keys are remembered than there is room for; and what is counted as untracked
    are the calls let through, each made while the table was full of other
    keys. -/
theorem keyedBuckets_bucket_per_key {κ : Type} [DecidableEq κ] (perSecond burst : NonZeroU32)
    (capacity : Nat) (nonzero : capacity ≠ 0) (calls : List (κ × Instant))
    (ordered : Ordered calls) :
    let start : KeyedBuckets κ := .new perSecond burst capacity nonzero
    let answered := (start.run calls).1
    (∀ key, (ofKey answered key).map (·.permitted) =
        ((TokenBucket.new perSecond burst).run ((ofKey answered key).map (·.now))).1) ∧
      (start.run calls).2.len ≤ capacity ∧
      (start.run calls).2.table.untracked = (answered.filter (!·.counted)).length ∧
      ∀ before key now after, calls = before ++ (key, now) :: after →
        (start.run before).2.uncounted key now = true →
          ((start.run before).2.tryAcquire key now).1 = .ok () ∧
            (start.run before).2.len = capacity ∧
            (start.run before).2.table.levels.lookup key = none := by
  intro start answered
  have sound := sound_new (κ := κ) perSecond burst capacity nonzero
  have always : ∀ call ∈ calls, 0 ≤ call.2.nanos := fun _ _ => Nat.zero_le _
  refine ⟨?_, ?_, ?_, ?_⟩
  · intro key
    rw [((TokenBucket.new perSecond burst).run_eq _).1]
    exact sound.answers ordered always key
  · obtain ⟨_, _, reached, _⟩ := sound.run ordered always
    exact reached.within
  · exact (sound.untracked ordered always).trans (Nat.zero_add _)
  · rintro before key now after rfl uncounted
    obtain ⟨earlier, _, order⟩ := List.pairwise_append.mp ordered
    obtain ⟨own, moment, reached, last⟩ := sound.run earlier fun _ _ => Nat.zero_le _
    have past : moment ≤ now.nanos := by
      rcases last with rfl | ⟨call, member, rfl⟩
      · exact Nat.zero_le _
      · exact order call member _ List.mem_cons_self
    have served := (reached.follows.served key past).uncounted uncounted
    refine ⟨served.1, Nat.le_antisymm reached.within ?_, served.2.2.2.2⟩
    exact reached.room ▸ served.2.2.2.1

/-- Two keys, at a table with room for one. -/
theorem keyedBuckets_let_second_key_through :
    let start : KeyedBuckets Bool := .new ⟨1, by decide⟩ ⟨1, by decide⟩ 1 (by decide)
    let now : Instant := ⟨0, by decide⟩
    (start.run [(false, now)]).2.uncounted true now = true ∧
      (start.run [(false, now)]).2.len = 1 := by
  intro start now
  have uncounted : (start.run [(false, now)]).2.uncounted true now = true := by decide +kernel
  have ordered : KeyedBuckets.Ordered [(false, now), (true, now)] :=
    List.pairwise_pair.mpr (Nat.le_refl _)
  have full := (keyedBuckets_bucket_per_key ⟨1, by decide⟩ ⟨1, by decide⟩ 1 (by decide)
    [(false, now), (true, now)] ordered).2.2.2 [(false, now)] true now [] rfl uncounted
  exact ⟨uncounted, full.2.1⟩

end Gfe
