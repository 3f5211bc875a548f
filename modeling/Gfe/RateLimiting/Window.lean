import Gfe.Lib.Ring
import Gfe.RateLimiting.TokenBucket

/-! # A bucket with a second's worth of burst

What a bucket lets through in a second when its burst is what it earns in one.
A call is refused only if a second's worth of calls was let through in the second
before it. The converse does not hold: a second that begins with a full bucket
sees the burst and what is earned meanwhile.
-/

namespace Gfe

variable {now : Instant}

def oneSecond : Nat := 1000000000

namespace Level

variable {level : Level} {rate : UInt32}

theorem takes_append (perSecond burst : UInt32) (level : Level) (calls later : List Instant) :
    level.takes perSecond burst (calls ++ later) =
      let reached := (level.takes perSecond burst calls).2.takes perSecond burst later
      ((level.takes perSecond burst calls).1 ++ reached.1, reached.2) := by
  induction calls generalizing level with
  | nil => rfl
  | cons first rest ih =>
    rw [List.cons_append, takes, takes, ih]
    rfl

theorem length_takes (perSecond burst : UInt32) (level : Level) (calls : List Instant) :
    (level.takes perSecond burst calls).1.length = calls.length := by
  induction calls generalizing level with
  | nil => rfl
  | cons first rest ih => exact congrArg (· + 1) (ih _)

theorem units_of_refused {perSecond burst : UInt32}
    (refused : (level.take now perSecond burst).1.isOk = false) :
    (level.take now perSecond burst).2.units < unitsPerPermit := by
  unfold take at refused ⊢
  dsimp only at refused ⊢
  split
  · rename_i enough
    rw [if_pos enough] at refused
    cases refused
  · rename_i short
    exact not_le.mp short

theorem Valid.refused_after_quiet (valid : level.Valid rate) {recent : List Instant}
    (quiet : ∀ seen, level.refilledAt = some seen → seen.nanos + oneSecond ≤ now.nanos)
    (refused : ((level.takes rate rate recent).2.take now rate rate).1.isOk = false) :
    rate.toNat ≤ Bucket.paid (level.takes rate rate recent).1 := by
  have left := units_of_refused refused
  have spent := Bucket.earned_le_asks (capacity rate) unitsPerPermit level.units
    (gains rate level.refilledAt (recent ++ [now]))
  rw [← (valid.takes_eq _).1, ← (valid.takes_eq _).2, takes_append, sum_gains] at spent
  have full : Bucket.earn (capacity rate) level.units
      (advance level.refilledAt (recent ++ [now]) * rate.toNat) = capacity rate := by
    cases refilled : level.refilledAt with
    | none => rw [valid.fresh refilled, Bucket.earn_full]
    | some seen =>
      obtain ⟨last, reached, after⟩ :=
        le_latestAfter (some seen) (show now ∈ recent ++ [now] by simp)
      have second : oneSecond ≤ last.since seen := by
        have apart := quiet seen refilled
        rw [Instant.le_def] at after
        simp only [Instant.since]
        omega
      have earned : capacity rate ≤ last.since seen * rate.toNat := by
        rw [capacity, Nat.mul_comm]
        exact Nat.mul_le_mul_right _ second
      rw [advance_some reached]
      exact min_eq_left (earned.trans (Nat.le_add_left ..))
  have paid : Bucket.paid ((level.takes rate rate recent).1 ++
      ((level.takes rate rate recent).2.takes rate rate [now]).1) =
      Bucket.paid (level.takes rate rate recent).1 := by
    simp [Bucket.paid, Level.takes, refused]
  rw [full] at spent
  dsimp only at spent
  rw [paid, capacity] at spent
  change _ ≤ ((level.takes rate rate recent).2.take now rate rate).2.units + _ at spent
  -- less than a permit is left, so all but less than one permit of the burst was paid
  have more : rate.toNat * unitsPerPermit <
      (Bucket.paid (level.takes rate rate recent).1 + 1) * unitsPerPermit := by
    rw [Nat.add_mul]
    omega
  exact Nat.lt_succ_iff.mp (Nat.lt_of_mul_lt_mul_right more)

theorem Valid.permitted_of_earned (valid : level.Valid rate)
    (positive : 0 < rate.toNat)
    (earned : unitsPerPermit ≤ elapsed level.refilledAt now * rate.toNat) :
    (level.take now rate rate).1.isOk = true := by
  have enough : unitsPerPermit ≤ (level.refill now rate rate).units := by
    rw [valid.refill_eq]
    refine le_min ?_ (earned.trans (Nat.le_add_left ..))
    exact Nat.le_mul_of_pos_left _ positive
  simp only [Level.take, if_pos enough]
  rfl

theorem Valid.takes_refill (valid : level.Valid rate) (first : Instant) (rest : List Instant) :
    (level.refill first rate rate).takes rate rate (first :: rest) =
      level.takes rate rate (first :: rest) := by
  have same : (level.refill first rate rate).take first rate rate = level.take first rate rate := by
    simp only [Level.take, valid.refill_refill (le_refl first.nanos)]
  rw [Level.takes, same, Level.takes]

theorem Valid.paid_le_of_first (valid : level.Valid rate) {first last : Instant}
    {rest : List Instant} (earlier : ∀ seen, level.refilledAt = some seen → seen ≤ first)
    (reached : latestAfter (some first) rest = some last) :
    Bucket.paid (level.takes rate rate (first :: rest)).1 ≤
      rate.toNat + last.since first * rate.toNat / unitsPerPermit := by
  have bound := (valid.refill first rate).paid_takes_le rate (first :: rest)
  rw [valid.takes_refill] at bound
  have refilled : (level.refill first rate rate).refilledAt = some first := by
    rw [valid.refill_eq]
    cases seen : level.refilledAt with
    | none => rfl
    | some earliest =>
      rw [Option.some.injEq, Instant.ext_iff, nanos_latest]
      exact max_eq_right (earlier earliest seen)
  have next : latestAfter (some first) (first :: rest) = some last := by
    rw [← reached]
    exact congrArg (fun seen => latestAfter (some seen) rest) (latest_of_le (le_refl first.nanos))
  rwa [refilled, advance_some next] at bound

end Level

theorem latestAfter_mem {start : Option Instant} {calls : List Instant} {last : Instant}
    (reached : latestAfter start calls = some last) : start = some last ∨ last ∈ calls := by
  induction calls generalizing start with
  | nil => exact .inl reached
  | cons now later ih =>
    rcases ih reached with here | member
    · have one : start = some last ∨ last = now := by
        cases start with
        | none => exact .inr (Option.some.inj here).symm
        | some earlier =>
          simp only [latest, Option.some.injEq] at here
          split at here
          · exact .inl (congrArg some here)
          · exact .inr here.symm
      rcases one with same | rfl
      · exact .inl same
      · exact .inr List.mem_cons_self
    · exact .inr (List.mem_cons_of_mem _ member)

/-! ## Calls and their answers -/

/-- Calls of a full bucket, in the order of their times, with their answers. -/
structure Calls (rate : UInt32) (calls : List (Instant × Bool)) : Prop where
  ordered : calls.Pairwise fun a b => a.1 ≤ b.1
  answers : calls.map Prod.snd = ((Level.full rate).takes rate rate (calls.map Prod.fst)).1

namespace Calls

variable {rate : UInt32} {calls before after : List (Instant × Bool)}

theorem of_append (whole : Calls rate (before ++ after)) :
    Calls rate before ∧
      after.map Prod.snd = (((Level.full rate).takes rate rate (before.map Prod.fst)).2.takes
        rate rate (after.map Prod.fst)).1 := by
  have answers := whole.answers
  rw [List.map_append, List.map_append, Level.takes_append] at answers
  have lengths : (before.map Prod.snd).length =
      ((Level.full rate).takes rate rate (before.map Prod.fst)).1.length := by
    simp [Level.length_takes]
  obtain ⟨first, rest⟩ := List.append_inj answers lengths
  exact ⟨⟨(List.pairwise_append.mp whole.ordered).1, first⟩, rest⟩

theorem length_permitted (calls : List (Instant × Bool)) :
    (calls.filter (·.2)).length = Bucket.paid (calls.map Prod.snd) := by
  rw [Bucket.paid, List.count_eq_countP, List.countP_map, List.countP_eq_length_filter]
  congr 2
  funext call
  obtain ⟨now, permitted⟩ := call
  cases permitted <;> rfl

theorem refilledAt {seen : Instant}
    (refilled : ((Level.full rate).takes rate rate (before.map Prod.fst)).2.refilledAt =
      some seen) : ∃ call ∈ before, call.1 = seen := by
  rw [(Level.full_valid rate).takes_refilledAt] at refilled
  rcases latestAfter_mem refilled with never | member
  · cases never
  · exact List.mem_map.mp member

theorem filter_none {p : Instant × Bool → Prop} [DecidablePred p]
    (outside : ∀ call ∈ calls, ¬p call) :
    (calls.filter fun call => call.2 && decide (p call)) = [] := by
  refine List.filter_eq_nil_iff.mpr ?_
  intro call member
  simp [outside call member]

theorem filter_all {p : Instant × Bool → Prop} [DecidablePred p] (inside : ∀ call ∈ calls, p call) :
    (calls.filter fun call => call.2 && decide (p call)) = calls.filter (·.2) := by
  apply List.filter_congr
  intro call member
  simp [inside call member]

theorem split (whole : Calls rate calls) (start : Nat) :
    ∃ early late, calls = early ++ late ∧ (∀ call ∈ early, call.1.nanos < start) ∧
      ∀ call ∈ late, start ≤ call.1.nanos := by
  have parted : Ring.Partitioned (fun call : Instant × Bool => decide (call.1.nanos < start))
      calls := by
    refine whole.ordered.imp ?_
    intro a b order
    rw [Instant.le_def] at order
    simp only [decide_eq_true_eq]
    omega
  refine ⟨_, _, parted.eq_append, ?_, ?_⟩
  · intro call member
    simpa using (List.mem_filter.mp member).2
  · intro call member
    simpa using (List.mem_filter.mp member).2

/-- A call is refused only if a second's worth of calls was let through in the
    second before it. -/
theorem refused (whole : Calls rate (before ++ [(now, false)])) :
    rate.toNat ≤
      (before.filter fun call => call.2 && decide (now.nanos < call.1.nanos + oneSecond)).length := by
  obtain ⟨own, last⟩ := whole.of_append
  obtain ⟨early, recent, rfl, past, late⟩ := own.split (now.nanos + 1 - oneSecond)
  obtain ⟨_, answers⟩ := own.of_append
  have valid : ((Level.full rate).takes rate rate (early.map Prod.fst)).2.Valid rate :=
    (Level.full_valid rate).takes _
  have within : (recent.filter (·.2)).length ≤ ((early ++ recent).filter fun call =>
      call.2 && decide (now.nanos < call.1.nanos + oneSecond)).length := by
    have close : ∀ call ∈ recent, now.nanos < call.1.nanos + oneSecond := by
      intro call member
      have recently := late call member
      omega
    rw [List.filter_append, List.length_append, filter_all close]
    exact Nat.le_add_left ..
  refine le_trans ?_ within
  rw [length_permitted, answers]
  have quiet : ∀ seen, ((Level.full rate).takes rate rate (early.map Prod.fst)).2.refilledAt =
      some seen → seen.nanos + oneSecond ≤ now.nanos := by
    intro seen refilled
    obtain ⟨call, member, rfl⟩ := refilledAt refilled
    have before := past call member
    omega
  rw [List.map_append, Level.takes_append] at last
  exact valid.refused_after_quiet quiet (List.cons.inj last).1.symm

theorem concat (whole : Calls rate before)
    (latest : ∀ call ∈ before, call.1 ≤ now) :
    Calls rate (before ++ [(now,
      (((Level.full rate).takes rate rate (before.map Prod.fst)).2.take now rate rate).1.isOk)]) := by
  refine ⟨?_, ?_⟩
  · refine List.pairwise_append.mpr ⟨whole.ordered, List.pairwise_singleton .., ?_⟩
    rintro call member _ (_ | ⟨_, ⟨⟩⟩)
    exact latest call member
  · rw [List.map_append, List.map_append, Level.takes_append, whole.answers]
    rfl

theorem replicate (rate : UInt32) (start : Instant) {n : Nat} (within : n ≤ rate.toNat) :
    Calls rate (List.replicate n (start, true)) := by
  induction n with
  | zero => exact ⟨.nil, rfl⟩
  | succ n ih =>
    have before := ih (Nat.le_of_succ_le within)
    have together : ∀ call ∈ List.replicate n (start, true), call.1 ≤ start := by
      simp [Instant.le_def]
    have next := before.concat together
    rw [List.replicate_succ']
    cases answer : (((Level.full rate).takes rate rate
        ((List.replicate n (start, true)).map Prod.fst)).2.take start rate rate).1.isOk with
    | true => rwa [answer] at next
    | false =>
      rw [answer] at next
      have enough := next.refused.trans (List.length_filter_le ..)
      rw [List.length_replicate] at enough
      omega

theorem burst (twice : 2 ≤ rate.toNat) {start later : Instant}
    (apart : later.nanos = start.nanos + (oneSecond - 1)) :
    Calls rate (List.replicate rate.toNat (start, true) ++ [(later, true)]) := by
  have first := replicate rate start (le_refl rate.toNat)
  have order : start ≤ later := by
    rw [Instant.le_def]
    omega
  have before : ∀ call ∈ List.replicate rate.toNat (start, true), call.1 ≤ later := by
    simp [order]
  have next := first.concat before
  generalize reached : ((Level.full rate).takes rate rate
    ((List.replicate rate.toNat (start, true)).map Prod.fst)).2 = level at next
  have valid : level.Valid rate := reached ▸ (Level.full_valid rate).takes _
  have refilled : level.refilledAt = some start := by
    have called : start ∈ (List.replicate rate.toNat (start, true)).map Prod.fst := by
      simp
      omega
    obtain ⟨last, seen, _⟩ := le_latestAfter none called
    rw [← reached, (Level.full_valid rate).takes_refilledAt]
    refine seen.trans ?_
    rcases latestAfter_mem seen with never | member
    · cases never
    · simp at member
      rw [member.2]
  have earned : unitsPerPermit ≤ elapsed level.refilledAt later * rate.toNat := by
    rw [refilled]
    refine le_trans ?_ (Nat.mul_le_mul_left _ twice)
    simp only [elapsed, Instant.since, apart, unitsPerPermit, oneSecond]
    omega
  rwa [valid.permitted_of_earned (by omega) earned] at next

/-- The calls let through in any second are fewer than two seconds' worth. -/
theorem window (whole : Calls rate calls) (positive : 0 < rate.toNat) (start : Nat) :
    (calls.filter fun call => call.2 &&
      decide (start ≤ call.1.nanos ∧ call.1.nanos < start + oneSecond)).length <
      2 * rate.toNat := by
  obtain ⟨before, later, rfl, inTime, after⟩ := whole.split (start + oneSecond)
  have own := whole.of_append.1
  obtain ⟨early, inside, rfl, past, since⟩ := own.split start
  have answers := own.of_append.2
  have valid : ((Level.full rate).takes rate rate (early.map Prod.fst)).2.Valid rate :=
    (Level.full_valid rate).takes _
  have all : ∀ call ∈ inside, start ≤ call.1.nanos ∧ call.1.nanos < start + oneSecond := by
    intro call member
    exact ⟨since call member, inTime call (List.mem_append_right _ member)⟩
  have beyond : ∀ call ∈ later, ¬(start ≤ call.1.nanos ∧ call.1.nanos < start + oneSecond) := by
    intro call member
    have late := after call member
    omega
  have short : ∀ call ∈ early, ¬(start ≤ call.1.nanos ∧ call.1.nanos < start + oneSecond) := by
    intro call member
    have soon := past call member
    omega
  rw [List.filter_append, List.filter_append, filter_none short, filter_none beyond,
    List.nil_append, List.append_nil, filter_all all, length_permitted, answers]
  cases inside with
  | nil =>
    simp only [List.map_nil, Level.takes, Bucket.paid_nil]
    omega
  | cons first rest =>
    obtain ⟨last, reached, order⟩ := latestAfter_some first.1 (rest.map Prod.fst)
    have earlier : ∀ seen, ((Level.full rate).takes rate rate (early.map Prod.fst)).2.refilledAt =
        some seen → seen ≤ first.1 := by
      intro seen refilled
      obtain ⟨call, member, rfl⟩ := refilledAt refilled
      have before := past call member
      have now := since first List.mem_cons_self
      rw [Instant.le_def]
      omega
    have bound := valid.paid_le_of_first earlier reached
    have short : last.since first.1 < unitsPerPermit := by
      have begun := since first List.mem_cons_self
      have ended : last.nanos < start + oneSecond := by
        rcases latestAfter_mem reached with same | member
        · cases same
          exact inTime first (by simp)
        · obtain ⟨call, listed, rfl⟩ := List.mem_map.mp member
          exact inTime call (by simp [listed])
      simp only [Instant.since, unitsPerPermit, oneSecond] at ended ⊢
      omega
    have earned : last.since first.1 * rate.toNat / unitsPerPermit < rate.toNat :=
      Nat.div_lt_of_lt_mul (Nat.mul_lt_mul_of_pos_right short positive)
    refine bound.trans_lt ?_
    omega

end Calls

end Gfe
