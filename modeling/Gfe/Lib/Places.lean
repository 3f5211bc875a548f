import Mathlib.Data.Fintype.Card
import Mathlib.Data.Fintype.Basic
import Mathlib.Data.Int.Basic
import Mathlib.Algebra.BigOperators.Fin

/-! # Places under a cap

A counter goes up by one for everybody who takes a place, and everybody
remembers what it showed then. Of those who hold a place, at most `n` can have
seen less than `n`: so whoever backs out on seeing the cap reached keeps the
others under it, in whatever order places are taken, kept and given back.
-/

/-- A counter, and what each holder of a place saw when taking it. -/
structure Places (ι : Type) where
  count : Int
  seen : ι → Option Int

namespace Places

variable {ι : Type} [Fintype ι]

/-- The holders of places who saw less than `n`. -/
def below (places : Places ι) (n : Int) : Finset ι :=
  Finset.univ.filter fun i => ∃ k ∈ places.seen i, k < n

def holders (places : Places ι) : Finset ι := Finset.univ.filter fun i => (places.seen i).isSome

structure Sound (places : Places ι) : Prop where
  count : places.count = places.holders.card
  bound : ∀ n : Nat, (places.below n).card ≤ n

variable {places : Places ι}

@[simp] theorem mem_below {n : Int} {i : ι} :
    i ∈ places.below n ↔ ∃ k ∈ places.seen i, k < n := by
  simp [below]

@[simp] theorem mem_holders {i : ι} : i ∈ places.holders ↔ (places.seen i).isSome := by
  simp [holders]

theorem below_subset_holders (n : Int) : places.below n ⊆ places.holders := by
  intro i member
  obtain ⟨k, seen, _⟩ := mem_below.mp member
  rw [mem_holders, Option.mem_def.mp seen]
  rfl

theorem Sound.card_le (sound : places.Sound) {n : Nat} {some : Finset ι}
    (low : ∀ i ∈ some, ∃ k ∈ places.seen i, k < n) : some.card ≤ n :=
  (Finset.card_le_card fun i member => mem_below.mpr (low i member)).trans (sound.bound n)

variable [DecidableEq ι]

def enter (places : Places ι) (i : ι) : Places ι :=
  ⟨places.count + 1, Function.update places.seen i (some places.count)⟩

/-- Give a place back. -/
def leave (places : Places ι) (i : ι) : Places ι :=
  ⟨places.count - 1, Function.update places.seen i none⟩

theorem Sound.enter (sound : places.Sound) {i : ι} (free : places.seen i = none) :
    (places.enter i).Sound := by
  have new : i ∉ places.holders := by simp [free]
  have joined : (places.enter i).holders = insert i places.holders := by
    ext j
    by_cases same : j = i <;> simp [Places.enter, same]
  refine ⟨?_, ?_⟩
  · rw [joined, Finset.card_insert_of_notMem new, Nat.cast_add, ← sound.count]
    rfl
  · intro n
    by_cases within : places.count < n
    · -- the counter is the number of holders, so there is room for one more
      have all : ((places.enter i).below n).card ≤ (places.enter i).holders.card :=
        Finset.card_le_card (below_subset_holders n)
      rw [joined, Finset.card_insert_of_notMem new] at all
      have known := sound.count
      omega
    · have same : (places.enter i).below n = places.below n := by
        ext j
        by_cases same : j = i <;> simp [Places.enter, same, free, not_lt.mp within]
      rw [same]
      exact sound.bound n

theorem Sound.leave (sound : places.Sound) {i : ι} (holds : (places.seen i).isSome) :
    (places.leave i).Sound := by
  have old : i ∈ places.holders := mem_holders.mpr holds
  have left : (places.leave i).holders = places.holders.erase i := by
    ext j
    by_cases same : j = i <;> simp [Places.leave, same]
  refine ⟨?_, ?_⟩
  · have known := sound.count
    have positive := Finset.card_pos.mpr ⟨i, old⟩
    rw [left, Finset.card_erase_of_mem old]
    change places.count - 1 = _
    omega
  · intro n
    refine (Finset.card_le_card ?_).trans (sound.bound n)
    intro j member
    by_cases same : j = i
    · simp [Places.leave, same] at member
    · simpa [Places.leave, same] using member

inductive Step (places : Places ι) : Places ι → Prop where
  | stays : Step places places
  | enters {i} : places.seen i = none → Step places (places.enter i)
  | leaves {i} : (places.seen i).isSome → Step places (places.leave i)

theorem Sound.step {after : Places ι} (sound : places.Sound) (step : Step places after) :
    after.Sound := by
  cases step with
  | stays => exact sound
  | enters free => exact sound.enter free
  | leaves holds => exact sound.leave holds

/-! ## Refusals -/

/-- In this step `i` takes a place and sees that the cap was reached: it will be refused, and
    has the place to give back. -/
def Denied (max : Nat) (i : ι) (before after : Places ι) : Prop :=
  after = before.enter i ∧ (max : Int) ≤ before.count

/-- Nobody who is refused still has a place to give back. -/
def Settled (max : Nat) (places : Places ι) : Prop := ∀ i, ∀ k ∈ places.seen i, k < (max : Int)

/-- As many as the cap allows hold a place there was room for. -/
def Full (max : Nat) (places : Places ι) : Prop := max ≤ (places.below max).card

/-- `i` is refused in this step, and if nobody else is being refused, all places are held. -/
def FairlyDenied (max : Nat) (i : ι) (before after : Places ι) : Prop :=
  Denied max i before after ∧ (Settled max before → Full max before)

/-- Those who have a place to give back stand in for those who hold one: without them, a refusal
    means that all places are held. -/
theorem Sound.fairlyDenied {after : Places ι} {max : Nat} {i : ι} (sound : places.Sound)
    (denied : Denied max i places after) : FairlyDenied max i places after := by
  refine ⟨denied, fun settled => ?_⟩
  have held : places.holders ⊆ places.below max := by
    intro j member
    obtain ⟨k, seen⟩ := Option.isSome_iff_exists.mp (mem_holders.mp member)
    exact mem_below.mpr ⟨k, seen, settled j k seen⟩
  have reached := denied.2
  rw [sound.count] at reached
  exact (Int.ofNat_le.mp reached).trans (Finset.card_le_card held)

end Places
