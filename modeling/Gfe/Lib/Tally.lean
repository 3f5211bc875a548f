import Mathlib.Data.List.Nodup
import Mathlib.Data.List.Perm.Subperm
import Mathlib.Data.List.Range
import Mathlib.Logic.Function.Basic

/-! # Counting up to a mark

Things are numbered as they come. A mark says up to which number they have been
taken for counting; whoever moves it forward owes the counting of those in
between. Nothing is counted twice, and once nobody owes anything, everything
below the mark has been counted.
-/

/-- A mark, the numbers counted so far, and what everybody still has to count. -/
structure Tally (ι : Type) where
  mark : Nat
  counted : List Nat
  owed : ι → Option (Nat × Nat)

namespace Tally

variable {ι : Type} {tally : Tally ι}

structure Sound (tally : Tally ι) : Prop where
  once : tally.counted.Nodup
  below : ∀ n ∈ tally.counted, n < tally.mark
  uncounted : ∀ i range, tally.owed i = some range →
    range.2 ≤ tally.mark ∧ ∀ n, range.1 ≤ n → n < range.2 → n ∉ tally.counted
  apart : ∀ i j one two, i ≠ j → tally.owed i = some one → tally.owed j = some two →
    one.2 ≤ two.1 ∨ two.2 ≤ one.1
  covered : ∀ n < tally.mark, n ∈ tally.counted ∨
    ∃ i range, tally.owed i = some range ∧ range.1 ≤ n ∧ n < range.2

theorem sound_new : (⟨0, [], fun _ => none⟩ : Tally ι).Sound :=
  ⟨List.nodup_nil, nofun, nofun, nofun, nofun⟩

theorem Sound.length_le (sound : tally.Sound) : tally.counted.length ≤ tally.mark := by
  have within : tally.counted ⊆ List.range tally.mark :=
    fun n member => List.mem_range.mpr (sound.below n member)
  simpa using (List.subperm_of_subset sound.once within).length_le

theorem Sound.length_eq (sound : tally.Sound) (nobody : ∀ i, tally.owed i = none) :
    tally.counted.length = tally.mark := by
  refine Nat.le_antisymm sound.length_le ?_
  have all : List.range tally.mark ⊆ tally.counted := by
    intro n member
    rcases sound.covered n (List.mem_range.mp member) with counted | ⟨i, range, owes, _⟩
    · exact counted
    · rw [nobody i] at owes
      cases owes
  simpa using (List.subperm_of_subset List.nodup_range all).length_le

variable [DecidableEq ι]

/-- `i` moves the mark to `n` if that is forward. -/
def raise (tally : Tally ι) (i : ι) (n : Nat) : Tally ι :=
  if tally.mark < n then
    { tally with mark := n, owed := Function.update tally.owed i (some (tally.mark, n)) }
  else tally

/-- `i` counts what it owes. -/
def settle (tally : Tally ι) (i : ι) : Tally ι :=
  match tally.owed i with
  | some (low, high) =>
    { tally with
      counted := tally.counted ++ List.range' low (high - low)
      owed := Function.update tally.owed i none }
  | none => tally

theorem le_mark_raise (tally : Tally ι) (i : ι) (n : Nat) : n ≤ (tally.raise i n).mark := by
  unfold raise
  split
  · exact le_rfl
  · rename_i back
    exact Nat.not_lt.mp back

theorem mark_le_raise (tally : Tally ι) (i : ι) (n : Nat) : tally.mark ≤ (tally.raise i n).mark := by
  unfold raise
  split
  · rename_i forward
    exact forward.le
  · exact le_rfl

theorem raise_mark_le {n m : Nat} (i : ι) (low : tally.mark ≤ m) (small : n ≤ m) :
    (tally.raise i n).mark ≤ m := by
  unfold raise
  split
  · exact small
  · exact low

@[simp] theorem counted_raise (tally : Tally ι) (i : ι) (n : Nat) :
    (tally.raise i n).counted = tally.counted := by
  unfold raise
  split <;> rfl

theorem owed_raise_of_ne {i j : ι} (other : j ≠ i) (tally : Tally ι) (n : Nat) :
    (tally.raise i n).owed j = tally.owed j := by
  unfold raise
  split
  · exact Function.update_of_ne other ..
  · rfl

theorem owed_settle_of_ne {i j : ι} (other : j ≠ i) (tally : Tally ι) :
    (tally.settle i).owed j = tally.owed j := by
  unfold settle
  split
  · exact Function.update_of_ne other ..
  · rfl

theorem owed_settle (tally : Tally ι) (i : ι) : (tally.settle i).owed i = none := by
  unfold settle
  split
  · exact Function.update_self ..
  · assumption

@[simp] theorem mark_settle (tally : Tally ι) (i : ι) : (tally.settle i).mark = tally.mark := by
  unfold settle
  split <;> rfl

theorem Sound.raise (sound : tally.Sound) {i : ι} (free : tally.owed i = none) (n : Nat) :
    (tally.raise i n).Sound := by
  unfold Tally.raise
  split
  · rename_i forward
    -- what was owed before lies below the old mark, what `i` owes now above it
    have older : ∀ j range, j ≠ i →
        Function.update tally.owed i (some (tally.mark, n)) j = some range →
        tally.owed j = some range := by
      intro j range other owes
      rwa [Function.update_of_ne other] at owes
    have own : ∀ range, Function.update tally.owed i (some (tally.mark, n)) i = some range →
        range = (tally.mark, n) := by
      intro range owes
      rw [Function.update_self] at owes
      exact (Option.some.inj owes).symm
    refine ⟨sound.once, fun m member => (sound.below m member).trans forward, ?_, ?_, ?_⟩
    · intro j range owes
      by_cases same : j = i
      · subst same
        rw [own range owes]
        refine ⟨le_rfl, fun m above _ counted => ?_⟩
        exact absurd (sound.below m counted) (Nat.not_lt.mpr above)
      · obtain ⟨low, fresh⟩ := sound.uncounted j range (older j range same owes)
        exact ⟨low.trans forward.le, fresh⟩
    · intro j k one two differ owesOne owesTwo
      by_cases first : j = i
      · subst first
        have low := (sound.uncounted k two (older k two (Ne.symm differ) owesTwo)).1
        rw [own one owesOne]
        exact .inr low
      · have low := (sound.uncounted j one (older j one first owesOne)).1
        by_cases second : k = i
        · subst second
          rw [own two owesTwo]
          exact .inl low
        · exact sound.apart j k one two differ (older j one first owesOne)
            (older k two second owesTwo)
    · intro m less
      by_cases old : m < tally.mark
      · rcases sound.covered m old with counted | ⟨j, range, owes, inside⟩
        · exact .inl counted
        · have other : j ≠ i := by
            rintro rfl
            rw [free] at owes
            cases owes
          exact .inr ⟨j, range, (Function.update_of_ne other ..).trans owes, inside⟩
      · exact .inr ⟨i, (tally.mark, n), Function.update_self .., Nat.not_lt.mp old, less⟩
  · exact sound

theorem Sound.settle (sound : tally.Sound) (i : ι) : (tally.settle i).Sound := by
  unfold Tally.settle
  split
  · rename_i low high owes
    obtain ⟨marked, fresh⟩ := sound.uncounted i (low, high) owes
    have listed : ∀ m, m ∈ List.range' low (high - low) ↔ low ≤ m ∧ m < high := by
      intro m
      rw [List.mem_range'_1]
      omega
    have others : ∀ j range, Function.update tally.owed i none j = some range →
        j ≠ i ∧ tally.owed j = some range := by
      intro j range owes
      have other : j ≠ i := by
        rintro rfl
        rw [Function.update_self] at owes
        cases owes
      rw [Function.update_of_ne other] at owes
      exact ⟨other, owes⟩
    constructor
    case once =>
      refine List.nodup_append'.mpr ⟨sound.once, List.nodup_range', ?_⟩
      intro m counted member
      obtain ⟨above, less⟩ := (listed m).mp member
      exact fresh m above less counted
    case below =>
      intro m member
      rcases List.mem_append.mp member with counted | member
      · exact sound.below m counted
      · exact ((listed m).mp member).2.trans_le marked
    case uncounted =>
      intro j range owed
      obtain ⟨other, owed⟩ := others j range owed
      obtain ⟨within, unseen⟩ := sound.uncounted j range owed
      refine ⟨within, fun m above less member => ?_⟩
      rcases List.mem_append.mp member with counted | member
      · exact unseen m above less counted
      · obtain ⟨start, stop⟩ := (listed m).mp member
        have split := sound.apart j i range (low, high) other owed owes
        dsimp only at split
        omega
    case apart =>
      intro j k one two differ owesOne owesTwo
      exact sound.apart j k one two differ (others j one owesOne).2 (others k two owesTwo).2
    case covered =>
      intro m less
      rcases sound.covered m less with counted | ⟨j, range, owed, inside⟩
      · exact .inl (List.mem_append_left _ counted)
      · by_cases same : j = i
        · subst same
          rw [owes] at owed
          cases owed
          exact .inl (List.mem_append_right _ ((listed m).mpr inside))
        · exact .inr ⟨j, range, (Function.update_of_ne same ..).trans owed, inside⟩
  · exact sound

end Tally
