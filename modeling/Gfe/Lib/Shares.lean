import Mathlib.Algebra.Order.BigOperators.Group.Finset
import Mathlib.Algebra.BigOperators.Group.Finset.Piecewise
import Mathlib.Algebra.BigOperators.Ring.Finset
import Mathlib.Tactic.Linarith
import Mathlib.Tactic.Ring

/-! # Shares by weight

Units are handed out one by one to holders of positive weights, each to a holder
that would then have the least per unit of weight. No holder gets ahead of another
by more than one unit, and whenever the number of units is a multiple of the sum
of the weights each holder has that multiple of its weight. Fractions are compared
as products.
-/

namespace Shares

variable {ι : Type} (w : ι → Int)

/-- Nobody would be better off by less than one unit: what `i` has per unit of weight
    is at most what `j` would have with one more. -/
def Fair (h : ι → Int) : Prop := ∀ i j, h i * w j ≤ (h j + 1) * w i

/-- With one more unit, nobody would have less per unit of weight. -/
def Least (h : ι → Int) (i : ι) : Prop := ∀ j, (h i + 1) * w j ≤ (h j + 1) * w i

variable {w}

theorem Fair.zero (positive : ∀ i, 0 < w i) : Fair w fun _ => 0 := by
  intro i j
  have := positive i
  simp only [Int.zero_mul, Int.zero_add, Int.one_mul]
  omega

theorem Fair.give [DecidableEq ι] (positive : ∀ i, 0 < w i) {h : ι → Int} (fair : Fair w h) {i : ι}
    (least : Least w h i) : Fair w (Function.update h i (h i + 1)) := by
  intro a b
  by_cases first : a = i
  · subst first
    by_cases second : b = a
    · subst second
      simp only [Function.update_self]
      nlinarith [positive b]
    · simpa [Function.update_of_ne second] using least b
  · rw [Function.update_of_ne first]
    by_cases second : b = i
    · subst second
      simp only [Function.update_self]
      nlinarith [fair a b, positive a]
    · simpa [Function.update_of_ne second] using fair a b

theorem trans {a b c x y z : Int} (b_pos : 0 < b) (first : a * b ≤ x * c) (second : x * z ≤ y * b)
    (c_nonneg : 0 ≤ c) (z_nonneg : 0 ≤ z) : a * z ≤ y * c := by
  have scaled : a * z * b ≤ y * c * b := by
    calc a * z * b = a * b * z := by ring
      _ ≤ x * c * z := by gcongr
      _ = x * z * c := by ring
      _ ≤ y * b * c := by gcongr
      _ = y * c * b := by ring
  exact le_of_mul_le_mul_right scaled b_pos

variable [Fintype ι]

theorem sum_give [DecidableEq ι] (h : ι → Int) (i : ι) :
    ∑ j, Function.update h i (h i + 1) j = (∑ j, h j) + 1 := by
  rw [Finset.sum_update_of_mem (Finset.mem_univ i), ← Finset.add_sum_erase _ h (Finset.mem_univ i),
    Finset.sdiff_singleton_eq_erase]
  ring

/-- Fair shares of a multiple of all weights are that multiple of each weight. -/
theorem Fair.exact (positive : ∀ i, 0 < w i) {h : ι → Int} (fair : Fair w h) {k : Int}
    (whole : ∑ i, h i = k * ∑ i, w i) (i : ι) : h i = k * w i := by
  rw [Finset.mul_sum] at whole
  -- if one had too much, another would have too little
  have most : ∀ i, h i ≤ k * w i := by
    intro i
    by_contra above
    have less : ∃ j, h j < k * w j := by
      by_contra none
      push Not at none
      have := Finset.sum_lt_sum (fun j _ => none j) ⟨i, Finset.mem_univ i, by omega⟩
      omega
    obtain ⟨j, below⟩ := less
    have heavy := positive j
    have : (k * w i + 1) * w j ≤ k * w j * w i := by
      calc (k * w i + 1) * w j ≤ h i * w j := by
            gcongr
            omega
        _ ≤ (h j + 1) * w i := fair i j
        _ ≤ k * w j * w i := by
            have := (positive i).le
            gcongr
            omega
    nlinarith
  exact (Finset.sum_eq_sum_iff_of_le fun i _ => most i).mp whole i (Finset.mem_univ i)

end Shares
