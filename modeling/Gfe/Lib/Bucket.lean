import Mathlib.Algebra.BigOperators.Group.List.Basic
import Mathlib.Algebra.GroupWithZero.Nat
import Mathlib.Algebra.Order.Group.Nat

/-! # Capped accounts

An account of units that never holds more than a cap. Each time it is asked, it
first earns something and then pays a fixed cost if it can. Two inequalities say
what a series of asks can pay: no more than what was there and what was earned,
and no less than what the cap lets through of it.
-/

namespace Bucket

/-- What an account holds after earning. -/
def earn (cap level gain : Nat) : Nat := min cap (level + gain)

theorem earn_le (cap level gain : Nat) : earn cap level gain ≤ cap := min_le_left ..

theorem earn_zero {cap level : Nat} (within : level ≤ cap) : earn cap level 0 = level :=
  min_eq_right within

theorem earn_full (cap gain : Nat) : earn cap cap gain = cap := min_eq_left (Nat.le_add_right ..)

theorem earn_earn (cap level first second : Nat) :
    earn cap (earn cap level first) second = earn cap level (first + second) := by
  simp only [earn]
  omega

/-- Earn, then pay the cost if it is there. -/
@[irreducible] def ask (cap cost level gain : Nat) : Bool × Nat :=
  let level := earn cap level gain
  if cost ≤ level then (true, level - cost) else (false, level)

theorem ask_spends (cap cost level gain : Nat) :
    (ask cap cost level gain).2 + (if (ask cap cost level gain).1 then cost else 0) =
      earn cap level gain := by
  simp only [ask]
  split
  · simp only [if_true]
    omega
  · simp

theorem ask_le (cap cost level gain : Nat) : (ask cap cost level gain).2 ≤ cap := by
  have spent := ask_spends cap cost level gain
  have within := earn_le cap level gain
  omega

/-- The account is asked once for every gain. -/
def asks (cap cost : Nat) : Nat → List Nat → List Bool × Nat
  | level, [] => ([], level)
  | level, gain :: rest =>
    let asked := ask cap cost level gain
    let later := asks cap cost asked.2 rest
    (asked.1 :: later.1, later.2)

theorem asks_cons (cap cost level gain : Nat) (rest : List Nat) :
    asks cap cost level (gain :: rest) =
      ((ask cap cost level gain).1 :: (asks cap cost (ask cap cost level gain).2 rest).1,
        (asks cap cost (ask cap cost level gain).2 rest).2) := rfl

/-- How many asks were paid. -/
def paid (answers : List Bool) : Nat := answers.count true

@[simp] theorem paid_nil : paid [] = 0 := rfl

@[simp] theorem paid_cons (answer : Bool) (answers : List Bool) :
    paid (answer :: answers) = paid answers + if answer then 1 else 0 := by
  cases answer <;> simp [paid]

/-- What is left and what was paid were there or were earned. -/
theorem asks_le_earned (cap cost level : Nat) (gains : List Nat) :
    (asks cap cost level gains).2 + paid (asks cap cost level gains).1 * cost ≤
      level + gains.sum := by
  induction gains generalizing level with
  | nil => simp [asks]
  | cons gain rest ih =>
    have spent := ask_spends cap cost level gain
    have later := ih (ask cap cost level gain).2
    have capped : earn cap level gain ≤ level + gain := min_le_right ..
    simp only [asks, paid_cons, List.sum_cons]
    cases answer : (ask cap cost level gain).1 <;>
      simp only [answer, if_true, Bool.false_eq_true, if_false, Nat.add_mul, one_mul] at spent ⊢ <;>
      omega

theorem earned_le_asks (cap cost level : Nat) (gains : List Nat) :
    earn cap level gains.sum ≤
      (asks cap cost level gains).2 + paid (asks cap cost level gains).1 * cost := by
  induction gains generalizing level with
  | nil => simp [asks, earn]
  | cons gain rest ih =>
    have spent := ask_spends cap cost level gain
    have later := ih (ask cap cost level gain).2
    have split : earn cap level (gain + rest.sum) =
        earn cap (earn cap level gain) rest.sum := (earn_earn ..).symm
    simp only [asks, paid_cons, List.sum_cons, split, ← spent]
    simp only [earn] at later ⊢
    cases (ask cap cost level gain).1 <;>
      simp only [if_true, Bool.false_eq_true, if_false, Nat.add_mul, one_mul] <;>
      omega

end Bucket
