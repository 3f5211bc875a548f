import Mathlib.Data.Option.Basic
import Mathlib.Logic.Function.Basic

/-! # Things that are in one place

A thing that is owned is in one place at a time: it is put somewhere, moved from
one place to another or thrown away, and never copied. Things are known by
numbers, and what does not exist yet has a number that was not given out.
-/

structure Custody {ι : Type} (held : ι → Option Nat) (next : Nat) : Prop where
  apart : ∀ p q k, held p = some k → held q = some k → p = q
  issued : ∀ p k, held p = some k → k < next

namespace Custody

variable {ι : Type} {held held' : ι → Option Nat} {next next' : Nat}

/-- Things are moved or thrown away: whatever is in a place was in its `origin`
    before, and no two places have one origin. -/
theorem moved (custody : Custody held next) (origin : ι → ι)
    (came : ∀ p k, held' p = some k → held (origin p) = some k)
    (distinct : ∀ p q k, held' p = some k → held' q = some k → origin p = origin q → p = q)
    (later : next ≤ next') : Custody held' next' := by
  constructor
  · intro p q k here there
    exact distinct p q k here there
      (custody.apart _ _ k (came p k here) (came q k there))
  · intro p k here
    have known := custody.issued _ k (came p k here)
    omega

theorem narrow (custody : Custody held next) (came : ∀ p k, held' p = some k → held p = some k)
    (later : next ≤ next') : Custody held' next' :=
  custody.moved id came (fun _ _ _ _ _ same => same) later

theorem put [DecidableEq ι] (custody : Custody held next) (place : ι) {k : Nat}
    (unheld : ∀ p, held p ≠ some k) (known : k < next') (later : next ≤ next') :
    Custody (Function.update held place (some k)) next' := by
  constructor
  · intro p q j here there
    by_cases atP : p = place
    · by_cases atQ : q = place
      · exact atP.trans atQ.symm
      · simp only [atP, atQ, Function.update_self, ne_eq, not_false_eq_true,
          Function.update_of_ne, Option.some.injEq] at here there
        exact absurd (here ▸ there) (unheld q)
    · by_cases atQ : q = place
      · simp only [atP, atQ, Function.update_self, ne_eq, not_false_eq_true,
          Function.update_of_ne, Option.some.injEq] at here there
        exact absurd (there ▸ here) (unheld p)
      · simp only [atP, atQ, ne_eq, not_false_eq_true, Function.update_of_ne] at here there
        exact custody.apart p q j here there
  · intro p j here
    by_cases atP : p = place
    · simp only [atP, Function.update_self, Option.some.injEq] at here
      omega
    · simp only [atP, ne_eq, not_false_eq_true, Function.update_of_ne] at here
      have before := custody.issued p j here
      omega

theorem create [DecidableEq ι] (custody : Custody held next) (place : ι) :
    Custody (Function.update held place (some next)) (next + 1) :=
  custody.put place (fun p here => absurd (custody.issued p next here) (Nat.lt_irrefl next))
    (Nat.lt_succ_self next) (Nat.le_succ next)

end Custody
