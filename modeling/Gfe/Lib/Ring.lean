import Mathlib.Data.List.Rotate
import Mathlib.Data.List.Sort

/-! # Rings of ranked points

Points in the order of their ranks, walked round from a rank: first those at or
after it, then those before it. The walk starts where a binary search finds the
first point at or after the rank. Leaving points out of a ring leaves the order
of the others as it was, on the ring and on the walk.
-/

namespace Ring

variable {α κ : Type} {before : α → Bool}

/-! ## Binary search -/

/-- Halve the part of a list that is still open: it starts at `base` and has
    `size` places. -/
def narrow (before : Nat → Bool) (base size : Nat) : Nat :=
  if size ≤ 1 then base
  else narrow before (if before (base + size / 2) then base + size / 2 else base) (size - size / 2)
termination_by size

/-- `partition_point`: how many points come first, if those for which `before`
    holds do. -/
def partitionPoint (before : α → Bool) (xs : List α) : Nat :=
  if xs.length = 0 then 0
  else
    let at? := fun i => xs[i]?.any before
    let base := narrow at? 0 xs.length
    base + if at? base then 1 else 0

theorem narrow_eq {before : Nat → Bool} {point : Nat} (split : ∀ i, before i = true ↔ i < point)
    (base size : Nat) (some : 0 < size) (low : base = 0 ∨ base < point)
    (high : point ≤ base + size) :
    (narrow before base size + if before (narrow before base size) then 1 else 0) = point := by
  fun_induction narrow before base size with
  | case1 base size small =>
    by_cases here : before base = true
    · have := (split base).mp here
      simp only [here, if_true]
      omega
    · have := mt (split base).mpr here
      simp only [here]
      simp
      omega
  | case2 base size large ih =>
    by_cases here : before (base + size / 2) = true
    · have := (split _).mp here
      simp only [here, dite_true] at ih ⊢
      exact ih (by omega) (by omega) (by omega)
    · have := mt (split _).mpr here
      simp only [here, Bool.false_eq_true, dite_false] at ih ⊢
      exact ih (by omega) low (by omega)

/-- The points for which `before` holds come first. -/
def Partitioned (before : α → Bool) (xs : List α) : Prop :=
  xs.Pairwise fun a b => before b = true → before a = true

theorem Partitioned.eq_append {xs : List α} (parted : Partitioned before xs) :
    xs = xs.filter before ++ xs.filter (!before ·) := by
  induction xs with
  | nil => rfl
  | cons x xs ih =>
    obtain ⟨first, rest⟩ := List.pairwise_cons.mp parted
    cases here : before x with
    | true => simpa [here] using ih rest
    | false =>
      have none : xs.filter before = [] := by
        rw [List.filter_eq_nil_iff]
        intro y member holds
        rw [first y member holds] at here
        cases here
      have all : xs.filter (!before ·) = xs := by
        rw [List.filter_eq_self]
        intro y member
        cases holds : before y with
        | false => rfl
        | true =>
          rw [first y member holds] at here
          cases here
      simp [here, none, all]

/-- Binary search finds the border. -/
theorem partitionPoint_eq {xs : List α} (parted : Partitioned before xs) :
    partitionPoint before xs = (xs.filter before).length := by
  have split : ∀ i, xs[i]?.any before = true ↔ i < (xs.filter before).length := by
    intro i
    conv_lhs => rw [parted.eq_append]
    rw [List.getElem?_append]
    split
    · rename_i early
      have holds := (List.mem_filter.mp (List.getElem_mem early)).2
      simp [holds, early]
    · rename_i late
      refine iff_of_false ?_ late
      generalize here : (xs.filter (!before ·))[i - (xs.filter before).length]? = found
      cases found with
      | none => exact Bool.false_ne_true
      | some x =>
        have fails := (List.mem_filter.mp (List.mem_of_getElem? here)).2
        simpa using fails
  unfold partitionPoint
  split
  · rename_i empty
    rw [List.length_eq_zero_iff.mp empty]
    rfl
  · rename_i nonempty
    exact narrow_eq split 0 xs.length (Nat.pos_of_ne_zero nonempty) (.inl rfl)
      ((List.length_filter_le ..).trans (Nat.le_add_left ..))

/-- The points as a walk meets them: those `before` does not hold for, then the
    others. -/
def round (before : α → Bool) (xs : List α) : List α := xs.filter (!before ·) ++ xs.filter before

theorem rotate_partitionPoint {xs : List α} (parted : Partitioned before xs) :
    xs.rotate (partitionPoint before xs) = round before xs := by
  rw [partitionPoint_eq parted, List.rotate_eq_drop_append_take (List.length_filter_le ..)]
  conv_lhs => rw [parted.eq_append]
  rw [List.filter_append, List.filter_filter, List.filter_filter]
  simp [round]

theorem filterMap_range (xs : List α) : ((List.range xs.length).filterMap (xs[·]?)) = xs := by
  induction xs using List.reverseRecOn with
  | nil => rfl
  | append_singleton xs x ih =>
    have same : (List.range xs.length).filterMap ((xs ++ [x])[·]?) =
        (List.range xs.length).filterMap (xs[·]?) :=
      List.filterMap_congr fun i member => List.getElem?_append_left (List.mem_range.mp member)
    simp [List.range_succ, same, ih]

theorem filterMap_range_rotate (xs : List α) (start : Nat) :
    ((List.range xs.length).filterMap fun off => xs[(start + off) % xs.length]?) =
      xs.rotate start := by
  rw [← filterMap_range (xs.rotate start), List.length_rotate]
  apply List.filterMap_congr
  intro off member
  rw [List.getElem?_rotate (List.mem_range.mp member), Nat.add_comm]

theorem mem_round {xs : List α} {x : α} : x ∈ round before xs ↔ x ∈ xs := by
  cases holds : before x <;> simp [round, holds]

theorem round_map {β : Type} (f : α → β) (before : β → Bool) (xs : List α) :
    round before (xs.map f) = (round (before ∘ f) xs).map f := by
  simp only [round, List.filter_map, List.map_append, Function.comp_def]

theorem round_filter (before keep : α → Bool) (xs : List α) :
    round before (xs.filter keep) = (round before xs).filter keep := by
  simp only [round, List.filter_append, List.filter_filter, Bool.and_comm]

/-! ## Leaving points out -/

variable {r : α → α → Prop} [DecidableRel r] [IsTrans α r]

theorem filter_orderedInsert (keep : α → Bool) (a : α) {l : List α} (sorted : l.Pairwise r) :
    (l.orderedInsert r a).filter keep =
      if keep a then (l.filter keep).orderedInsert r a else l.filter keep := by
  induction l with
  | nil => cases kept : keep a <;> simp [kept]
  | cons b l ih =>
    obtain ⟨first, rest⟩ := List.pairwise_cons.mp sorted
    by_cases here : r a b
    · have front : ∀ c ∈ (b :: l).filter keep, r a c := by
        intro c member
        rcases List.mem_cons.mp (List.mem_of_mem_filter member) with rfl | later
        · exact here
        · exact IsTrans.trans a b c here (first c later)
      rw [List.orderedInsert_cons_of_le r l here, List.filter_cons]
      split
      · generalize (b :: l).filter keep = kept at front ⊢
        cases kept with
        | nil => rfl
        | cons c cs => exact (List.orderedInsert_cons_of_le r cs (front c List.mem_cons_self)).symm
      · rfl
    · rw [List.orderedInsert_of_not_le r l here, List.filter_cons, ih rest, List.filter_cons]
      cases keep a <;> cases keep b <;> simp [here]

theorem filter_insertionSort [Std.Total r] (keep : α → Bool) (l : List α) :
    (l.insertionSort r).filter keep = (l.filter keep).insertionSort r := by
  induction l with
  | nil => rfl
  | cons a l ih =>
    rw [List.insertionSort_cons, filter_orderedInsert keep a (List.pairwise_insertionSort r l), ih,
      List.filter_cons]
    split <;> rfl

omit [DecidableRel r] [IsTrans α r] in
/-- The first point wanted is one that was left out, or the same with and
    without those left out. -/
theorem find?_filter_or (keep wanted : α → Bool) (l : List α) :
    (l.filter keep).find? wanted = l.find? wanted ∨
      ∃ x, l.find? wanted = some x ∧ keep x = false := by
  simp only [List.find?_filter, Bool.decide_and, Bool.decide_eq_true]
  induction l with
  | nil => exact .inl rfl
  | cons x l ih => cases kept : keep x <;> cases here : wanted x <;> simp [kept, here, ih]

end Ring
