import Mathlib.Data.List.Basic

/-! # Separated lists

A list written in a line: its elements stand between separators, with blanks round
them that do not count. What holds a list may be written in another alphabet, as
long as the separators and the blanks are the same.
-/

namespace Separated

variable {α β : Type} {xs : List α}

/-- Without the blanks at either end. -/
def trim (blank : α → Bool) (xs : List α) : List α :=
  ((xs.dropWhile blank).reverse.dropWhile blank).reverse

/-- What stands between the separators. -/
def elements (sep blank : α → Bool) (xs : List α) : List (List α) :=
  (xs.splitOnP sep).map (trim blank)

theorem dropWhile_map {f : α → β} {p : β → Bool} {q : α → Bool}
    (same : ∀ x ∈ xs, p (f x) = q x) : (xs.map f).dropWhile p = (xs.dropWhile q).map f := by
  induction xs with
  | nil => rfl
  | cons x xs ih =>
    have rest := ih fun y member => same y (List.mem_cons_of_mem _ member)
    cases here : q x with
    | true => simp [same x List.mem_cons_self, here, rest]
    | false => simp [same x List.mem_cons_self, here]

theorem mem_of_mem_dropWhile {p : α → Bool} {x : α} (member : x ∈ xs.dropWhile p) :
    x ∈ xs :=
  (List.dropWhile_sublist p).subset member

theorem trim_map {f : α → β} {p : β → Bool} {q : α → Bool}
    (same : ∀ x ∈ xs, p (f x) = q x) : trim p (xs.map f) = (trim q xs).map f := by
  have back : ∀ x ∈ (xs.dropWhile q).reverse, p (f x) = q x := by
    intro x member
    exact same x (mem_of_mem_dropWhile (List.mem_reverse.mp member))
  rw [trim, dropWhile_map same, ← List.map_reverse, dropWhile_map back, ← List.map_reverse, trim]

theorem trim_of_none {blank : α → Bool} (none : ∀ x ∈ xs, blank x = false) :
    trim blank xs = xs := by
  have kept : ∀ {ys : List α}, (∀ y ∈ ys, blank y = false) → ys.dropWhile blank = ys := by
    intro ys none
    cases ys with
    | nil => rfl
    | cons y ys => exact List.dropWhile_cons_of_neg (by simp [none y List.mem_cons_self])
  rw [trim, kept none, kept (by simpa using none), List.reverse_reverse]

theorem trim_cons {blank : α → Bool} {x : α} (white : blank x = true) (xs : List α) :
    trim blank (x :: xs) = trim blank xs := by
  rw [trim, List.dropWhile_cons_of_pos white, trim]

theorem splitOnP_map {f : α → β} {p : β → Bool} {q : α → Bool}
    (same : ∀ x ∈ xs, p (f x) = q x) :
    (xs.map f).splitOnP p = (xs.splitOnP q).map (List.map f) := by
  induction xs with
  | nil => rfl
  | cons x xs ih =>
    have rest := ih fun y member => same y (List.mem_cons_of_mem _ member)
    have split := List.splitOnP_ne_nil q xs
    rw [List.map_cons, List.splitOnP_cons_eq_if_modifyHead, List.splitOnP_cons_eq_if_modifyHead,
      same x List.mem_cons_self, rest]
    cases parts : xs.splitOnP q with
    | nil => exact absurd parts split
    | cons first others =>
      split
      · rfl
      · rfl

theorem mem_of_mem_splitOnP {p : α → Bool} {xs part : List α} {x : α}
    (one : part ∈ xs.splitOnP p) (member : x ∈ part) : x ∈ xs := by
  induction xs generalizing part with
  | nil =>
    rw [List.splitOnP_nil, List.mem_singleton] at one
    exact one ▸ member
  | cons y ys ih =>
    rw [List.splitOnP_cons_eq_if_modifyHead] at one
    split at one
    · cases one with
      | head => cases member
      | tail _ later => exact List.mem_cons_of_mem _ (ih later member)
    · cases parts : ys.splitOnP p with
      | nil => exact absurd parts (List.splitOnP_ne_nil p ys)
      | cons first others =>
        rw [parts, List.modifyHead_cons] at one
        cases one with
        | head =>
          cases member with
          | head => exact List.mem_cons_self
          | tail _ inside => exact List.mem_cons_of_mem _ (ih (by simp [parts]) inside)
        | tail _ later => exact List.mem_cons_of_mem _ (ih (parts ▸ .tail _ later) member)

theorem elements_map {f : α → β} {sep blank : β → Bool} {sep' blank' : α → Bool}
    (seps : ∀ x ∈ xs, sep (f x) = sep' x) (blanks : ∀ x ∈ xs, blank (f x) = blank' x) :
    elements sep blank (xs.map f) = (elements sep' blank' xs).map (List.map f) := by
  unfold elements
  rw [splitOnP_map seps, List.map_map, List.map_map]
  apply List.map_congr_left
  intro part one
  exact trim_map fun x member => blanks x (mem_of_mem_splitOnP one member)

theorem elements_ne_nil (sep blank : α → Bool) (xs : List α) : elements sep blank xs ≠ [] := by
  simp [elements]

/-- One more element at the end of a line. -/
theorem elements_append {sep blank : α → Bool} (xs : List α) {s : α} (separates : sep s = true)
    {last : List α} (one : ∀ x ∈ last, sep x = false) :
    elements sep blank (xs ++ s :: last) = elements sep blank xs ++ [trim blank last] := by
  rw [elements, List.splitOnP_append_cons _ _ separates, List.splitOnP_eq_singleton one,
    List.map_append]
  rfl

end Separated
