import Mathlib.Data.List.MinMax
import Mathlib.Data.List.Sort

/-! # The first match in a ranked list

Sorting once by descending rank and taking the first match answers the question
"which match ranks highest, the earliest one on a tie". The left side is what
an index does; the right side, `List.argmax` over the matches, is what it means.
-/

namespace Ranking

variable {α β ι κ : Type} [LinearOrder κ] [LinearOrder ι]

def sortDescending (rank : α → κ) (l : List α) : List α :=
  l.insertionSort fun a b => rank b ≤ rank a

theorem find?_orderedInsert (rank : α → κ) (p : α → Bool) (a : α) (l : List α)
    (sorted : l.Pairwise fun a b => rank b ≤ rank a) :
    (l.orderedInsert (fun a b => rank b ≤ rank a) a).find? p =
      if p a then
        match l.find? p with
        | none => some a
        | some c => if rank a < rank c then some c else some a
      else l.find? p := by
  induction l with
  | nil => cases accepted : p a <;> simp [accepted]
  | cons b l ih =>
    obtain ⟨below, sorted⟩ := List.pairwise_cons.mp sorted
    rw [List.orderedInsert_cons]
    by_cases le : rank b ≤ rank a
    · rw [if_pos le]
      cases accepted : p a with
      | false => simp [accepted]
      | true =>
        simp only [List.find?_cons_of_pos accepted, if_true]
        cases found : (b :: l).find? p with
        | none => rfl
        | some c =>
          -- the list is sorted, so what it finds does not outrank its head
          have bounded : rank c ≤ rank b := by
            rcases List.mem_cons.mp (List.mem_of_find?_eq_some found) with rfl | member
            · exact le_rfl
            · exact below c member
          simp only [if_neg (not_lt.mpr (bounded.trans le))]
    · rw [if_neg le]
      cases skipped : p b with
      | false => simp only [List.find?_cons, skipped, ih sorted]
      | true =>
        simp only [List.find?_cons, skipped]
        cases p a <;> simp [not_le.mp le]

/-- The first match of a ranked list is its highest-ranking match. -/
theorem find?_sortDescending (rank : α → κ) (p : α → Bool) (l : List α) :
    (sortDescending rank l).find? p = (l.filter p).argmax rank := by
  induction l with
  | nil => rfl
  | cons a l ih =>
    have total : Std.Total fun a b : α => rank b ≤ rank a := ⟨fun a b => le_total _ _⟩
    have trans : IsTrans α fun a b => rank b ≤ rank a := ⟨fun a b c ab bc => bc.trans ab⟩
    rw [sortDescending, List.insertionSort_cons,
      find?_orderedInsert rank p a _ (List.pairwise_insertionSort _ l)]
    change (if p a then match (sortDescending rank l).find? p with
      | none => some a
      | some c => if rank a < rank c then some c else some a
      else (sortDescending rank l).find? p) = _
    rw [ih]
    cases accepted : p a with
    | false => simp [accepted]
    | true =>
      rw [List.filter_cons_of_pos accepted, List.argmax_cons]
      cases (l.filter p).argmax rank <;> rfl

theorem mem_sortDescending {rank : α → κ} {l : List α} {a : α} :
    a ∈ sortDescending rank l ↔ a ∈ l :=
  List.mem_insertionSort _

theorem argmax_map (rank : β → κ) (f : α → β) (l : List α) :
    (l.map f).argmax rank = (l.argmax (rank ∘ f)).map f := by
  induction l with
  | nil => rfl
  | cons a l ih =>
    rw [List.map_cons, List.argmax_cons, List.argmax_cons, ih]
    cases l.argmax (rank ∘ f) with
    | none => rfl
    | some c => simp only [Option.map_some, Function.comp_apply]; split <;> rfl

theorem argmax_congr {rank : α → κ} {rank' : α → ι} {l : List α}
    (same : ∀ a ∈ l, ∀ b ∈ l, rank a < rank b ↔ rank' a < rank' b) :
    l.argmax rank = l.argmax rank' := by
  induction l with
  | nil => rfl
  | cons a l ih =>
    rw [List.argmax_cons, List.argmax_cons,
      ih fun b hb c hc => same b (List.mem_cons_of_mem _ hb) c (List.mem_cons_of_mem _ hc)]
    cases best : l.argmax rank' with
    | none => rfl
    | some c =>
      have member : c ∈ a :: l := List.mem_cons_of_mem _ (List.argmax_mem best)
      simp only [same a List.mem_cons_self c member]

/-- When every element of one kind outranks every element of the other, the
    second kind counts only if there is none of the first. -/
theorem argmax_of_split (rank : α → κ) (upper : α → Bool) (l : List α)
    (above : ∀ a ∈ l, ∀ b ∈ l, upper a → ¬ upper b → rank b < rank a) :
    l.argmax rank =
      ((l.filter upper).argmax rank).or ((l.filter fun a => !upper a).argmax rank) := by
  induction l with
  | nil => rfl
  | cons a l ih =>
    have rest := ih fun b hb c hc =>
      above b (List.mem_cons_of_mem _ hb) c (List.mem_cons_of_mem _ hc)
    rw [List.argmax_cons, rest]
    cases kind : upper a with
    | true =>
      rw [List.filter_cons_of_pos kind, List.argmax_cons,
        List.filter_cons_of_neg (by simp [kind])]
      cases (l.filter upper).argmax rank with
      | some c => simp only [Option.some_or]; split <;> rfl
      | none =>
        cases lower : (l.filter fun a => !upper a).argmax rank with
        | none => rfl
        | some c =>
          obtain ⟨member, other⟩ := List.mem_filter.mp (List.argmax_mem lower)
          have less := above a List.mem_cons_self c (List.mem_cons_of_mem _ member)
            kind (by simpa using other)
          simp only [Option.none_or, Option.some_or, if_neg less.not_gt]
    | false =>
      rw [List.filter_cons_of_neg (by simp [kind]), List.filter_cons_of_pos (by simp [kind]),
        List.argmax_cons]
      cases best : (l.filter upper).argmax rank with
      | none => rfl
      | some c =>
        obtain ⟨member, higher⟩ := List.mem_filter.mp (List.argmax_mem best)
        have less := above c (List.mem_cons_of_mem _ member) a List.mem_cons_self
          higher (by simp [kind])
        simp only [Option.some_or, if_pos less]

theorem findSome?_of_agree {f : α → Option β} {l : List α} {a : α} (member : a ∈ l)
    (agree : ∀ b ∈ l, f b = none ∨ f b = f a) : l.findSome? f = f a := by
  induction l with
  | nil => cases member
  | cons b l ih =>
    rw [List.findSome?_cons]
    rcases agree b List.mem_cons_self with silent | same
    · rw [silent]
      rcases List.mem_cons.mp member with rfl | member
      · rw [silent, List.findSome?_eq_none_iff]
        intro c inside
        rcases agree c (List.mem_cons_of_mem _ inside) with none | same
        · exact none
        · rw [same, silent]
      · exact ih member fun c inside => agree c (List.mem_cons_of_mem _ inside)
    · rw [same]
      cases answer : f a with
      | some value => rfl
      | none =>
        rw [List.findSome?_eq_none_iff]
        intro c inside
        rcases agree c (List.mem_cons_of_mem _ inside) with none | same
        · exact none
        · rw [same, answer]

end Ranking
