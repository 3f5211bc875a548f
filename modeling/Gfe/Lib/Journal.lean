import Gfe.Lib.Crowd
import Mathlib.Algebra.BigOperators.Fin
import Mathlib.Algebra.Order.BigOperators.Group.Finset
import Mathlib.Algebra.Order.Group.Int

/-! # Programs that write to a journal

Programs share nothing but a journal: every action adds an entry to it, and none looks at
what is there. In whatever order they act, what one of them has written is the beginning of
what it writes when it is alone, so whatever is added up over the journal is the sum of what
each of them has come to.
-/

namespace Interleaving

/-- Entries in the order they were made, each with who made it. -/
abbrev Journal (ι ε : Type) := List (ι × ε)

namespace Journal

variable {ι ε M : Type}

section

variable [AddCommMonoid M]

def total (journal : Journal ι ε) (amount : ε → M) : M :=
  (journal.map fun entry => amount entry.2).sum

end

variable [DecidableEq ι]

/-- The entries of one writer. -/
def of (journal : Journal ι ε) (i : ι) : List ε :=
  (journal.filter fun entry => entry.1 = i).map Prod.snd

@[simp] theorem of_nil (i : ι) : of ([] : Journal ι ε) i = [] := rfl

theorem of_cons_self (i : ι) (entry : ε) (journal : Journal ι ε) :
    of ((i, entry) :: journal) i = entry :: of journal i := by
  simp [of]

theorem of_cons_of_ne {i j : ι} (other : j ≠ i) (entry : ε) (journal : Journal ι ε) :
    of ((j, entry) :: journal) i = of journal i := by
  simp [of, other]

theorem of_append (first second : Journal ι ε) (i : ι) :
    of (first ++ second) i = of first i ++ of second i := by
  simp [of]

theorem total_eq_sum [AddCommMonoid M] [Fintype ι] (journal : Journal ι ε) (amount : ε → M) :
    journal.total amount = ∑ i, ((journal.of i).map amount).sum := by
  induction journal with
  | nil => simp [total]
  | cons entry journal ih =>
    obtain ⟨writer, entry⟩ := entry
    have each : ∀ i, ((of ((writer, entry) :: journal) i).map amount).sum =
        (if i = writer then amount entry else 0) + ((of journal i).map amount).sum := by
      intro i
      by_cases same : i = writer
      · rw [same, of_cons_self, List.map_cons, List.sum_cons, if_pos rfl]
      · rw [of_cons_of_ne (Ne.symm same), if_neg same, zero_add]
    have here : ∑ i, (if i = writer then amount entry else 0) = amount entry := by
      simp
    rw [total] at ih
    rw [total, List.map_cons, List.sum_cons, ih, Finset.sum_congr rfl fun i _ => each i,
      Finset.sum_add_distrib, here]

end Journal

namespace Program

variable {ι ε α β : Type}

/-- Add an entry, in one action. -/
def note (i : ι) (entry : ε) : Program (Journal ι ε) Unit := .write (· ++ [(i, entry)])

/-- Whatever it finds, the program adds these entries as `i` and returns this. -/
inductive Notes (i : ι) : Program (Journal ι ε) α → List ε → α → Prop where
  | ret (value : α) : Notes i (.ret value) [] value
  | act {update next entry entries value} : (∀ journal, update journal = journal ++ [(i, entry)]) →
      (∀ journal, Notes i (next journal) entries value) →
      Notes i (.act update next) (entry :: entries) value

theorem notes_note (i : ι) (entry : ε) : (note i entry).Notes i [entry] () :=
  .act (fun _ => rfl) fun _ => .ret ()

theorem Notes.bind {i : ι} {p : Program (Journal ι ε) α} {f : α → Program (Journal ι ε) β}
    {first second : List ε} {value : α} {result : β} (notes : p.Notes i first value)
    (next : (f value).Notes i second result) : (p >>= f).Notes i (first ++ second) result := by
  induction notes with
  | ret value => exact next
  | act adds _ ih => exact .act adds fun journal => ih journal next

end Program

namespace Crowd

variable {ι ε α : Type} [DecidableEq ι] {c c' : Crowd ι (Journal ι ε) α} {trace : ι → List ε}
  {result : ι → α}

/-- What each writer has written, followed by what it has yet to write, is its trace. -/
theorem notes (start : ∀ i, (c.threads i).Notes i (trace i) (result i)) (fresh : c.state = [])
    (steps : Steps (fun _ _ => False) c c') :
    ∀ i, ∃ rest, (c'.threads i).Notes i rest (result i) ∧ c'.state.of i ++ rest = trace i := by
  induction steps with
  | refl =>
    intro i
    exact ⟨trace i, start i, by rw [fresh, Journal.of_nil, List.nil_append]⟩
  | tail _ last ih =>
    cases last with
    | env moved => exact moved.elim
    | @act threads s update next j here =>
      obtain ⟨left, notes, whole⟩ := ih j
      dsimp only at notes whole
      rw [here] at notes
      cases notes with
      | @act _ _ entry entries _ adds more =>
        intro i
        dsimp only
        rw [adds, Journal.of_append]
        by_cases same : i = j
        · subst same
          rw [Function.update_self, Journal.of_cons_self, Journal.of_nil]
          refine ⟨entries, more s, ?_⟩
          rw [List.append_assoc]
          exact whole
        · rw [Function.update_of_ne same, Journal.of_cons_of_ne (Ne.symm same),
            Journal.of_nil, List.append_nil]
          exact ih i

theorem of_returned (start : ∀ i, (c.threads i).Notes i (trace i) (result i)) (fresh : c.state = [])
    (steps : Steps (fun _ _ => False) c c') {i : ι} (returned : (c'.threads i).returned = true) :
    c'.state.of i = trace i := by
  obtain ⟨rest, notes, whole⟩ := notes start fresh steps i
  generalize c'.threads i = p at returned notes
  cases notes with
  | ret value => rw [← whole, List.append_nil]
  | act => cases returned

end Crowd

end Interleaving
