import Gfe.Lib.Crowd
import Gfe.Lib.Fallible
import Mathlib.Data.Int.CardIntervalMod

/-! # Programs that draw a number

Any number of programs share a counter. Each draws one number from it, at a moment
of its own, and answers by the number it drew. However they are interleaved, they
draw the numbers from where the counter stood, each once.
-/

namespace Interleaving

variable {ι σ τ α β : Type}

namespace Program

variable {f : α → Fallible σ ε β} {f : α → Program σ β}

/-- As long as an invariant holds, the program keeps it, leaves the counter alone and ends
    with a good result. -/
def Quiet (inv : σ → Prop) (counter : σ → τ) : Program σ α → (α → Prop) → Prop
  | .ret value, good => good value
  | .act update next, good => ∀ s, inv s →
      inv (update s) ∧ counter (update s) = counter s ∧ Quiet inv counter (next s) good

/-- The program draws one number on its way and ends with a result that answers it. -/
def Draws (inv : σ → Prop) (counter : σ → τ) (succ : τ → τ) :
    Program σ α → (τ → α → Prop) → Prop
  | .ret _, _ => False
  | .act update next, answer => ∀ s, inv s → inv (update s) ∧
      ((counter (update s) = counter s ∧ Draws inv counter succ (next s) answer) ∨
        (counter (update s) = succ (counter s) ∧
          Quiet inv counter (next s) (answer (counter s))))

variable {inv : σ → Prop} {counter : σ → τ} {succ : τ → τ}

namespace Quiet

theorem bind {p : Program σ α} {good : α → Prop} {good' : β → Prop}
    (first : Quiet inv counter p good) (rest : ∀ value, good value → Quiet inv counter (f value) good') :
    Quiet inv counter (p >>= f) good' := by
  induction p with
  | ret value => exact rest value first
  | act update next ih =>
    intro s held
    obtain ⟨kept, same, quiet⟩ := first s held
    exact ⟨kept, same, ih s quiet⟩

theorem exchange {change : σ → α × σ} {good : α → Prop}
    (step : ∀ s, inv s → inv (change s).2 ∧ counter (change s).2 = counter s ∧ good (change s).1) :
    Quiet inv counter (.exchange change) good :=
  step

end Quiet

namespace Draws

variable {answer : τ → α → Prop} {answer' : τ → β → Prop}

theorem after {p : Program σ α} {good : α → Prop}
    (first : Quiet inv counter p good)
    (rest : ∀ value, good value → Draws inv counter succ (f value) answer') :
    Draws inv counter succ (p >>= f) answer' := by
  induction p with
  | ret value => exact rest value first
  | act update next ih =>
    intro s held
    obtain ⟨kept, same, quiet⟩ := first s held
    exact ⟨kept, .inl ⟨same, ih s quiet⟩⟩

theorem bind {p : Program σ α} (first : Draws inv counter succ p answer)
    (rest : ∀ number value, answer number value → Quiet inv counter (f value) (answer' number)) :
    Draws inv counter succ (p >>= f) answer' := by
  induction p with
  | ret value => exact first.elim
  | act update next ih =>
    intro s held
    obtain ⟨kept, drawn⟩ := first s held
    refine ⟨kept, ?_⟩
    cases drawn with
    | inl later => exact .inl ⟨later.1, ih s later.2⟩
    | inr now => exact .inr ⟨now.1, now.2.bind (rest (counter s))⟩

theorem exchange {change : σ → α × σ}
    (step : ∀ s, inv s → inv (change s).2 ∧ counter (change s).2 = succ (counter s) ∧
      answer (counter s) (change s).1) :
    Draws inv counter succ (.exchange change) answer := by
  intro s held
  obtain ⟨kept, counted, drawn⟩ := step s held
  exact ⟨kept, .inr ⟨counted, drawn⟩⟩

end Draws

end Program

/-! ## Programs that may fail, and do not -/

namespace Fallible

variable {ε : Type} {inv : σ → Prop} {counter : σ → τ} {succ : τ → τ} {good : α → Prop}
  {good' : β → Prop} {answer : τ → α → Prop} {answer' : τ → β → Prop}

def Quiet (inv : σ → Prop) (counter : σ → τ) (p : Fallible σ ε α) (good : α → Prop) : Prop :=
  Program.Quiet inv counter (ExceptT.run p) fun result => ∃ value, result = .ok value ∧ good value

def Draws (inv : σ → Prop) (counter : σ → τ) (succ : τ → τ) (p : Fallible σ ε α)
    (answer : τ → α → Prop) : Prop :=
  Program.Draws inv counter succ (ExceptT.run p) fun number result =>
    ∃ value, result = .ok value ∧ answer number value

theorem Quiet.pure {value : α} (here : good value) :
    Quiet inv counter (Pure.pure value : Fallible σ ε α) good :=
  ⟨value, rfl, here⟩

theorem Quiet.ofExcept {result : Except ε α} {value : α} (ended : result = .ok value)
    (here : good value) : Quiet inv counter (Fallible.ofExcept result : Fallible σ ε α) good :=
  ⟨value, ended, here⟩

theorem Quiet.lift {p : Program σ α} (quiet : p.Quiet inv counter good) :
    Quiet inv counter (monadLift p : Fallible σ ε α) good :=
  quiet.bind fun value here => ⟨value, rfl, here⟩

theorem Quiet.bind {p : Fallible σ ε α} (first : Quiet inv counter p good)
    (rest : ∀ value, good value → Quiet inv counter (f value) good') :
    Quiet inv counter (p >>= f) good' := by
  unfold Quiet
  rw [ExceptT.run_bind]
  refine Program.Quiet.bind first ?_
  rintro _ ⟨value, rfl, here⟩
  exact rest value here

theorem Draws.lift {p : Program σ α} (draws : p.Draws inv counter succ answer) :
    Draws inv counter succ (monadLift p : Fallible σ ε α) answer :=
  draws.bind fun _ value here => ⟨value, rfl, here⟩

theorem Draws.after {p : Fallible σ ε α} (first : Quiet inv counter p good)
    (rest : ∀ value, good value → Draws inv counter succ (f value) answer') :
    Draws inv counter succ (p >>= f) answer' := by
  unfold Draws
  rw [ExceptT.run_bind]
  refine Program.Draws.after first ?_
  rintro _ ⟨value, rfl, here⟩
  exact rest value here

theorem Draws.bind {p : Fallible σ ε α}
    (first : Draws inv counter succ p answer)
    (rest : ∀ number value, answer number value → Quiet inv counter (f value) (answer' number)) :
    Draws inv counter succ (p >>= f) answer' := by
  unfold Draws
  rw [ExceptT.run_bind]
  refine Program.Draws.bind first ?_
  rintro number _ ⟨value, rfl, here⟩
  exact rest number value here

end Fallible

/-! ## Many of them -/

namespace Crowd

variable [DecidableEq ι] {env : σ → σ → Prop} {inv : σ → Prop} {counter : σ → τ} {succ : τ → τ}
  {answer : τ → α → Prop}

/-- Who has drawn, in order: the others still have to, and the counter stands where so many
    numbers lead. -/
structure Drawn (inv : σ → Prop) (counter : σ → τ) (succ : τ → τ) (answer : τ → α → Prop)
    (start : τ) (order : List ι) (c : Crowd ι σ α) : Prop where
  held : inv c.state
  once : order.Nodup
  count : counter c.state = succ^[order.length] start
  waiting : ∀ i, i ∉ order → (c.threads i).Draws inv counter succ answer
  drawn : ∀ k i, order[k]? = some i →
    (c.threads i).Quiet inv counter (answer (succ^[k] start))

section Acting

variable {start : τ} {order : List ι} {threads : ι → Program σ α} {s s' : σ} {i : ι}
  {rest : Program σ α}

theorem Drawn.goOn (before : Drawn inv counter succ answer start order ⟨threads, s⟩)
    (kept : inv s') (same : counter s' = counter s) (member : i ∈ order)
    (quiet : ∀ k, order[k]? = some i → rest.Quiet inv counter (answer (succ^[k] start))) :
    Drawn inv counter succ answer start order ⟨Function.update threads i rest, s'⟩ := by
  refine ⟨kept, before.once, same.trans before.count, ?_, ?_⟩
  · intro j absent
    have other : j ≠ i := fun equal => absent (equal ▸ member)
    simp only [Function.update_of_ne other]
    exact before.waiting j absent
  · intro k j place
    by_cases equal : j = i
    · subst equal
      simpa using quiet k place
    · simp only [Function.update_of_ne equal]
      exact before.drawn k j place

theorem Drawn.wait (before : Drawn inv counter succ answer start order ⟨threads, s⟩)
    (kept : inv s') (same : counter s' = counter s) (absent : i ∉ order)
    (draws : rest.Draws inv counter succ answer) :
    Drawn inv counter succ answer start order ⟨Function.update threads i rest, s'⟩ := by
  refine ⟨kept, before.once, same.trans before.count, ?_, ?_⟩
  · intro j missing
    by_cases equal : j = i
    · subst equal
      simpa using draws
    · simp only [Function.update_of_ne equal]
      exact before.waiting j missing
  · intro k j place
    have other : j ≠ i := fun equal => absent (equal ▸ List.mem_of_getElem? place)
    simp only [Function.update_of_ne other]
    exact before.drawn k j place

theorem Drawn.draw (before : Drawn inv counter succ answer start order ⟨threads, s⟩)
    (kept : inv s') (counted : counter s' = succ (counter s)) (absent : i ∉ order)
    (quiet : rest.Quiet inv counter (answer (counter s))) :
    Drawn inv counter succ answer start (order ++ [i]) ⟨Function.update threads i rest, s'⟩ := by
  have number : counter s = succ^[order.length] start := before.count
  refine ⟨kept, ?_, ?_, ?_, ?_⟩
  · rw [List.nodup_append]
    refine ⟨before.once, List.nodup_singleton i, ?_⟩
    intro j inside last single equal
    rw [List.mem_singleton.mp single] at equal
    exact absent (equal ▸ inside)
  · rw [List.length_append, List.length_singleton, Function.iterate_succ_apply', ← number]
    exact counted
  · intro j missing
    simp only [List.mem_append, List.mem_singleton, not_or] at missing
    simp only [Function.update_of_ne missing.2]
    exact before.waiting j missing.1
  · intro k j place
    rw [List.getElem?_append] at place
    split at place
    · have other : j ≠ i := fun equal => absent (equal ▸ List.mem_of_getElem? place)
      simp only [Function.update_of_ne other]
      exact before.drawn k j place
    · rename_i late
      obtain ⟨last, rfl⟩ := List.getElem?_eq_some_iff.mp place
      have position : k = order.length := by
        simp only [List.length_singleton] at last
        omega
      subst position
      rw [number] at quiet
      simpa using quiet

end Acting

theorem Drawn.step {start : τ} {order : List ι} {c c' : Crowd ι σ α}
    (allowed : ∀ s s', env s s' → inv s → inv s' ∧ counter s' = counter s)
    (before : Drawn inv counter succ answer start order c) (step : Step env c c') :
    ∃ order', Drawn inv counter succ answer start order' c' := by
  cases step with
  | env moved =>
    obtain ⟨kept, same⟩ := allowed _ _ moved before.held
    exact ⟨order, kept, before.once, same.trans before.count, before.waiting, before.drawn⟩
  | @act threads s update next i here =>
    by_cases member : i ∈ order
    · have own : ∀ k, order[k]? = some i → inv (update s) ∧ counter (update s) = counter s ∧
          (next s).Quiet inv counter (answer (succ^[k] start)) := by
        intro k place
        have quiet := before.drawn k i place
        simp only [here] at quiet
        exact quiet s before.held
      obtain ⟨k, place⟩ := List.getElem?_of_mem member
      obtain ⟨kept, same, _⟩ := own k place
      exact ⟨order, before.goOn kept same member fun k place => (own k place).2.2⟩
    · have own := before.waiting i member
      simp only [here] at own
      obtain ⟨kept, drawn⟩ := own s before.held
      cases drawn with
      | inl later => exact ⟨order, before.wait kept later.1 member later.2⟩
      | inr now => exact ⟨order ++ [i], before.draw kept now.1 member now.2⟩

theorem Drawn.run {start : τ} {order : List ι} {c c' : Crowd ι σ α}
    (allowed : ∀ s s', env s s' → inv s → inv s' ∧ counter s' = counter s)
    (before : Drawn inv counter succ answer start order c) (steps : Steps env c c') :
    ∃ order', Drawn inv counter succ answer start order' c' := by
  induction steps with
  | refl => exact ⟨order, before⟩
  | tail _ last ih =>
    obtain ⟨order', so_far⟩ := ih
    exact so_far.step allowed last

/-- Once all of them have answered, each has answered by a number of its own, and these are
    the numbers from where the counter stood. -/
theorem answers_by_number (allowed : ∀ s s', env s s' → inv s → inv s' ∧ counter s' = counter s)
    {c c' : Crowd ι σ α} (initial : inv c.state)
    (draws : ∀ i, (c.threads i).Draws inv counter succ answer) (steps : Steps env c c')
    {results : ι → α} (ended : ∀ i, c'.threads i = .ret (results i)) :
    ∃ order : List ι, order.Nodup ∧ (∀ i, i ∈ order) ∧
      ∀ k i, order[k]? = some i → answer (succ^[k] (counter c.state)) (results i) := by
  have none : Drawn inv counter succ answer (counter c.state) [] c :=
    ⟨initial, .nil, rfl, fun i _ => draws i, by simp⟩
  obtain ⟨order, drawn⟩ := none.run allowed steps
  refine ⟨order, drawn.once, ?_, ?_⟩
  · intro i
    by_contra absent
    have waits := drawn.waiting i absent
    simp only [ended i] at waits
    exact waits
  · intro k i place
    have answered := drawn.drawn k i place
    simp only [ended i] at answered
    exact answered

end Crowd

theorem length_of_all [Fintype ι] {order : List ι} (once : order.Nodup) (all : ∀ i, i ∈ order) :
    order.length = Fintype.card ι := by
  classical
  have whole : order.toFinset = Finset.univ := Finset.eq_univ_of_forall fun i => by simp [all i]
  rw [← List.toFinset_card_of_nodup once, whole, Finset.card_univ]

theorem card_by_number [Fintype ι] {order : List ι} (once : order.Nodup) (all : ∀ i, i ∈ order)
    {f : ι → β} {g : Nat → β} (same : ∀ k i, order[k]? = some i → f i = g k) (p : β → Prop)
    [DecidablePred p] :
    (Finset.univ.filter fun i => p (f i)).card = Nat.count (fun k => p (g k)) (Fintype.card ι) := by
  classical
  have whole : order.toFinset = Finset.univ := Finset.eq_univ_of_forall fun i => by simp [all i]
  have mapped : order.map f = (List.range order.length).map g := by
    apply List.ext_getElem (by simp)
    intro k here _
    simp only [List.length_map] at here
    simpa using same k _ (List.getElem?_eq_getElem here)
  calc (Finset.univ.filter fun i => p (f i)).card = (order.filter fun i => p (f i)).length := by
        rw [← List.toFinset_card_of_nodup (once.filter _), List.toFinset_filter, whole]
        simp
    _ = (order.map f).countP (fun x => p x) := by
        rw [List.countP_map, List.countP_eq_length_filter]
        rfl
    _ = Nat.count (fun k => p (g k)) (Fintype.card ι) := by
        rw [mapped, List.countP_map, length_of_all once all]
        rfl

/-- Of `n` numbers in a row, those that leave a given remainder are every `len`-th. -/
theorem count_remainder {len place : Nat} (within : place < len) (first n : Nat) :
    n / len ≤ Nat.count (fun k => (first + k) % len = place) n ∧
      Nat.count (fun k => (first + k) % len = place) n ≤ n / len + 1 := by
  have positive : 0 < len := by omega
  -- the number that leads from the first to the remainder
  obtain ⟨v, leads⟩ : ∃ v, (first + v) % len = place := by
    have rest := Nat.mod_lt first positive
    have parts := Nat.div_add_mod first len
    refine ⟨place + (len - first % len), ?_⟩
    have sum : first + (place + (len - first % len)) = place + len * (first / len + 1) := by
      rw [Nat.mul_add]
      omega
    rw [sum, Nat.add_mul_mod_self_left, Nat.mod_eq_of_lt within]
  have same : ∀ k, (first + k) % len = place ↔ k ≡ v [MOD len] := by
    intro k
    rw [← leads]
    constructor
    · exact Nat.ModEq.add_left_cancel' first
    · exact Nat.ModEq.add_left first
  simp only [same, Nat.count_modEq_card _ positive]
  split <;> omega

end Interleaving
