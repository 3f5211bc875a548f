import Gfe.Lib.Crowd
import Gfe.Lib.Fallible

/-! # What must have happened before

A program keeps a property of the state and returns a fine value, unless it takes
a certain step on the way. In a crowd of such programs, whoever finds the property
broken, or a program returned otherwise, finds that step somewhere in the past.
-/

namespace Interleaving

namespace Program

variable {σ α β ε δ : Type} {p : Program σ α}

/-- The program keeps `kept` and returns a `fine` value, unless it has taken a step `first`. -/
def Unless (first : σ → σ → Prop) (kept : σ → Prop) (fine : α → Prop) : Program σ α → Prop
  | .ret value => fine value
  | .act update next => ∀ s, first s (update s) ∨
      (kept s → kept (update s)) ∧ (next s).Unless first kept fine

namespace Unless

variable {first : σ → σ → Prop} {kept : σ → Prop}

theorem ret {value : α} {fine : α → Prop} (good : fine value) :
    (Program.ret value).Unless first kept fine := good

theorem write {update : σ → σ} {fine : Unit → Prop} (keeps : ∀ s, kept s → kept (update s))
    (good : fine ()) : (Program.write update).Unless first kept fine :=
  fun s => .inr ⟨keeps s, good⟩

theorem exchange {change : σ → α × σ} {fine : α → Prop}
    (step : ∀ s, first s (change s).2 ∨ (kept s → kept (change s).2) ∧ fine (change s).1) :
    (Program.exchange change).Unless first kept fine := step

theorem bind {f : α → Program σ β} {fine : β → Prop}
    (spec : p.Unless first kept fun value => (f value).Unless first kept fine) :
    (p >>= f).Unless first kept fine := by
  induction p with
  | ret value => exact spec
  | act update next ih =>
    intro s
    rcases spec s with happened | ⟨keeps, rest⟩
    · exact .inl happened
    · exact .inr ⟨keeps, ih s rest⟩

theorem weaken {fine fine' : α → Prop} (spec : p.Unless first kept fine)
    (imp : ∀ value, fine value → fine' value) : p.Unless first kept fine' := by
  induction p with
  | ret value => exact imp value spec
  | act update next ih =>
    intro s
    rcases spec s with happened | ⟨keeps, rest⟩
    · exact .inl happened
    · exact .inr ⟨keeps, ih s rest⟩

theorem ofMoves (moves : p.Moves fun s s' => kept s → kept s') :
    p.Unless first kept fun _ => True := by
  induction p with
  | ret value => exact True.intro
  | act update next ih => exact fun s => .inr ⟨(moves s).1, ih s (moves s).2⟩

theorem anyhow (p : Program σ α) : p.Unless first (fun _ => True) fun _ => True := by
  induction p with
  | ret value => exact True.intro
  | act update next ih => exact fun s => .inr ⟨id, ih s⟩

theorem bindFallible {p : Fallible σ ε α} {f : α → Fallible σ ε β} {fine : Except ε β → Prop}
    (spec : (ExceptT.run p).Unless first kept fun result =>
      match result with
      | .ok value => (ExceptT.run (f value)).Unless first kept fine
      | .error error => fine (.error error)) :
    (ExceptT.run (p >>= f)).Unless first kept fine := by
  rw [ExceptT.run_bind]
  refine bind (spec.weaken ?_)
  rintro (error | value) rest
  · exact ret rest
  · exact rest

theorem liftFallible {fine : Except ε α → Prop}
    (spec : p.Unless first kept fun value => fine (.ok value)) :
    (ExceptT.run (monadLift p : Fallible σ ε α)).Unless first kept fine := by
  change (Except.ok <$> p).Unless first kept fine
  rw [← bind_pure_comp]
  exact bind (spec.weaken fun _ good => ret good)

theorem mapError {f : ε → δ} {p : Fallible σ ε α} {fine : Except δ α → Prop}
    (spec : (ExceptT.run p).Unless first kept fun result => fine (result.mapError f)) :
    (ExceptT.run (Fallible.mapError f p)).Unless first kept fine := by
  change (Except.mapError f <$> ExceptT.run p).Unless first kept fine
  rw [← bind_pure_comp]
  exact bind (spec.weaken fun _ good => ret good)

end Unless

end Program

namespace Crowd

variable {ι σ α : Type} [DecidableEq ι] {env : σ → σ → Prop} {c c' : Crowd ι σ α}

/-- On the way from `c` to `c'` there was a step `first`. -/
def Passed (env : σ → σ → Prop) (first : σ → σ → Prop) (c c' : Crowd ι σ α) : Prop :=
  ∃ a b, Steps env c a ∧ Step env a b ∧ Steps env b c' ∧ first a.state b.state

theorem Passed.tail {first : σ → σ → Prop} {c'' : Crowd ι σ α} (passed : Passed env first c c')
    (step : Step env c' c'') : Passed env first c c'' := by
  obtain ⟨a, b, before, here, after, happened⟩ := passed
  exact ⟨a, b, before, here, after.tail step, happened⟩

theorem Passed.imp {first first' : σ → σ → Prop} (passed : Passed env first c c')
    (imp : ∀ a s, Steps env c a → first a.state s → first' a.state s) :
    Passed env first' c c' := by
  obtain ⟨a, b, before, here, after, happened⟩ := passed
  exact ⟨a, b, before, here, after, imp a b.state before happened⟩

/-- What every program keeps unless a step is taken is kept, or the step was taken. -/
theorem passed_or_kept {first : σ → σ → Prop} {kept : σ → Prop} {fine : ι → α → Prop}
    (around : ∀ s s', env s s' → kept s → kept s')
    (spec : ∀ i, (c.threads i).Unless first kept (fine i)) (initial : kept c.state)
    (steps : Steps env c c') :
    Passed env first c c' ∨
      kept c'.state ∧ ∀ i, (c'.threads i).Unless first kept (fine i) := by
  induction steps with
  | refl => exact .inr ⟨initial, spec⟩
  | tail before last ih =>
    rcases ih with passed | ⟨held, still⟩
    · exact .inl (passed.tail last)
    · cases last with
      | @act threads s update next i here =>
        have own := still i
        simp only [here] at own
        rcases own s with happened | ⟨keeps, rest⟩
        · exact .inl ⟨_, _, before, .act i here, .refl, happened⟩
        · refine .inr ⟨keeps held, fun j => ?_⟩
          by_cases same : j = i
          · subst same
            simpa using rest
          · simpa [Function.update_of_ne same] using still j
      | env moved => exact .inr ⟨around _ _ moved held, still⟩

end Crowd

end Interleaving
