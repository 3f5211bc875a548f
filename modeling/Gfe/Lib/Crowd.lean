import Gfe.Lib.Obeys
import Mathlib.Logic.Function.Basic

/-! # Many programs over one state

Any number of programs take their actions on one state in any order, each with a
specification of its own (`Obeys`). `Crowd.sound` puts the specifications of all
of them together. A program over a part of the state is a program over the whole
(`zoom`).
-/

namespace Interleaving

/-- Two programs are named by numerals. -/
instance neZeroTwo : @NeZero Nat Zero.ofOfNat0 2 := ⟨by decide⟩

/-! ## Crowds -/

/-- No action is to come. -/
def Program.returned {σ α : Type} : Program σ α → Bool
  | .ret _ => true
  | .act _ _ => false

/-- Programs that share a state, one for each index. -/
structure Crowd (ι σ α : Type) where
  threads : ι → Program σ α
  state : σ

namespace Crowd

variable {ι σ α : Type} [DecidableEq ι] {env : σ → σ → Prop}

/-- An action of one of the programs, or a move of the environment. -/
inductive Step (env : σ → σ → Prop) : Crowd ι σ α → Crowd ι σ α → Prop where
  | act {threads : ι → Program σ α} {s update next} (i : ι) : threads i = .act update next →
      Step env ⟨threads, s⟩ ⟨Function.update threads i (next s), update s⟩
  | env {threads s s'} : env s s' → Step env ⟨threads, s⟩ ⟨threads, s'⟩

abbrev Steps (env : σ → σ → Prop) : Crowd ι σ α → Crowd ι σ α → Prop :=
  Relation.ReflTransGen (Step env)

/-- Each program is fine as long as the others only do what it relies on, and
    an invariant all of them keep holds at every moment. -/
theorem sound {rely : ι → Rely σ} {guar : ι → σ → σ → Prop} {during : ι → σ → Prop}
    {post : ι → α → σ → Prop} {inv : σ → Prop}
    (allowed : ∀ s s', env s s' → inv s → (∀ i, (rely i).may s s') ∧ inv s')
    (apart : ∀ i j s s', i ≠ j → guar i s s' → (rely j).may s s')
    (kept : ∀ i s s', guar i s s' → inv s → inv s') {c c' : Crowd ι σ α}
    (initial : inv c.state)
    (start : ∀ i, (c.threads i).Obeys (rely i) (guar i) (during i) (post i) c.state)
    (steps : Steps env c c') :
    inv c'.state ∧
      ∀ i, (c'.threads i).Obeys (rely i) (guar i) (during i) (post i) c'.state := by
  induction steps with
  | refl => exact ⟨initial, start⟩
  | tail _ last ih =>
    obtain ⟨held, fine⟩ := ih
    cases last with
    | @act threads s update next i here =>
      have own := fine i
      simp only [here] at own
      obtain ⟨_, moved, rest⟩ := own s ((rely i).refl s)
      refine ⟨kept i s _ moved held, ?_⟩
      intro j
      by_cases same : j = i
      · subst same
        simpa using rest
      · simpa [Function.update_of_ne same] using
          (fine j).move (apart i j s _ (Ne.symm same) moved)
    | env moved =>
      obtain ⟨relied, still⟩ := allowed _ _ moved held
      exact ⟨still, fun i => (fine i).move (relied i)⟩

/-- One of the programs runs to its end while the others wait. -/
theorem steps_run (env : σ → σ → Prop) (threads : ι → Program σ α) (s : σ) (i : ι) :
    Steps env ⟨threads, s⟩
      ⟨Function.update threads i (.ret ((threads i).run s).1), ((threads i).run s).2⟩ := by
  generalize here : threads i = p
  induction p generalizing threads s with
  | ret value =>
    rw [Program.run_ret, ← here, Function.update_eq_self]
  | act update next ih =>
    have rest := ih s (Function.update threads i (next s)) (update s) (Function.update_self ..)
    rw [Function.update_idem] at rest
    exact .head (.act i here) rest

theorem step_advance (env : σ → σ → Prop) {threads : ι → Program σ α} {i : ι}
    (more : (threads i).returned = false) (s : σ) :
    Step env ⟨threads, s⟩
      ⟨Function.update threads i ((threads i).advance 1 s).1, ((threads i).advance 1 s).2⟩ := by
  cases here : threads i with
  | ret value =>
    rw [here] at more
    cases more
  | act update next =>
    rw [Program.advance, Program.advance_zero]
    exact .act i here

theorem steps_advance (env : σ → σ → Prop) (threads : ι → Program σ α) (s : σ) (i : ι) (n : Nat) :
    Steps env ⟨threads, s⟩
      ⟨Function.update threads i ((threads i).advance n s).1, ((threads i).advance n s).2⟩ := by
  induction n generalizing threads s with
  | zero =>
    rw [Program.advance_zero, Function.update_eq_self]
  | succ n ih =>
    cases here : threads i with
    | ret value =>
      rw [Program.advance_ret, ← here, Function.update_eq_self]
    | act update next =>
      have rest := ih (Function.update threads i (next s)) (update s)
      rw [Function.update_self, Function.update_idem] at rest
      exact .head (.act i here) rest

end Crowd

/-! ## Parts of the state -/

/-- A part of a state, that can be looked at and replaced. -/
structure Part (τ σ : Type) where
  view : τ → σ
  put : σ → τ → τ
  view_put : ∀ s t, view (put s t) = s

namespace Program

variable {σ τ α β : Type}

def zoom (part : Part τ σ) : Program σ α → Program τ α
  | .ret value => .ret value
  | .act update next =>
    .act (fun t => part.put (update (part.view t)) t) fun t => (next (part.view t)).zoom part

theorem Moves.zoom {part : Part τ σ} {move : σ → σ → Prop} {move' : τ → τ → Prop}
    {p : Program σ α} (moves : p.Moves move)
    (step : ∀ s t, move (part.view t) s → move' t (part.put s t)) :
    (p.zoom part).Moves move' := by
  induction p with
  | ret value => exact True.intro
  | act update next ih => exact fun t => ⟨step _ t (moves _).1, ih _ (moves _).2⟩

theorem Obeys.zoom {part : Part τ σ} {rely : Rely σ} {guar : σ → σ → Prop} {during : σ → Prop}
    {rely' : Rely τ} {guar' : τ → τ → Prop} {during' rest : τ → Prop} {p : Program σ α} {post t}
    (seen : ∀ t t', rely'.may t t' → rely.may (part.view t) (part.view t'))
    (stable : rely'.Stable rest) (kept : ∀ s t, rest t → rest (part.put s t))
    (holds : ∀ t, rest t → during (part.view t) → during' t)
    (moves : ∀ s t, rest t → guar (part.view t) s → guar' t (part.put s t))
    (here : rest t) (obeys : Obeys rely guar during p post (part.view t)) :
    Obeys rely' guar' during' (p.zoom part)
      (fun value t => post value (part.view t) ∧ rest t) t := by
  induction p generalizing t with
  | ret value => exact fun t' moved => ⟨obeys _ (seen t t' moved), stable t t' moved here⟩
  | act update next ih =>
    intro t' moved
    have still := stable t t' moved here
    obtain ⟨held, made, next⟩ := obeys _ (seen t t' moved)
    refine ⟨holds t' still held, moves _ t' still made, ih _ (kept _ t' still) ?_⟩
    rwa [part.view_put]

theorem Owns.zoom {ω ρ : Type} {part : Part τ σ} {own : σ → ω} {rest : τ → ρ}
    {guar : σ → σ → Prop} {during : ω → Prop} {guar' : τ → τ → Prop} {during' : ω × ρ → Prop}
    {p : Program σ α} {before : ω} {kept : ρ} {post : α → ω → Prop}
    (apart : ∀ s t, rest (part.put s t) = rest t) (holds : ∀ o, during o → during' (o, kept))
    (moves : ∀ s t, guar (part.view t) s → guar' t (part.put s t))
    (owns : Owns own guar during p before post) :
    Owns (fun t => (own (part.view t), rest t)) guar' during' (p.zoom part) (before, kept)
      fun value o => post value o.1 ∧ o.2 = kept := by
  intro t start
  obtain ⟨here, there⟩ := Prod.mk.inj start
  have stable : (Rely.keeping fun t => (own (part.view t), rest t)).Stable fun t => rest t = kept :=
    fun t t' moved held => (congrArg Prod.snd moved).trans held
  refine Obeys.zoom ?_ stable ?_ ?_ ?_ there (owns _ here)
  · exact fun t t' moved => congrArg Prod.fst moved
  · exact fun s t held => (apart s t).trans held
  · intro t held fine
    change during' (own (part.view t), rest t)
    rw [held]
    exact holds _ fine
  · exact fun s t _ moved => moves s t moved

end Program

end Interleaving
