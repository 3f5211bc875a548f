import Gfe.Lib.Program

/-! # A reader beside a writer

Two programs that share a state take their actions in any order. When one of
them only reads, the other runs as if it were alone, so what a read can find is
what the state holds at some point of the writer's run alone (`Always`), and
every point of that run, later ones after earlier ones, can be picked for the
reads (`Together.read`).
-/

namespace Interleaving

namespace Program

variable {σ α β : Type} {p : Program σ α}

/-- The program takes its actions undisturbed. -/
abbrev Alone : Program σ α × σ → Program σ α × σ → Prop := Steps fun _ _ => False

/-- `inv` holds before, between and after the actions of the program alone. -/
def Always (inv : σ → Prop) : Program σ α → σ → Prop
  | .ret _, s => inv s
  | .act update next, s => inv s ∧ (next s).Always inv (update s)

namespace Always

variable {inv : σ → Prop}

theorem here {s : σ} (always : p.Always inv s) : inv s := by
  cases p with
  | ret value => exact always
  | act update next => exact always.1

theorem bind {f : α → Program σ β} {s : σ} (first : p.Always inv s)
    (rest : (f (p.run s).1).Always inv (p.run s).2) : (p >>= f).Always inv s := by
  induction p generalizing s with
  | ret value => exact rest
  | act update next ih => exact ⟨first.1, ih s first.2 rest⟩

theorem write {update : σ → σ} {s : σ} (before : inv s) (after : inv (update s)) :
    (Program.write update).Always inv s :=
  ⟨before, after⟩

theorem weaken {inv' : σ → Prop} {s : σ} (always : p.Always inv s)
    (imp : ∀ s, inv s → inv' s) : p.Always inv' s := by
  induction p generalizing s with
  | ret value => exact imp s always
  | act update next ih => exact ⟨imp s always.1, ih s always.2⟩

theorem run {s : σ} (always : p.Always inv s) : inv (p.run s).2 := by
  induction p generalizing s with
  | ret value => exact always
  | act update next ih => exact ih s always.2

end Always

end Program

/-- One action of either program. -/
inductive ParStep {σ α β : Type} :
    Program σ α × Program σ β × σ → Program σ α × Program σ β × σ → Prop where
  | left (update : σ → σ) (next : σ → Program σ α) (q : Program σ β) (s : σ) :
      ParStep (.act update next, q, s) (next s, q, update s)
  | right (p : Program σ α) (update : σ → σ) (next : σ → Program σ β) (s : σ) :
      ParStep (p, .act update next, s) (p, next s, update s)

/-- The two programs side by side, their actions in any order. -/
abbrev Together {σ α β : Type} :
    Program σ α × Program σ β × σ → Program σ α × Program σ β × σ → Prop :=
  Relation.ReflTransGen ParStep

namespace Together

open Program

variable {σ α β γ : Type}

theorem right (p : Program σ α) {c c' : Program σ β × σ} (steps : Alone c c') :
    Together (p, c) (p, c') := by
  induction steps with
  | refl => exact .refl
  | tail _ last ih =>
    cases last with
    | act update next s => exact ih.tail (.right p update next s)
    | env impossible => exact impossible.elim

theorem read (view : σ → α) (f : α → Program σ γ) {q q' : Program σ β} {s s' : σ}
    (steps : Alone (q, s) (q', s')) :
    Together (.read view >>= f, q, s) (f (view s'), q', s') :=
  (right _ steps).tail (.left id (fun s => f (view s)) q' s')

/-- A reader does not disturb the other program, and finds only what holds
    wherever that one can be. -/
theorem sound {inv : σ → Prop} {post : α → σ → Prop} {q q' : Program σ β}
    {s s' : σ} {value : α} (reads : p.ReadOnly) (always : q.Always inv s)
    (ensures : p.Ensures (.within inv) post s)
    (steps : Together (p, q, s) (.ret value, q', s')) : post value s' := by
  suffices held : ∀ c c' : Program σ α × Program σ β × σ, Together c c' →
      c.1.ReadOnly → c.2.1.Always inv c.2.2 →
      c.1.Ensures (.within inv) post c.2.2 →
      c'.1.ReadOnly ∧ c'.2.1.Always inv c'.2.2 ∧
        c'.1.Ensures (.within inv) post c'.2.2 from
    (held _ _ steps reads always ensures).2.2 s' id
  intro c c' steps reads always ensures
  induction steps with
  | refl => exact ⟨reads, always, ensures⟩
  | tail _ last ih =>
    obtain ⟨reads, always, ensures⟩ := ih
    cases last with
    | left update next q s =>
      obtain ⟨same, rest⟩ := reads s
      exact ⟨rest, same.symm ▸ always, ensures s id⟩
    | right p update next s =>
      exact ⟨reads, always.2, ensures.move fun _ => always.2.here⟩

end Together

end Interleaving
