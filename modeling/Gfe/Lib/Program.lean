import Mathlib.Logic.Relation

/-! # Programs that share a state

A program is a resumption: it has returned, or it is one atomic action away from
the rest of itself. The same program has two meanings. `run` is its behaviour
when nothing else touches the state; `Steps` is its behaviour when the
environment moves between any two of its actions. `Ensures` is the
rely-guarantee precondition for the second one, and `Ensures.sound` connects
the two readings.
-/

namespace Interleaving

/-- A program over the shared state `σ` with results in `α`. An action updates
    the state and chooses what follows from the state it found, in one step. -/
inductive Program (σ α : Type) where
  | ret (value : α)
  | act (update : σ → σ) (next : σ → Program σ α)

namespace Program

variable {σ α β γ : Type}

def bind : Program σ α → (α → Program σ β) → Program σ β
  | .ret value, f => f value
  | .act update next, f => .act update fun s => (next s).bind f

instance : Monad (Program σ) where
  pure := .ret
  bind := .bind

def read (view : σ → α) : Program σ α := .act id fun s => .ret (view s)

/-- Change the state, in one action. -/
def write (update : σ → σ) : Program σ Unit := .act update fun _ => .ret ()

/-- Change the state and keep something computed from what was there, in one
    action. -/
def exchange (change : σ → α × σ) : Program σ α :=
  .act (fun s => (change s).2) fun s => .ret (change s).1

/-- The program on its own: no other party touches the state. -/
def run : Program σ α → σ → α × σ
  | .ret value, s => (value, s)
  | .act update next, s => (next s).run (update s)

@[simp] theorem pure_eq_ret (value : α) : (pure value : Program σ α) = .ret value := rfl

@[simp] theorem ret_bind (value : α) (f : α → Program σ β) : (.ret value >>= f) = f value := rfl

@[simp] theorem act_bind (update : σ → σ) (next : σ → Program σ α) (f : α → Program σ β) :
    (.act update next >>= f) = .act update fun s => next s >>= f := rfl

theorem bind_ret (p : Program σ α) : (p >>= .ret) = p := by
  induction p with
  | ret value => rfl
  | act update next ih => simp only [act_bind, ih]

theorem bind_assoc (p : Program σ α) (f : α → Program σ β) (g : β → Program σ γ) :
    (p >>= f >>= g) = (p >>= fun value => f value >>= g) := by
  induction p with
  | ret value => rfl
  | act update next ih => simp only [act_bind, ih]

instance : LawfulMonad (Program σ) :=
  LawfulMonad.mk' (Program σ) bind_ret (fun _ _ => rfl) bind_assoc

@[simp] theorem run_ret (value : α) (s : σ) : (Program.ret value).run s = (value, s) := rfl

@[simp] theorem run_read (view : σ → α) (s : σ) : (read view).run s = (view s, s) := rfl

@[simp] theorem run_write (update : σ → σ) (s : σ) : (write update).run s = ((), update s) := rfl

@[simp] theorem run_exchange (change : σ → α × σ) (s : σ) : (exchange change).run s = change s := rfl

@[simp] theorem run_bind (p : Program σ α) (f : α → Program σ β) (s : σ) :
    (p >>= f).run s = (f (p.run s).1).run (p.run s).2 := by
  induction p generalizing s with
  | ret value => rfl
  | act update next ih => exact ih s (update s)

@[simp] theorem run_map (f : α → β) (p : Program σ α) (s : σ) :
    (f <$> p).run s = (f (p.run s).1, (p.run s).2) := by
  rw [← bind_pure_comp, run_bind]
  rfl

/-! ## Interleaved executions -/

/-- One move of a program and its environment: an action of the program, or a
    move `env` allows. -/
inductive Step (env : σ → σ → Prop) : Program σ α × σ → Program σ α × σ → Prop where
  | act (update : σ → σ) (next : σ → Program σ α) (s : σ) :
      Step env (.act update next, s) (next s, update s)
  | env {p : Program σ α} {s s' : σ} : env s s' → Step env (p, s) (p, s')

/-- Any number of moves, in any order. -/
abbrev Steps (env : σ → σ → Prop) : Program σ α × σ → Program σ α × σ → Prop :=
  Relation.ReflTransGen (Step env)

/-- The program alone is one of its interleavings. -/
theorem steps_run (env : σ → σ → Prop) (p : Program σ α) (s : σ) :
    Steps env (p, s) (.ret (p.run s).1, (p.run s).2) := by
  induction p generalizing s with
  | ret value => exact .refl
  | act update next ih => exact .head (.act update next s) (ih s (update s))

/-- The program and its state a number of actions later. -/
def advance : Nat → Program σ α → σ → Program σ α × σ
  | n + 1, .act update next, s => (next s).advance n (update s)
  | _, p, s => (p, s)

theorem advance_zero (p : Program σ α) (s : σ) : p.advance 0 s = (p, s) := by
  cases p <;> rfl

theorem advance_ret (n : Nat) (value : α) (s : σ) :
    (Program.ret value).advance n s = (.ret value, s) := by
  cases n <;> rfl

theorem steps_advance (env : σ → σ → Prop) (n : Nat) (p : Program σ α) (s : σ) :
    Steps env (p, s) (p.advance n s) := by
  induction n generalizing p s with
  | zero => rw [advance_zero]
  | succ n ih =>
    cases p with
    | ret value => exact .refl
    | act update next => exact .head (.act update next s) (ih (next s) (update s))

end Program

/-- What the environment of a program may do: any number of moves, also none. -/
structure Rely (σ : Type) where
  may : σ → σ → Prop
  refl : ∀ s, may s s
  trans : ∀ {s t u}, may s t → may t u → may s u

namespace Rely

variable {σ τ : Type}

/-- Others may do what they like, as long as this part of the state stays. -/
def keeping (part : σ → τ) : Rely σ where
  may s s' := part s' = part s
  refl _ := rfl
  trans first second := second.trans first

/-- Any number of moves `move` allows. -/
def moves (move : σ → σ → Prop) : Rely σ where
  may := Relation.ReflTransGen move
  refl _ := .refl
  trans := .trans

/-- Others do what they like inside `inv`. -/
def within (inv : σ → Prop) : Rely σ where
  may s s' := inv s → inv s'
  refl _ := id
  trans first second := second ∘ first

/-- Others do not disturb `inv`. -/
def Stable (rely : Rely σ) (inv : σ → Prop) : Prop := ∀ s s', rely.may s s' → inv s → inv s'

theorem stable_keeping {part : σ → τ} {inv : τ → Prop} :
    (keeping part).Stable fun s => inv (part s) := by
  intro s s' moved held
  rwa [show part s' = part s from moved]

end Rely

namespace Program

variable {σ α β : Type} {rely : Rely σ} {p : Program σ α}

/-- Started in `s` and whatever `rely` lets others do between its actions, the
    program only ends with a result and a state that satisfy `post`. -/
def Ensures (rely : Rely σ) : Program σ α → (α → σ → Prop) → σ → Prop
  | .ret value, post, s => ∀ s', rely.may s s' → post value s'
  | .act update next, post, s => ∀ s', rely.may s s' → Ensures rely (next s') post (update s')

namespace Ensures

theorem move {post s s'} (ensures : Ensures rely p post s)
    (moved : rely.may s s') : Ensures rely p post s' := by
  cases p with
  | ret | act => exact fun t later => ensures t (rely.trans moved later)

theorem weaken {post post' : α → σ → Prop} {s}
    (ensures : Ensures rely p post s) (imp : ∀ value s, post value s → post' value s) :
    Ensures rely p post' s := by
  induction p generalizing s with
  | ret value => exact fun s' moved => imp value s' (ensures s' moved)
  | act update next ih => exact fun s' moved => ih s' (ensures s' moved)

theorem and {post post' : α → σ → Prop} {s}
    (first : Ensures rely p post s) (second : Ensures rely p post' s) :
    Ensures rely p (fun value s => post value s ∧ post' value s) s := by
  induction p generalizing s with
  | ret value => exact fun s' moved => ⟨first s' moved, second s' moved⟩
  | act update next ih => exact fun s' moved => ih s' (first s' moved) (second s' moved)

theorem settle {post s} (ensures : Ensures rely p post s) :
    Ensures rely p (fun value s => ∀ s', rely.may s s' → post value s') s := by
  induction p generalizing s with
  | ret value => exact fun t first u second => ensures u (rely.trans first second)
  | act update next ih => exact fun t first => ih t (ensures t first)

/-- Sequencing: the first program establishes what the second one starts from. -/
theorem bind {f : α → Program σ β} {post s}
    (ensures : Ensures rely p (fun value s => Ensures rely (f value) post s) s) :
    Ensures rely (p >>= f) post s := by
  induction p generalizing s with
  | ret value => exact ensures s (rely.refl s)
  | act update next ih => exact fun s' moved => ih s' (ensures s' moved)

theorem map {f : α → β} {post : β → σ → Prop} {s}
    (ensures : Ensures rely p (fun value => post (f value)) s) : Ensures rely (f <$> p) post s := by
  rw [← bind_pure_comp]
  exact bind (ensures.settle.weaken fun _ _ held => held)

theorem ret {value : α} {post : α → σ → Prop} {s}
    (stable : ∀ s', rely.may s s' → post value s') : Ensures rely (.ret value) post s := stable

theorem read {view : σ → α} {post : α → σ → Prop} {s}
    (stable : ∀ t u, rely.may s t → rely.may t u → post (view t) u) :
    Ensures rely (.read view) post s :=
  fun t first u second => stable t u first second

theorem write {update : σ → σ} {post : Unit → σ → Prop} {s}
    (stable : ∀ t u, rely.may s t → rely.may (update t) u → post () u) :
    Ensures rely (.write update) post s :=
  fun t first u second => stable t u first second

theorem exchange {change : σ → α × σ} {post : α → σ → Prop} {s}
    (stable : ∀ t u, rely.may s t → rely.may (change t).2 u → post (change t).1 u) :
    Ensures rely (.exchange change) post s :=
  fun t first u second => stable t u first second

/-- Soundness for the interleaved executions: whenever the program has
    returned, its postcondition holds of the state reached. -/
theorem sound {env : σ → σ → Prop} {post s value s'}
    (allowed : ∀ s s', env s s' → rely.may s s')
    (ensures : Ensures rely p post s) (steps : Steps env (p, s) (.ret value, s')) :
    post value s' := by
  suffices held : ∀ c c' : Program σ α × σ, Steps env c c' →
      Ensures rely c.1 post c.2 → Ensures rely c'.1 post c'.2 from
    held _ _ steps ensures s' (rely.refl s')
  intro c c' steps held
  induction steps with
  | refl => exact held
  | tail _ last ih =>
    cases last with
    | act update next s => exact ih s (rely.refl s)
    | env moved => exact ih.move (allowed _ _ moved)

theorem run {post s} (ensures : Ensures rely p post s) :
    post (p.run s).1 (p.run s).2 := by
  induction p generalizing s with
  | ret value => exact ensures s (rely.refl s)
  | act update next ih => exact ih s (ensures s (rely.refl s))

theorem trivial (p : Program σ α) (s : σ) : Ensures rely p (fun _ _ => True) s := by
  induction p generalizing s with
  | ret value => exact fun _ _ => True.intro
  | act update next ih => exact fun t _ => ih t (update t)

theorem bindAny {f : α → Program σ β} {post s}
    (rest : ∀ value s, Ensures rely (f value) post s) : Ensures rely (p >>= f) post s :=
  bind ((trivial p s).weaken fun value s _ => rest value s)

end Ensures

/-! ## Programs that keep an invariant -/

/-- Started where `inv` holds, the program ends where it holds. -/
def Keeps (rely : Rely σ) (inv : σ → Prop) (p : Program σ α) : Prop :=
  ∀ s, inv s → p.Ensures rely (fun _ => inv) s

namespace Keeps

variable {inv : σ → Prop}

theorem read (stable : rely.Stable inv) (view : σ → α) : Keeps rely inv (.read view) := by
  intro s held
  apply Ensures.read
  intro t u first second
  exact stable t u second (stable s t first held)

end Keeps

/-! ## What the actions of a program do -/

/-- Every action of the program, whenever it is taken, makes one of these
    moves. -/
def Moves (move : σ → σ → Prop) : Program σ α → Prop
  | .ret _ => True
  | .act update next => ∀ s, move s (update s) ∧ (next s).Moves move

namespace Moves

variable {move : σ → σ → Prop}

theorem ret (value : α) : Moves move (.ret value : Program σ α) := True.intro

theorem read (idle : ∀ s, move s s) (view : σ → α) : Moves move (.read view) :=
  fun s => ⟨idle s, True.intro⟩

theorem write {update : σ → σ} (moved : ∀ s, move s (update s)) : Moves move (.write update) :=
  fun s => ⟨moved s, True.intro⟩

theorem exchange {change : σ → α × σ} (moved : ∀ s, move s (change s).2) :
    Moves move (.exchange change) :=
  fun s => ⟨moved s, True.intro⟩

theorem bind {f : α → Program σ β} (first : Moves move p)
    (rest : ∀ value, Moves move (f value)) : Moves move (p >>= f) := by
  induction p with
  | ret value => exact rest value
  | act update next ih => exact fun s => ⟨(first s).1, ih s (first s).2⟩

theorem map {f : α → β} (moves : Moves move p) : Moves move (f <$> p) := by
  rw [← bind_pure_comp]
  exact moves.bind fun value => ret (f value)

theorem weaken {move' : σ → σ → Prop} (moves : Moves move p)
    (imp : ∀ s s', move s s' → move' s s') : Moves move' p := by
  induction p with
  | ret value => exact True.intro
  | act update next ih => exact fun s => ⟨imp _ _ (moves s).1, ih s (moves s).2⟩

theorem keeps {inv : σ → Prop} (moves : Moves move p)
    (stable : rely.Stable inv) (kept : ∀ s s', move s s' → inv s → inv s') :
    Keeps rely inv p := by
  intro s held
  induction p generalizing s with
  | ret value => exact fun s' moved => stable s s' moved held
  | act update next ih =>
    intro s' moved
    exact ih s' (moves s').2 _ (kept _ _ (moves s').1 (stable s s' moved held))

theorem run (moves : Moves move p) (s : σ) :
    Relation.ReflTransGen move s (p.run s).2 := by
  induction p generalizing s with
  | ret value => exact .refl
  | act update next ih => exact .head (moves s).1 (ih s (moves s).2 (update s))

end Moves

/-- Every action leaves the state as it is. -/
abbrev ReadOnly (p : Program σ α) : Prop := p.Moves fun s s' => s' = s

end Program

/-! ## One program at a time

A lock that every program takes first: the environment moves at any moment, but
a program begins only when none is under way. -/

/-- A shared state and the program holding the lock, if there is one. -/
structure Locked (σ : Type) where
  state : σ
  holder : Option (Program σ Unit)

namespace Locked

variable {σ : Type}

inductive Step (env : σ → σ → Prop) (jobs : Set (Program σ Unit)) : Locked σ → Locked σ → Prop where
  | env {s s' holder} : env s s' → Step env jobs ⟨s, holder⟩ ⟨s', holder⟩
  | acquire {s job} : job ∈ jobs → Step env jobs ⟨s, none⟩ ⟨s, some job⟩
  | act {s update next} : Step env jobs ⟨s, some (.act update next)⟩ ⟨update s, some (next s)⟩
  | release {s} : Step env jobs ⟨s, some (.ret ())⟩ ⟨s, none⟩

abbrev Steps (env : σ → σ → Prop) (jobs : Set (Program σ Unit)) : Locked σ → Locked σ → Prop :=
  Relation.ReflTransGen (Step env jobs)

/-- A job on its own, from taking the lock to releasing it. -/
theorem steps_run {env : σ → σ → Prop} {jobs : Set (Program σ Unit)} {job : Program σ Unit}
    (listed : job ∈ jobs) (s : σ) : Steps env jobs ⟨s, none⟩ ⟨(job.run s).2, none⟩ := by
  suffices acts : ∀ (p : Program σ Unit) (s : σ), Steps env jobs ⟨s, some p⟩ ⟨(p.run s).2, none⟩ from
    .head (.acquire listed) (acts job s)
  intro p
  induction p with
  | ret value => exact fun s => .single .release
  | act update next ih => exact fun s => .head .act (ih s (update s))

end Locked

end Interleaving
