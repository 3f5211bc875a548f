import Gfe.Lib.Program

/-! # Programs that can fail

The error monad over shared-state programs. A failure stops the program but
undoes nothing, so a specification has two postconditions: one for the value
returned, one for the state an error is returned in.
-/

namespace Interleaving

/-- A program that returns a value or gives up with an error; what it did to
    the state until then stays done. -/
abbrev Fallible (σ ε α : Type) := ExceptT ε (Program σ) α

namespace Fallible

variable {σ ε δ α β : Type} {rely : Rely σ} {p : Fallible σ ε α} {f : α → Fallible σ ε β}

def exec (p : Fallible σ ε α) (s : σ) : Except ε α × σ := Program.run (ExceptT.run p) s

theorem exec_bind (p : Fallible σ ε α) (f : α → Fallible σ ε β) (s : σ) :
    exec (p >>= f) s =
      match exec p s with
      | (.ok value, s') => exec (f value) s'
      | (.error error, s') => (.error error, s') := by
  simp only [exec, ExceptT.run_bind, Program.run_bind]
  cases Program.run (ExceptT.run p) s with
  | mk result s' => cases result <;> rfl

theorem exec_bind_ok {s s' : σ} {value : α}
    (ended : exec p s = (.ok value, s')) (f : α → Fallible σ ε β) :
    exec (p >>= f) s = exec (f value) s' := by
  rw [exec_bind, ended]

theorem exec_bind_error {s s' : σ} {error : ε}
    (ended : exec p s = (.error error, s')) (f : α → Fallible σ ε β) :
    exec (p >>= f) s = (.error error, s') := by
  rw [exec_bind, ended]

theorem exec_bind_pure {s : σ} {result : Except ε α}
    {next : α → Except ε β} (first : exec p s = (result, s))
    (rest : ∀ value, exec (f value) s = (next value, s)) :
    exec (p >>= f) s = (result >>= next, s) := by
  rw [exec_bind, first]
  cases result with
  | error error => rfl
  | ok value => exact rest value

@[simp] theorem exec_lift (p : Program σ α) (s : σ) :
    exec (monadLift p : Fallible σ ε α) s = (.ok (p.run s).1, (p.run s).2) := by
  change Program.run (Except.ok <$> p) s = _
  rw [Program.run_map]

/-- Change the error a program gives up with. -/
def mapError (f : ε → δ) (p : Fallible σ ε α) : Fallible σ δ α := ExceptT.adapt f p

@[simp] theorem exec_mapError (f : ε → δ) (p : Fallible σ ε α) (s : σ) :
    exec (mapError f p) s = ((exec p s).1.mapError f, (exec p s).2) :=
  Program.run_map (Except.mapError f) p s

def ofExcept (result : Except ε α) : Fallible σ ε α := ExceptT.mk (.ret result)

@[simp] theorem exec_ofExcept (result : Except ε α) (s : σ) :
    exec (ofExcept result) s = (result, s) := rfl

/-- Run a program that can fail and look at how it ended. -/
def attempt (p : Fallible σ ε α) : Fallible σ δ (Except ε α) := ExceptT.lift (ExceptT.run p)

@[simp] theorem exec_attempt (p : Fallible σ ε α) (s : σ) :
    exec (attempt p : Fallible σ δ (Except ε α)) s = (.ok (exec p s).1, (exec p s).2) :=
  exec_lift (ExceptT.run p) s

/-- Whatever the environment does between its actions, the program ends well
    with `ok`, or gives up with `failed`. -/
def Ensures (rely : Rely σ) (p : Fallible σ ε α) (ok : α → σ → Prop) (failed : ε → σ → Prop)
    (s : σ) : Prop :=
  Program.Ensures rely (ExceptT.run p) (fun result s =>
    match result with
    | .ok value => ok value s
    | .error error => failed error s) s

namespace Ensures

theorem bind {ok failed s}
    (ensures : Ensures rely p (fun value s => Ensures rely (f value) ok failed s) failed s) :
    Ensures rely (p >>= f) ok failed s := by
  unfold Ensures at *
  rw [ExceptT.run_bind]
  apply Program.Ensures.bind
  refine ensures.settle.weaken ?_
  rintro (error | value) s held
  · exact held
  · exact held s (rely.refl s)

theorem bindAny {ok s}
    (rest : ∀ value s, Ensures rely (f value) ok (fun _ _ => True) s) :
    Ensures rely (p >>= f) ok (fun _ _ => True) s := by
  apply bind
  apply Program.Ensures.weaken (Program.Ensures.trivial (ExceptT.run p) s)
  intro result s _
  cases result with
  | error error => exact True.intro
  | ok value => exact rest value s

theorem lift {p : Program σ α} {ok : α → σ → Prop} {failed : ε → σ → Prop} {s}
    (ensures : p.Ensures rely ok s) : Ensures rely (monadLift p) ok failed s :=
  Program.Ensures.map (ensures.weaken fun _ _ held => held)

theorem bindLift {p : Program σ α} {ok failed s}
    (rest : ∀ value s, Ensures rely (f value) ok failed s) :
    Ensures rely (monadLift p >>= f) ok failed s := by
  apply bind
  apply lift
  apply (Program.Ensures.trivial p s).weaken
  exact fun value s _ => rest value s

theorem pure {value : α} {ok : α → σ → Prop} {failed : ε → σ → Prop} {s}
    (stable : ∀ s', rely.may s s' → ok value s') :
    Ensures rely (Pure.pure value : Fallible σ ε α) ok failed s := stable

theorem throw {error : ε} {ok : α → σ → Prop} {failed : ε → σ → Prop} {s}
    (stable : ∀ s', rely.may s s' → failed error s') :
    Ensures rely (MonadExcept.throw error : Fallible σ ε α) ok failed s := stable

theorem ofExcept {result : Except ε α} {ok : α → σ → Prop} {failed : ε → σ → Prop} {s}
    (good : ∀ value, result = .ok value → ∀ s', rely.may s s' → ok value s')
    (bad : ∀ error, result = .error error → ∀ s', rely.may s s' → failed error s') :
    Ensures rely (ofExcept result) ok failed s := by
  cases result with
  | ok value => exact good value rfl
  | error error => exact bad error rfl

theorem attempt {ok : Except ε α → σ → Prop} {failed : δ → σ → Prop} {s}
    (ensures : Ensures rely p (fun value => ok (.ok value)) (fun error => ok (.error error)) s) :
    Ensures rely (attempt p) ok failed s := by
  apply lift
  refine Program.Ensures.weaken ensures ?_
  rintro (error | value) s held
  · exact held
  · exact held

theorem mapError {f : ε → δ} {ok failed s}
    (ensures : Ensures rely p ok (fun error => failed (f error)) s) :
    Ensures rely (mapError f p) ok failed s := by
  refine Program.Ensures.map (f := Except.mapError f) (Program.Ensures.weaken ensures ?_)
  rintro (error | value) s held
  · exact held
  · exact held

theorem weaken {ok ok' : α → σ → Prop} {failed failed' : ε → σ → Prop} {s}
    (ensures : Ensures rely p ok failed s) (good : ∀ value s, ok value s → ok' value s)
    (bad : ∀ error s, failed error s → failed' error s) : Ensures rely p ok' failed' s := by
  refine Program.Ensures.weaken ensures ?_
  rintro (error | value) s held
  · exact bad error s held
  · exact good value s held

theorem and {ok ok' : α → σ → Prop} {failed failed' : ε → σ → Prop} {s}
    (first : Ensures rely p ok failed s) (second : Ensures rely p ok' failed' s) :
    Ensures rely p (fun value s => ok value s ∧ ok' value s)
      (fun error s => failed error s ∧ failed' error s) s := by
  refine (Program.Ensures.and first second).weaken ?_
  rintro (error | value) s held
  · exact held
  · exact held

end Ensures

/-- Started where `inv` holds, the program ends where it holds, also when it
    fails. -/
def Keeps (rely : Rely σ) (inv : σ → Prop) (p : Fallible σ ε α) : Prop :=
  Program.Keeps rely inv (ExceptT.run p)

namespace Keeps

variable {inv : σ → Prop}

theorem ensures {s : σ} (keeps : Keeps rely inv p) (held : inv s) :
    Ensures rely p (fun _ => inv) (fun _ => inv) s := by
  refine Program.Ensures.weaken (keeps s held) ?_
  rintro (error | value) s held
  · exact held
  · exact held

end Keeps

/-- Every action of the program makes one of these moves. -/
def Moves (move : σ → σ → Prop) (p : Fallible σ ε α) : Prop :=
  Program.Moves move (ExceptT.run p)

namespace Moves

variable {move : σ → σ → Prop}

theorem pure (value : α) : Moves move (Pure.pure value : Fallible σ ε α) := True.intro

theorem throw (error : ε) : Moves move (MonadExcept.throw error : Fallible σ ε α) := True.intro

theorem ofExcept (result : Except ε α) : Moves move (ofExcept result) := True.intro

theorem lift {p : Program σ α} (moves : Program.Moves move p) :
    Moves move (monadLift p : Fallible σ ε α) :=
  Program.Moves.map moves

theorem bind (first : Moves move p)
    (rest : ∀ value, Moves move (f value)) : Moves move (p >>= f) := by
  unfold Moves at *
  rw [ExceptT.run_bind]
  refine Program.Moves.bind first ?_
  rintro (error | value)
  · exact True.intro
  · exact rest value

theorem mapError {f : ε → δ} (moves : Moves move p) :
    Moves move (mapError f p) :=
  Program.Moves.map moves

theorem weaken {move' : σ → σ → Prop} (moves : Moves move p)
    (imp : ∀ s s', move s s' → move' s s') : Moves move' p :=
  Program.Moves.weaken moves imp

theorem ensures {rely : Rely σ} {inv : σ → Prop} {s : σ}
    (moves : Moves move p) (stable : rely.Stable inv)
    (kept : ∀ s s', move s s' → inv s → inv s') (held : inv s) :
    Ensures rely p (fun _ => inv) (fun _ => inv) s :=
  Keeps.ensures (Program.Moves.keeps moves stable kept) held

theorem exec (moves : Moves move p) (s : σ) :
    Relation.ReflTransGen move s (exec p s).2 :=
  Program.Moves.run moves s

end Moves

/-! ## A program and its model -/

/-- The same error, or values that belong together. -/
inductive Agree (good : α → β → Prop) : Except ε α → Except ε β → Prop where
  | error (error : ε) : Agree good (.error error) (.error error)
  | ok {a : α} {b : β} : good a b → Agree good (.ok a) (.ok b)

namespace Agree

variable {γ η : Type}

theorem refl (result : Except ε α) : Agree (fun a b => a = b) result result := by
  cases result with
  | error error => exact .error error
  | ok value => exact .ok rfl

theorem mapError {good : α → β → Prop} {model : Except ε α} {p : Fallible σ ε β} {s : σ}
    (f : ε → δ) (agree : Agree good model (exec p s).1) :
    Agree good (model.mapError f) (exec (Fallible.mapError f p) s).1 := by
  rw [exec_mapError]
  revert agree
  cases (exec p s).1 with
  | error error => rintro ⟨⟩; exact .error _
  | ok value => rintro ⟨⟩; exact .ok ‹_›

/-- A model is followed step by step. -/
theorem bind {good : α → β → Prop} {good' : γ → η → Prop} {model : Except ε α}
    {next : α → Except ε γ} {p : Fallible σ ε β} {f : β → Fallible σ ε η} {s : σ}
    (first : Agree good model (exec p s).1)
    (rest : ∀ a b, good a b → Agree good' (next a) (exec (f b) (exec p s).2).1) :
    Agree good' (model >>= next) (exec (p >>= f) s).1 := by
  rw [exec_bind]
  revert first rest
  cases exec p s with
  | mk result s' =>
    intro first rest
    cases first with
    | error error => exact .error error
    | ok related => exact rest _ _ related

end Agree

end Fallible

end Interleaving
