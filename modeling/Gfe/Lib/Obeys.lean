import Gfe.Lib.Fallible

/-! # What holds while a program runs

`Obeys` is the specification of a program beside others: what holds whenever it
has an action to come, what its actions do, and what holds when it has returned.
`Ensures` is the case in which only the end matters.
-/

namespace Interleaving

namespace Program

variable {σ α β : Type} {rely : Rely σ} {guar : σ → σ → Prop} {during : σ → Prop}
  {p : Program σ α}
  {failed : ε → σ → Prop} {ok : α → σ → Prop} {post : α → σ → Prop} {inv : σ → Prop}

/-- Started in `s` and whatever `rely` lets others do between its actions:
    `during` holds as long as an action is to come, every action is a move of
    `guar`, and the program ends with `post`. -/
def Obeys (rely : Rely σ) (guar : σ → σ → Prop) (during : σ → Prop) :
    Program σ α → (α → σ → Prop) → σ → Prop
  | .ret value, post, s => ∀ s', rely.may s s' → post value s'
  | .act update next, post, s => ∀ s', rely.may s s' →
      during s' ∧ guar s' (update s') ∧ Obeys rely guar during (next s') post (update s')

/-- An assertion that others do not disturb, and that suffices as long as an
    action is to come. -/
structure Steady (rely : Rely σ) (during inv : σ → Prop) : Prop where
  stable : rely.Stable inv
  fine : ∀ s, inv s → during s

namespace Obeys

theorem move {post s s'} (obeys : Obeys rely guar during p post s)
    (moved : rely.may s s') : Obeys rely guar during p post s' := by
  cases p with
  | ret | act => exact fun t later => obeys t (rely.trans moved later)

theorem weaken {post post' : α → σ → Prop} {s}
    (obeys : Obeys rely guar during p post s) (imp : ∀ value s, post value s → post' value s) :
    Obeys rely guar during p post' s := by
  induction p generalizing s with
  | ret value => exact fun s' moved => imp value s' (obeys s' moved)
  | act update next ih =>
    intro s' moved
    obtain ⟨held, moves, rest⟩ := obeys s' moved
    exact ⟨held, moves, ih s' rest⟩

theorem bind {f : α → Program σ β} {post s}
    (obeys : Obeys rely guar during p (fun value s => Obeys rely guar during (f value) post s) s) :
    Obeys rely guar during (p >>= f) post s := by
  induction p generalizing s with
  | ret value => exact obeys s (rely.refl s)
  | act update next ih =>
    intro s' moved
    obtain ⟨held, moves, rest⟩ := obeys s' moved
    exact ⟨held, moves, ih s' rest⟩

theorem ret {value : α} {s}
    (stable : ∀ s', rely.may s s' → post value s') :
    Obeys rely guar during (.ret value) post s := stable

theorem settle {post s} (obeys : Obeys rely guar during p post s) :
    Obeys rely guar during p (fun value s => ∀ s', rely.may s s' → post value s') s := by
  induction p generalizing s with
  | ret value => exact fun t first u second => obeys u (rely.trans first second)
  | act update next ih =>
    intro s' moved
    obtain ⟨held, moves, rest⟩ := obeys s' moved
    exact ⟨held, moves, ih s' rest⟩

theorem and {post post' : α → σ → Prop} {s}
    (obeys : Obeys rely guar during p post s) (ensures : p.Ensures rely post' s) :
    Obeys rely guar during p (fun value s => post value s ∧ post' value s) s := by
  induction p generalizing s with
  | ret value => exact fun t moved => ⟨obeys t moved, ensures t moved⟩
  | act update next ih =>
    intro t moved
    obtain ⟨held, moves, rest⟩ := obeys t moved
    exact ⟨held, moves, ih t rest (ensures t moved)⟩

theorem map {f : α → β} {post : β → σ → Prop} {s}
    (obeys : Obeys rely guar during p (fun value => post (f value)) s) :
    Obeys rely guar during (f <$> p) post s := by
  rw [← bind_pure_comp]
  exact bind (obeys.settle.weaken fun _ _ held => held)

/-- One action: it may be taken in any state others lead to, and others may move
    after it. -/
theorem exchange {change : σ → α × σ} {s}
    (step : ∀ t, rely.may s t → during t ∧ guar t (change t).2 ∧
      ∀ u, rely.may (change t).2 u → post (change t).1 u) :
    Obeys rely guar during (.exchange change) post s := step

theorem write {update : σ → σ} {post : Unit → σ → Prop} {s}
    (step : ∀ t, rely.may s t → during t ∧ guar t (update t) ∧
      ∀ u, rely.may (update t) u → post () u) :
    Obeys rely guar during (.write update) post s := step

theorem read {view : σ → α} {s}
    (step : ∀ t, rely.may s t → during t ∧ guar t t ∧ ∀ u, rely.may t u → post (view t) u) :
    Obeys rely guar during (.read view) post s := step

theorem ofMoves {move : σ → σ → Prop} {s}
    (moves : p.Moves move) (steady : Steady rely during inv)
    (step : ∀ s s', move s s' → inv s → guar s s' ∧ inv s') (start : inv s) :
    Obeys rely guar during p (fun _ => inv) s := by
  induction p generalizing s with
  | ret value => exact fun t moved => steady.stable s t moved start
  | act update next ih =>
    intro t moved
    have here := steady.stable s t moved start
    obtain ⟨allowed, there⟩ := step t _ (moves t).1 here
    exact ⟨steady.fine t here, allowed, ih t (moves t).2 there⟩

theorem change {before after : σ → Prop} {update : σ → σ} {s} (steady : Steady rely during before)
    (stable : rely.Stable after) (step : ∀ s, before s → guar s (update s) ∧ after (update s))
    (held : before s) : Obeys rely guar during (.write update) (fun _ => after) s := by
  apply write
  intro t moved
  have here := steady.stable s t moved held
  obtain ⟨allowed, there⟩ := step t here
  exact ⟨steady.fine t here, allowed, fun u later => stable _ u later there⟩

theorem look {view : σ → α} {s} (steady : Steady rely during inv)
    (idle : ∀ s, inv s → guar s s) (held : inv s) :
    Obeys rely guar during (.read view) (fun _ => inv) s := by
  apply read
  intro t moved
  have here := steady.stable s t moved held
  exact ⟨steady.fine t here, idle t here, fun u later => steady.stable t u later here⟩

theorem now {post s} (obeys : Obeys rely guar during p post s) :
    match p with
    | .ret value => post value s
    | .act _ _ => during s := by
  cases p with
  | ret value => exact obeys s (rely.refl s)
  | act update next => exact (obeys s (rely.refl s)).1

theorem holds {post s} (obeys : Obeys rely guar during p post s)
    (ended : ∀ value s, post value s → during s) : during s := by
  cases p with
  | ret value => exact ended value s (obeys s (rely.refl s))
  | act update next => exact (obeys s (rely.refl s)).1

/-- Others may do less, and what neither they nor the moves of the program disturb
    is kept. -/
theorem keeping {rely' : Rely σ} {move : σ → σ → Prop} {keep : σ → Prop}
    {post s} (obeys : Obeys rely guar during p post s)
    (fewer : ∀ s s', rely'.may s s' → rely.may s s') (moves : p.Moves move)
    (stable : rely'.Stable keep) (kept : ∀ s s', move s s' → keep s → keep s') (start : keep s) :
    Obeys rely' guar during p (fun value s => post value s ∧ keep s) s := by
  induction p generalizing s with
  | ret value => exact fun t moved => ⟨obeys t (fewer s t moved), stable s t moved start⟩
  | act update next ih =>
    intro t moved
    obtain ⟨held, allowed, later⟩ := obeys t (fewer s t moved)
    have there := kept t _ (moves t).1 (stable s t moved start)
    exact ⟨held, allowed, ih t later (moves t).2 there⟩

/-- What a program obeys it obeys after any number of moves, and what its own and
    the other moves keep is kept. -/
theorem sound {env : σ → σ → Prop} {p p' : Program σ α} {post s s'}
    (allowed : ∀ s s', env s s' → rely.may s s' ∧ (inv s → inv s'))
    (kept : ∀ s s', guar s s' → inv s → inv s') (initial : inv s)
    (obeys : Obeys rely guar during p post s) (steps : Steps env (p, s) (p', s')) :
    inv s' ∧ Obeys rely guar during p' post s' := by
  suffices held : ∀ c c' : Program σ α × σ, Steps env c c' →
      inv c.2 ∧ Obeys rely guar during c.1 post c.2 →
      inv c'.2 ∧ Obeys rely guar during c'.1 post c'.2 from held _ _ steps ⟨initial, obeys⟩
  intro c c' steps held
  induction steps with
  | refl => exact held
  | tail _ last ih =>
    obtain ⟨here, obeys⟩ := ih
    cases last with
    | act update next s =>
      obtain ⟨_, moved, rest⟩ := obeys s (rely.refl s)
      exact ⟨kept s _ moved here, rest⟩
    | env moved => exact ⟨(allowed _ _ moved).2 here, obeys.move (allowed _ _ moved).1⟩

end Obeys

/-! ## What a program owns -/

/-- A specification in terms of the part of the state that others leave alone:
    started with `before`, the program keeps to `guar`, to `during` as long as an
    action is to come, and ends with `post`. -/
def Owns {ω : Type} (own : σ → ω) (guar : σ → σ → Prop) (during : ω → Prop) (p : Program σ α)
    (before : ω) (post : α → ω → Prop) : Prop :=
  ∀ s, own s = before → p.Obeys (.keeping own) guar (fun s => during (own s))
    (fun value s => post value (own s)) s

namespace Owns

variable {ω : Type} {own : σ → ω} {during : ω → Prop} {before : ω}

theorem ret {value : α} {post : α → ω → Prop} (here : post value before) :
    Owns own guar during (.ret value) before post := by
  intro s start
  apply Obeys.ret
  intro t same
  rwa [show own t = own s from same, start]

theorem exchange {change : σ → α × σ} {post : α → ω → Prop} (held : during before)
    (step : ∀ s, own s = before → guar s (change s).2 ∧ post (change s).1 (own (change s).2)) :
    Owns own guar during (.exchange change) before post := by
  intro s start
  apply Obeys.exchange
  intro t same
  have here : own t = before := same.trans start
  refine ⟨here ▸ held, (step t here).1, ?_⟩
  intro u later
  rw [show own u = _ from later]
  exact (step t here).2

theorem write {update : σ → σ} {post : Unit → ω → Prop} (held : during before)
    (step : ∀ s, own s = before → guar s (update s) ∧ post () (own (update s))) :
    Owns own guar during (.write update) before post :=
  show Owns own guar during (.exchange fun s => ((), update s)) before post from exchange held step

theorem read {view : σ → α} {post : α → ω → Prop} (held : during before)
    (step : ∀ s, own s = before → guar s s ∧ post (view s) before) :
    Owns own guar during (.read view) before post := by
  suffices same : Owns own guar during (.exchange fun s => (view s, s)) before post from same
  refine exchange held ?_
  intro s here
  rw [here]
  exact step s here

theorem weaken {post post' : α → ω → Prop}
    (owns : Owns own guar during p before post) (imp : ∀ value o, post value o → post' value o) :
    Owns own guar during p before post' :=
  fun s start => (owns s start).weaken fun value t => imp value (own t)

theorem bind {f : α → Program σ β} {post : β → ω → Prop}
    (owns : Owns own guar during p before fun value o => Owns own guar during (f value) o post) :
    Owns own guar during (p >>= f) before post := by
  intro s start
  apply Obeys.bind
  refine (owns s start).weaken ?_
  intro value t rest
  exact rest t rfl

theorem bindFallible {ε : Type} {p : Fallible σ ε α} {f : α → Fallible σ ε β}
    {post : Except ε β → ω → Prop}
    (owns : Owns own guar during (ExceptT.run p) before fun result o =>
      match result with
      | .ok value => Owns own guar during (ExceptT.run (f value)) o post
      | .error error => post (.error error) o) :
    Owns own guar during (ExceptT.run (p >>= f)) before post := by
  rw [ExceptT.run_bind]
  refine bind (owns.weaken ?_)
  rintro (error | value) o rest
  · exact ret rest
  · exact rest

theorem liftFallible {ε : Type} {post : Except ε α → ω → Prop}
    (owns : Owns own guar during p before fun value => post (.ok value)) :
    Owns own guar during (ExceptT.run (monadLift p : Fallible σ ε α)) before post := by
  change Owns own guar during (Except.ok <$> p) before post
  rw [← bind_pure_comp]
  exact bind (owns.weaken fun _ _ held => ret held)

theorem ofMoves {move : σ → σ → Prop} {keep : ω → Prop} (moves : p.Moves move)
    (step : ∀ s s', move s s' → guar s s' ∧ (keep (own s) → keep (own s')))
    (fine : ∀ o, keep o → during o) (start : keep before) :
    Owns own guar during p before fun _ => keep := by
  intro s here
  refine Obeys.ofMoves moves ⟨Rely.stable_keeping, fun t held => fine _ held⟩ ?_ (here ▸ start)
  intro t t' moved held
  obtain ⟨allowed, kept⟩ := step t t' moved
  exact ⟨allowed, kept held⟩

end Owns

/-- A program that does and says nothing in particular until its end. -/
theorem obeys_iff_ensures {s : σ} :
    Obeys rely (fun _ _ => True) (fun _ => True) p post s ↔ Ensures rely p post s := by
  induction p generalizing s with
  | ret value => exact Iff.rfl
  | act update next ih =>
    constructor
    · intro obeys s' moved
      exact (ih s').mp (obeys s' moved).2.2
    · intro ensures s' moved
      exact ⟨True.intro, True.intro, (ih s').mpr (ensures s' moved)⟩

end Program

/-! ## Behind a lock -/

namespace Locked

variable {σ : Type} {env : σ → σ → Prop} {jobs : Set (Program σ Unit)} {rely : Rely σ}
  {guar : σ → σ → Prop} {during inv : σ → Prop}

/-- When the lock is free the invariant holds, and whoever has it is obeying what
    leads back to the invariant, whatever the environment does meanwhile. -/
theorem obeys (allowed : ∀ s s', env s s' → rely.may s s') (stable : rely.Stable inv)
    (kept : ∀ job ∈ jobs, ∀ s, inv s → job.Obeys rely guar during (fun _ => inv) s)
    {s : σ} (initial : inv s) {c : Locked σ} (steps : Steps env jobs ⟨s, none⟩ c) :
    match c.holder with
    | none => inv c.state
    | some job => job.Obeys rely guar during (fun _ => inv) c.state := by
  induction steps with
  | refl => exact initial
  | tail _ last ih =>
    cases last with
    | @env s s' holder moved =>
      cases holder with
      | none => exact stable _ _ (allowed _ _ moved) ih
      | some job => exact Program.Obeys.move ih (allowed _ _ moved)
    | acquire listed => exact kept _ listed _ ih
    | act => exact (ih _ (rely.refl _)).2.2
    | release => exact ih _ (rely.refl _)

theorem always (allowed : ∀ s s', env s s' → rely.may s s') (steady : Program.Steady rely during inv)
    (kept : ∀ job ∈ jobs, ∀ s, inv s → job.Obeys rely guar during (fun _ => inv) s)
    {s : σ} (initial : inv s) {c : Locked σ} (steps : Steps env jobs ⟨s, none⟩ c) :
    during c.state := by
  have here := obeys allowed steady.stable kept initial steps
  obtain ⟨state, holder⟩ := c
  cases holder with
  | none => exact steady.fine _ here
  | some job => exact Program.Obeys.holds here fun _ s => steady.fine s

end Locked

/-! ## Programs that can fail -/

namespace Fallible

variable {σ ε δ α β : Type} {rely : Rely σ} {guar : σ → σ → Prop} {during : σ → Prop}
  {p : Fallible σ ε α} {f : α → Fallible σ ε β}

/-- What holds while the program runs, and how it ends: well with `ok`, or with
    an error and `failed`. -/
def Obeys (rely : Rely σ) (guar : σ → σ → Prop) (during : σ → Prop) (p : Fallible σ ε α)
    (ok : α → σ → Prop) (failed : ε → σ → Prop) (s : σ) : Prop :=
  Program.Obeys rely guar during (ExceptT.run p) (fun result s =>
    match result with
    | .ok value => ok value s
    | .error error => failed error s) s

namespace Obeys

theorem bind {ok failed s}
    (obeys : Obeys rely guar during p (fun value s => Obeys rely guar during (f value) ok failed s)
      failed s) :
    Obeys rely guar during (p >>= f) ok failed s := by
  unfold Obeys at *
  rw [ExceptT.run_bind]
  apply Program.Obeys.bind
  apply obeys.settle.weaken
  intro result s held
  cases result with
  | error error => exact held
  | ok value => exact held s (rely.refl s)

theorem lift {p : Program σ α} {s}
    (obeys : p.Obeys rely guar during ok s) :
    Obeys rely guar during (monadLift p) ok failed s :=
  Program.Obeys.map (obeys.weaken fun _ _ held => held)

theorem bindLift {p : Program σ α} {mid : α → σ → Prop} {ok failed s}
    (first : p.Obeys rely guar during mid s)
    (rest : ∀ value s, mid value s → Obeys rely guar during (f value) ok failed s) :
    Obeys rely guar during (monadLift p >>= f) ok failed s :=
  bind (lift (first.weaken rest))

theorem pure {value : α} {s}
    (stable : ∀ s', rely.may s s' → ok value s') :
    Obeys rely guar during (Pure.pure value : Fallible σ ε α) ok failed s := stable

theorem throw {error : ε} {s}
    (stable : ∀ s', rely.may s s' → failed error s') :
    Obeys rely guar during (MonadExcept.throw error : Fallible σ ε α) ok failed s := stable

theorem ofExcept {result : Except ε α} {s}
    (good : ∀ value, result = .ok value → ∀ s', rely.may s s' → ok value s')
    (bad : ∀ error, result = .error error → ∀ s', rely.may s s' → failed error s') :
    Obeys rely guar during (ofExcept result) ok failed s := by
  cases result with
  | ok value => exact good value rfl
  | error error => exact bad error rfl

theorem weaken {ok ok' : α → σ → Prop} {failed failed' : ε → σ → Prop} {s}
    (obeys : Obeys rely guar during p ok failed s) (good : ∀ value s, ok value s → ok' value s)
    (bad : ∀ error s, failed error s → failed' error s) :
    Obeys rely guar during p ok' failed' s := by
  apply Program.Obeys.weaken obeys
  intro result s held
  cases result with
  | error error => exact bad error s held
  | ok value => exact good value s held

theorem and {ok ok' : α → σ → Prop} {failed failed' : ε → σ → Prop} {s}
    (obeys : Obeys rely guar during p ok failed s) (ensures : p.Ensures rely ok' failed' s) :
    Obeys rely guar during p (fun value s => ok value s ∧ ok' value s)
      (fun error s => failed error s ∧ failed' error s) s := by
  apply Program.Obeys.weaken (Program.Obeys.and obeys ensures)
  intro result s held
  cases result with
  | error error => exact held
  | ok value => exact held

theorem attempt {ok : Except ε α → σ → Prop} {failed : δ → σ → Prop} {s}
    (obeys : Obeys rely guar during p (fun value => ok (.ok value)) (fun error => ok (.error error))
      s) : Obeys rely guar during (attempt p) ok failed s := by
  apply lift
  apply Program.Obeys.weaken obeys
  intro result s held
  cases result with
  | error error => exact held
  | ok value => exact held

theorem mapError {f : ε → δ} {ok failed s}
    (obeys : Obeys rely guar during p ok (fun error => failed (f error)) s) :
    Obeys rely guar during (mapError f p) ok failed s := by
  apply Program.Obeys.map (f := Except.mapError f)
  apply Program.Obeys.weaken obeys
  intro result s held
  cases result with
  | error error => exact held
  | ok value => exact held

theorem ofMoves {move : σ → σ → Prop} {s}
    (moves : Moves move p) (steady : Program.Steady rely during inv)
    (step : ∀ s s', move s s' → inv s → guar s s' ∧ inv s') (start : inv s) :
    Obeys rely guar during p (fun _ => inv) (fun _ => inv) s := by
  apply Program.Obeys.weaken (Program.Obeys.ofMoves moves steady step start)
  intro result s held
  cases result with
  | error error => exact held
  | ok value => exact held

end Obeys

theorem obeys_iff_ensures {s : σ} :
    Obeys rely (fun _ _ => True) (fun _ => True) p ok failed s ↔ Ensures rely p ok failed s :=
  Program.obeys_iff_ensures

end Fallible

end Interleaving
