import Gfe.LoadBalancing.Admission

/-! # The guard of a selection

Selecting a backend looks at the pool and, for `least_request`, counts the
request against the backend; nothing else is taken, also when it panics.
-/

namespace Gfe

open Interleaving

variable {ι τ : Type} [DecidableEq ι]

/-- A step that leaves the accounts alone, of the request `r`. -/
structure Looks (r : ι) (s s' : PoolState ι) : Prop where
  apart : Apart s s'
  others : ∀ q ≠ r, s'.ledger q = s.ledger q

omit [DecidableEq ι] in
theorem looks_idle (r : ι) (s : PoolState ι) : Looks r s s :=
  ⟨⟨rfl, rfl, rfl, fun _ => rfl⟩, fun _ _ => rfl⟩

section Looking

variable (pool : Pool τ) (r : ι)

theorem moves_healthyIndices (indices : List Nat) :
    (healthyIndices pool r indices).Moves (Looks r) := by
  induction indices with
  | nil => exact .pure _
  | cons i rest ih =>
    refine .bind (.ofExcept _) fun _ => .bind (.lift (.exchange ?_)) fun _ =>
      .bind ih fun _ => .pure _
    intro s
    dsimp only
    refine ⟨⟨rfl, rfl, rfl, ?_⟩, fun q other => PoolState.ledger_note_of_ne other ..⟩
    intro q
    by_cases same : q = r
    · rw [same, PoolState.ledger_note]
      rfl
    · rw [PoolState.ledger_note_of_ne same]

omit [DecidableEq ι]

theorem moves_inTurn (healthy : List Nat) :
    (inTurn healthy : Fallible (PoolState ι) Panic Nat).Moves (Looks r) := by
  refine .bind (.lift (.exchange ?_)) fun _ => .bind (.ofExcept _) fun _ => .ofExcept _
  exact fun s => ⟨⟨rfl, rfl, rfl, fun _ => rfl⟩, fun _ _ => rfl⟩

theorem moves_roundRobin (healthy : List Nat) :
    (roundRobin pool healthy : Fallible (PoolState ι) Panic Nat).Moves (Looks r) := by
  unfold roundRobin
  split
  · exact moves_inTurn r healthy
  · refine .bind (.ofExcept _) fun _ => ?_
    dsimp only
    split
    · exact moves_inTurn r healthy
    · exact .bind (.lift (.read (looks_idle r) _)) fun _ =>
        .bind (.ofExcept _) fun _ => .pure _

theorem moves_score (i : Nat) :
    (score pool i : Fallible (PoolState ι) Panic Score).Moves (Looks r) :=
  .bind (.ofExcept _) fun _ => .bind (.lift (.read (looks_idle r) _)) fun _ =>
    .bind (.ofExcept _) fun _ => .pure _

theorem moves_leastLoaded (order : ScoreOrder) (best : Nat) (rest : List Nat) :
    (leastLoaded order pool best rest : Fallible (PoolState ι) Panic Nat).Moves (Looks r) := by
  induction rest generalizing best with
  | nil => exact .pure _
  | cons next rest ih =>
    exact .bind (moves_score pool r best) fun _ => .bind (moves_score pool r next) fun _ => ih _

theorem moves_choose (order : ScoreOrder) (hashKey : Option UInt64) (healthy : List Nat) :
    (choose order pool hashKey healthy : Fallible (PoolState ι) Panic Nat).Moves (Looks r) := by
  unfold choose
  split
  · exact moves_roundRobin pool r healthy
  · cases healthy with
    | nil => exact .throw _
    | cons best rest => exact moves_leastLoaded pool r order best rest
  · refine .bind (.ofExcept _) fun found => ?_
    cases found with
    | none => exact moves_roundRobin pool r healthy
    | some idx => exact .pure _

end Looking

section Guards

variable {pool : Pool τ} {r : ι} {entry e : Entry} {answers : List (Except Limit Unit)}
  {held : List Counter}

theorem Entry.Lives.congr (lives : entry.Lives pool) (same : e.accounts = entry.accounts) :
    e.Lives pool := by
  obtain ⟨taken, _, place, answers⟩ : e.taken = entry.taken ∧ e.dropped = entry.dropped ∧
      e.place = entry.place ∧ e.answers = entry.answers := by
    simpa [Entry.accounts] using same
  rwa [Entry.Lives, taken, place, answers]

theorem Entry.Books.congr (books : entry.Books answers held)
    (same : e.accounts = entry.accounts) : e.Books answers held := by
  obtain ⟨taken, dropped, place, said⟩ : e.taken = entry.taken ∧ e.dropped = entry.dropped ∧
      e.place = entry.place ∧ e.answers = entry.answers := by
    simpa [Entry.accounts] using same
  refine ⟨said.trans books.answers, ?_, place ▸ books.placed, books.single⟩
  rw [taken, dropped]
  exact books.balanced

theorem Entry.Books.perm {held' : List Counter} (books : entry.Books answers held)
    (same : held.Perm held') : entry.Books answers held' := by
  refine ⟨books.answers, ?_, books.placed.trans same.mem_iff, ?_⟩
  · intro counter
    rw [← same.count_eq]
    exact books.balanced counter
  · rw [← same.count_eq]
    exact books.single

theorem accounts_looking {α : Type} {p : Program (PoolState ι) α} (moves : p.Moves (Looks r))
    (lives : entry.Lives pool) :
    Accounts pool r p entry fun _ e => e.accounts = entry.accounts := by
  have step : ∀ s s' : PoolState ι, Looks r s s' → Moved pool r s s' ∧
      ((s.ledger r).accounts = entry.accounts → (s'.ledger r).accounts = entry.accounts) :=
    fun s s' looks => ⟨.apart looks.apart looks.others, (looks.apart.accounts r).trans⟩
  have fine : ∀ e : Entry, e.accounts = entry.accounts → e.Lives pool :=
    fun e same => lives.congr same
  exact Program.Owns.ofMoves moves step fine rfl

theorem Entry.Books.taken (books : entry.Books answers held) (i : Nat) :
    Entry.Books { entry with
      taken := Function.update entry.taken (.backend i) (entry.taken (.backend i) + 1) }
      answers (.backend i :: held) := by
  refine ⟨books.answers, ?_, by simpa using books.placed, by simpa using books.single⟩
  intro counter
  have before := books.balanced counter
  by_cases same : counter = .backend i
  · subst same
    simp only [Function.update_self, List.count_cons_self]
    omega
  · simpa [same, List.count_cons_of_ne (Ne.symm same)] using before

def Selected (pool : Pool τ) (answers : List (Except Limit Unit)) (held : List Counter)
    (result : Except Panic (Option Selection)) (entry : Entry) : Prop :=
  entry.Lives pool ∧
    match result with
    | .ok (some selection) => entry.Books answers (selection.guard.held ++ held) ∧
        selection.guard.counter ≠ some .pool
    | _ => entry.Books answers held

theorem accounts_countAgainst (books : entry.Books answers held) (lives : entry.Lives pool)
    (idx : Nat) :
    Accounts pool r (ExceptT.run (do
        let guard ← countAgainst pool r idx
        let backend ← Fallible.ofExcept (index pool.backends idx)
        return some (Selection.mk backend guard))) entry (Selected pool answers held) := by
  apply Accounts.bindFallible
  unfold countAgainst
  split
  · apply Accounts.bindFallible
    by_cases within : idx < pool.backends.length
    · rw [inflightCounter_of_lt within, index_of_lt within]
      apply Accounts.ret
      apply Accounts.bindFallible
      apply Accounts.liftFallible
      apply Accounts.write lives
      rintro s rfl
      refine ⟨.takes idx, ?_⟩
      simp only [PoolState.take, PoolState.ledger_note]
      exact .ret (.bindFallible (.ret (.ret ⟨lives, books.taken idx, by simp⟩)))
    · rw [inflightCounter, if_neg within]
      exact .ret ⟨lives, books⟩
  · refine .ret ?_
    dsimp only
    apply Accounts.bindFallible
    refine .ret ?_
    cases index pool.backends idx with
    | error panic => exact ⟨lives, books⟩
    | ok backend => exact .ret ⟨lives, books, by simp⟩

theorem accounts_select (books : entry.Books answers held) (lives : entry.Lives pool)
    (order : ScoreOrder) (hashKey : Option UInt64) :
    Accounts pool r (ExceptT.run (select order pool r hashKey)) entry
      (Selected pool answers held) := by
  apply Accounts.bindFallible
  refine (accounts_looking (moves_healthyIndices pool r _) lives).weaken ?_
  rintro (panic | healthy) e same
  · exact ⟨lives.congr same, books.congr same⟩
  dsimp only
  split
  · exact .ret ⟨lives.congr same, books.congr same⟩
  · apply Accounts.bindFallible
    refine (accounts_looking (moves_choose pool r order hashKey healthy)
      (lives.congr same)).weaken ?_
    rintro (panic | idx) e' same'
    · exact ⟨(lives.congr same).congr same', (books.congr same).congr same'⟩
    · exact accounts_countAgainst ((books.congr same).congr same')
        ((lives.congr same).congr same') idx

end Guards

end Gfe
