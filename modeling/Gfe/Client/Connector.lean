import Gfe.Lib.Crowd
import Gfe.Lib.Places

/-! # Connections to servers

A client opens connections to servers under one cap. The place is taken before anything is
done and kept for as long as the connection lives. What the dialer answers is given for each
connection, dropping the attempt before it answers being one of the ways it can fail.
-/

namespace Gfe.Client

open Interleaving

/-- The counter of the limit, with what it showed to every attempt that is counted. -/
abbrev Connections (ι : Type) := Places ι

structure LimitReached where
  max : Nat
  deriving DecidableEq, Repr

/-- Why a connection could not be opened. -/
inductive ConnectError (δ : Type) where
  /-- Opening one more connection would exceed the cap. -/
  | limit (reached : LimitReached)
  | dial (error : δ)
  deriving DecidableEq, Repr

/-- One share of the limit, given back when dropped. -/
structure Permit where

/-- A pooled connection, counted against the cap while it lives. -/
structure Pooled where
  permit : Permit

variable {ι δ : Type} [DecidableEq ι]

def fetchAdd (i : ι) : Program (Connections ι) Int := .exchange fun s => (s.count, s.enter i)

def Permit.drop (_ : Permit) (i : ι) : Program (Connections ι) Unit := .write (·.leave i)

def tryAcquire (max : Option Nat) (i : ι) : Fallible (Connections ι) LimitReached Permit := do
  let alreadyInUse ← fetchAdd i
  let permit : Permit := ⟨⟩
  match max with
  | some max =>
    if (max : Int) ≤ alreadyInUse then do
      permit.drop i
      throw ⟨max⟩
    else return permit
  | none => return permit

/-- `ServerConnector::call` -/
def call (max : Option Nat) (dialed : Except δ Unit) (i : ι) :
    Fallible (Connections ι) (ConnectError δ) Pooled := do
  let permit ← Fallible.mapError .limit (tryAcquire max i)
  match dialed with
  | .ok () => return ⟨permit⟩
  | .error error =>
    permit.drop i
    throw (.dial error)

/-- A connection from the attempt to open it until it is closed. -/
def connection (max : Option Nat) (dialed : Except δ Unit) (i : ι) :
    Program (Connections ι) (Except (ConnectError δ) Unit) := do
  match ← (call max dialed i).run with
  | .ok pooled =>
    pooled.permit.drop i
    return .ok ()
  | .error error => return .error error

/-- Connections about to be opened, by what the dialer will answer. -/
def connecting (max : Option Nat) (dialed : ι → Except δ Unit) :
    Crowd ι (Connections ι) (Except (ConnectError δ) Unit) :=
  ⟨fun i => connection max (dialed i) i, ⟨0, fun _ => none⟩⟩

/-! ## What an attempt does -/

/-- A step of the attempt `i`. -/
structure Moved (i : ι) (s s' : Connections ι) : Prop where
  places : s.Step s'
  others : ∀ j ≠ i, s'.seen j = s.seen j

/-- The attempt `i` is counted or not, as `counted` has it. -/
abbrev Counts {α : Type} (i : ι) (p : Program (Connections ι) α) (counted : Option Int)
    (post : α → Option Int → Prop) : Prop :=
  Program.Owns (fun s : Connections ι => s.seen i) (Moved i) (fun _ => True) p counted post

variable {i : ι}

theorem counts_drop {k : Int} (permit : Permit) :
    Counts i (permit.drop i) (some k) fun _ counted => counted = none := by
  apply Program.Owns.write True.intro
  intro s held
  refine ⟨⟨.leaves ?_, ?_⟩, ?_⟩
  · rw [held]
    rfl
  · exact fun j other => Function.update_of_ne other ..
  · exact Function.update_self ..

theorem counts_fetchAdd : Counts i (fetchAdd i) none fun _ counted => counted.isSome := by
  apply Program.Owns.exchange True.intro
  intro s free
  refine ⟨⟨.enters free, ?_⟩, ?_⟩
  · exact fun j other => Function.update_of_ne other ..
  · simp [Places.enter]

theorem counts_tryAcquire (max : Option Nat) :
    Counts i (ExceptT.run (tryAcquire max i)) none fun result counted =>
      match result with
      | .ok _ => counted.isSome
      | .error _ => counted = none := by
  apply Program.Owns.bindFallible
  apply Program.Owns.liftFallible
  refine counts_fetchAdd.weaken ?_
  intro already counted taken
  obtain ⟨k, rfl⟩ := Option.isSome_iff_exists.mp taken
  cases max with
  | none => exact .ret rfl
  | some max =>
    by_cases full : (max : Int) ≤ already
    · simp only [full, if_true]
      apply Program.Owns.bindFallible
      apply Program.Owns.liftFallible
      refine (counts_drop _).weaken ?_
      intro _ counted gone
      exact .ret gone
    · simp only [full, if_false]
      exact .ret rfl

theorem counts_call (max : Option Nat) (dialed : Except δ Unit) :
    Counts i (ExceptT.run (call max dialed i)) none fun result counted =>
      match result with
      | .ok _ => counted.isSome
      | .error _ => counted = none := by
  apply Program.Owns.bindFallible
  change Counts i (Except.mapError ConnectError.limit <$> ExceptT.run (tryAcquire max i)) none _
  rw [← bind_pure_comp]
  apply Program.Owns.bind
  refine (counts_tryAcquire max).weaken ?_
  rintro (reached | permit) counted held
  · exact .ret held
  · refine .ret ?_
    obtain ⟨k, rfl⟩ := Option.isSome_iff_exists.mp held
    cases dialed with
    | ok opened => exact .ret rfl
    | error error =>
      apply Program.Owns.bindFallible
      apply Program.Owns.liftFallible
      refine (counts_drop permit).weaken ?_
      intro _ counted gone
      exact .ret gone

theorem counts_connection (max : Option Nat) (dialed : Except δ Unit) :
    Counts i (connection max dialed i) none fun _ counted => counted = none := by
  apply Program.Owns.bind
  refine (counts_call max dialed).weaken ?_
  rintro (error | pooled) counted held
  · exact .ret held
  · obtain ⟨k, rfl⟩ := Option.isSome_iff_exists.mp held
    apply Program.Owns.bind
    refine (counts_drop pooled.permit).weaken ?_
    intro _ counted gone
    exact .ret gone

/-- At every moment the counter counts the attempts that are counted, and every attempt does what
    it should. -/
theorem connecting_sound [Fintype ι] {max : Option Nat} {dialed : ι → Except δ Unit}
    {c : Crowd ι (Connections ι) (Except (ConnectError δ) Unit)}
    (run : Crowd.Steps Eq (connecting max dialed) c) :
    c.state.Sound ∧ ∀ i, (c.threads i).Obeys (.keeping fun s => s.seen i) (Moved i)
      (fun _ => True) (fun _ s => s.seen i = none) c.state := by
  refine Crowd.sound ?_ ?_ (fun i s s' moved sound => sound.step moved.places) ?_ ?_ run
  · rintro s _ rfl sound
    exact ⟨fun i => rfl, sound⟩
  · exact fun i j s s' other moved => moved.others j (Ne.symm other)
  · constructor
    · simp [connecting, Places.holders]
    · intro n
      simp [connecting, Places.below]
  · exact fun i => counts_connection max (dialed i) _ rfl

end Gfe.Client
