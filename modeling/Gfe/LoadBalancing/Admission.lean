import Gfe.Lib.Crowd
import Gfe.Lib.Places
import Gfe.LoadBalancing.Selection
import Mathlib.Algebra.BigOperators.Group.Finset.Piecewise

/-! # Admission to a pool

A request is admitted if the pool has a place for it and, checked only then, its
rate lets it through. Requests come and go at any moment; what each of them did
is in the ledger, and the counters of the pool are the sum of it.
-/

namespace Gfe

open Interleaving

variable {ι τ : Type} [DecidableEq ι] {pool : Pool τ}

/-! ## Admitting -/

def Entry.answered (entry : Entry) (answer : Except Limit Unit) : Entry :=
  { entry with answers := entry.answers ++ [answer] }

namespace PoolState

/-- `in_flight.fetch_add(1)`, by a request that is refused if `max` are already
    in flight. -/
def enter (r : ι) (max : Nat) (s : PoolState ι) : Int × PoolState ι :=
  let already := s.inFlight .pool
  let placed := (s.take r .pool).note r fun entry => { entry with place := some already }
  (already,
    if max ≤ already then placed.note r (·.answered (.error .maxInFlight)) else placed)

def askRate (r : ι) (now : Instant) (s : PoolState ι) : Bool × PoolState ι :=
  match s.rate with
  | none => (true, s.note r (·.answered (.ok ())))
  | some bucket =>
    let permitted := (bucket.tryAcquire now).1.isOk
    let asked : Asked ι := ⟨r, now, permitted⟩
    let answer := if permitted then .ok () else .error .maxRequestsPerSecond
    (permitted, { s with
      rate := some (bucket.tryAcquire now).2
      asked := s.asked ++ [asked] }.note r (·.answered answer))

end PoolState

/-- The second half of `Pool::admit`: a request without a permit gives its place back. -/
def admitAtRate (r : ι) (now : Instant) (guard : InflightGuard) :
    Program (PoolState ι) (Except Limit InflightGuard) := do
  if ← .exchange (·.askRate r now) then
    return .ok guard
  else do
    guard.drop r
    return .error .maxRequestsPerSecond

def admitRequest (pool : Pool τ) (r : ι) (now : Instant) :
    Program (PoolState ι) (Except Limit InflightGuard) :=
  match pool.maxInFlight with
  | none => admitAtRate r now ⟨none⟩
  | some max => do
    let already ← .exchange (·.enter r max.val.toNat)
    if max.val.toNat ≤ already then do
      (⟨some .pool⟩ : InflightGuard).drop r
      return .error .maxInFlight
    else admitAtRate r now ⟨some .pool⟩

/-! ## What requests do to a pool -/

/-- The entry of a request that was counted in the pool. -/
def Entry.entered (entry : Entry) (seen : Int) : Entry :=
  { entry with
    taken := Function.update entry.taken .pool (entry.taken .pool + 1)
    place := some seen }

namespace PoolState

variable {q r : ι} (s : PoolState ι)

theorem ledger_take_of_ne (other : q ≠ r) (counter : Counter) :
    (s.take r counter).ledger q = s.ledger q :=
  ledger_note_of_ne other ..

theorem ledger_release_of_ne (other : q ≠ r) (counter : Counter) :
    (s.release r counter).ledger q = s.ledger q :=
  ledger_note_of_ne other ..

theorem ledger_enter_of_ne (other : q ≠ r) (max : Nat) :
    (s.enter r max).2.ledger q = s.ledger q := by
  simp only [enter]
  split <;> simp only [ledger_note_of_ne other, ledger_take_of_ne s other]

theorem ledger_askRate_of_ne (other : q ≠ r) (now : Instant) :
    (s.askRate r now).2.ledger q = s.ledger q := by
  simp only [askRate]
  split <;> simp only [ledger_note_of_ne other]

@[simp] theorem enter_fst (r : ι) (max : Nat) : (s.enter r max).1 = s.inFlight .pool := rfl

theorem inFlight_enter (r : ι) (max : Nat) :
    (s.enter r max).2.inFlight = Function.update s.inFlight .pool (s.inFlight .pool + 1) := by
  simp only [enter]
  split <;> rfl

theorem rate_enter (r : ι) (max : Nat) : (s.enter r max).2.rate = s.rate := by
  simp only [enter]
  split <;> rfl

theorem asked_enter (r : ι) (max : Nat) : (s.enter r max).2.asked = s.asked := by
  simp only [enter]
  split <;> rfl

theorem ledger_enter (r : ι) (max : Nat) :
    (s.enter r max).2.ledger r =
      if max ≤ s.inFlight .pool then
        ((s.ledger r).entered (s.inFlight .pool)).answered (.error .maxInFlight)
      else (s.ledger r).entered (s.inFlight .pool) := by
  simp only [enter]
  split <;> simp [take, Entry.entered]

theorem inFlight_askRate (r : ι) (now : Instant) :
    (s.askRate r now).2.inFlight = s.inFlight := by
  simp only [askRate]
  split <;> rfl

theorem ledger_askRate (r : ι) (now : Instant) :
    (s.askRate r now).2.ledger r = (s.ledger r).answered
      (if (s.askRate r now).1 then .ok () else .error .maxRequestsPerSecond) := by
  cases rate : s.rate <;> simp [askRate, rate]

section Rated

variable {s} {bucket : TokenBucket} (rated : s.rate = some bucket) (r : ι) (now : Instant)

include rated

theorem askRate_fst : (s.askRate r now).1 = (bucket.tryAcquire now).1.isOk := by
  rw [askRate, rated]

theorem rate_askRate : (s.askRate r now).2.rate = some (bucket.tryAcquire now).2 := by
  rw [askRate, rated]
  rfl

theorem asked_askRate : (s.askRate r now).2.asked =
    s.asked ++ [⟨r, now, (bucket.tryAcquire now).1.isOk⟩] := by
  rw [askRate, rated]
  rfl

end Rated

end PoolState

/-- What the ledger says about the counters and the answers. -/
def Entry.accounts (entry : Entry) :
    (Counter → Nat) × (Counter → Nat) × Option Int × List (Except Limit Unit) :=
  (entry.taken, entry.dropped, entry.place, entry.answers)

/-- A step that leaves the counters and the rate alone. -/
structure Apart (s s' : PoolState ι) : Prop where
  inFlight : s'.inFlight = s.inFlight
  rate : s'.rate = s.rate
  asked : s'.asked = s.asked
  accounts : ∀ q, (s'.ledger q).accounts = (s.ledger q).accounts

/-- A step of the request `r`. -/
inductive Moved (pool : Pool τ) (r : ι) (s : PoolState ι) : PoolState ι → Prop where
  | apart {s'} : Apart s s' → (∀ q ≠ r, s'.ledger q = s.ledger q) → Moved pool r s s'
  | enters {max} : pool.maxInFlight = some max → (s.ledger r).place = none →
      (s.ledger r).answers = [] → Moved pool r s (s.enter r max.val.toNat).2
  | asks (now) : (s.ledger r).answers = [] → Moved pool r s (s.askRate r now).2
  | takes (i : Nat) : Moved pool r s (s.take r (.backend i))
  | releases {counter} : (counter = .pool → (s.ledger r).place.isSome) →
      (s.ledger r).dropped counter < (s.ledger r).taken counter →
      Moved pool r s (s.release r counter)

theorem Moved.others {q r : ι} {s s' : PoolState ι} (moved : Moved pool r s s')
    (other : q ≠ r) : s'.ledger q = s.ledger q := by
  cases moved with
  | apart apart own => exact own q other
  | enters capped free fresh => exact s.ledger_enter_of_ne other _
  | asks now fresh => exact s.ledger_askRate_of_ne other now
  | takes i => exact s.ledger_take_of_ne other _
  | releases held counted => exact s.ledger_release_of_ne other _

theorem Moved.answers {q r : ι} {s s' : PoolState ι} (moved : Moved pool r s s')
    (answered : (s.ledger q).answers ≠ []) : (s'.ledger q).answers = (s.ledger q).answers := by
  cases moved with
  | apart apart own => exact congrArg (·.2.2.2) (apart.accounts q)
  | @enters max capped free fresh =>
    have other : q ≠ r := by
      rintro rfl
      exact answered fresh
    rw [s.ledger_enter_of_ne other]
  | asks now fresh =>
    have other : q ≠ r := by
      rintro rfl
      exact answered fresh
    rw [s.ledger_askRate_of_ne other]
  | takes i =>
    by_cases same : q = r
    · simp [PoolState.take, same]
    · rw [s.ledger_take_of_ne same]
  | @releases counter held counted =>
    by_cases same : q = r
    · simp [PoolState.release, same]
    · rw [s.ledger_release_of_ne same]

theorem Moved.answersOnce {q r : ι} {s s' : PoolState ι}
    (moved : Moved pool r s s') (once : (s.ledger q).answers.length ≤ 1) :
    (s'.ledger q).answers.length ≤ 1 := by
  by_cases same : q = r
  · subst same
    cases moved with
    | apart apart own => rwa [show (s'.ledger q).answers = _ from congrArg (·.2.2.2) (apart.accounts q)]
    | enters capped free fresh =>
      rw [s.ledger_enter]
      split <;> simp [Entry.answered, Entry.entered, fresh]
    | asks now fresh =>
      rw [s.ledger_askRate]
      simp [Entry.answered, fresh]
    | takes i => simpa [PoolState.take] using once
    | releases held counted => simpa [PoolState.release] using once
  · rwa [moved.others same]

/-! ## The books balance -/

/-- What surrounds the requests: health and random numbers change at any time. -/
structure Around (s s' : PoolState ι) : Prop where
  inFlight : s'.inFlight = s.inFlight
  rate : s'.rate = s.rate
  asked : s'.asked = s.asked
  ledger : s'.ledger = s.ledger

section Balance

variable [Fintype ι]

/-- The places of a pool, as its counter and its requests know them. -/
def PoolState.places (s : PoolState ι) : Places ι where
  count := s.inFlight .pool
  seen q := (s.ledger q).place

/-- What the request did to the counter of a backend, all in all. -/
def Entry.net (entry : Entry) (i : Nat) : Int :=
  (entry.taken (.backend i) : Int) - entry.dropped (.backend i)

/-- The counters are the sum of what the requests did. -/
structure Balanced (s : PoolState ι) : Prop where
  places : s.places.Sound
  counts : ∀ i, s.inFlight (.backend i) = ∑ q, (s.ledger q).net i

omit [DecidableEq ι] in
theorem Around.balanced {s s' : PoolState ι} (around : Around s s') (balanced : Balanced s) :
    Balanced s' := by
  have places : s'.places = s.places := by
    simp only [PoolState.places, around.inFlight, around.ledger]
  refine ⟨places ▸ balanced.places, ?_⟩
  simp only [around.inFlight, around.ledger]
  exact balanced.counts

omit [DecidableEq ι] in
theorem balanced_new (pool : Pool τ) (status : HandleId → HealthStatus)
    (unknownIsSelectable : Bool) (random : UInt64) :
    Balanced (.new pool status unknownIsSelectable random : PoolState ι) := by
  refine ⟨⟨?_, ?_⟩, ?_⟩
  · simp [PoolState.places, PoolState.new, Places.holders]
  · intro n
    simp [PoolState.places, PoolState.new, Places.below]
  · intro i
    simp [PoolState.new, Entry.net]

/-- How a step of one request may change its place: it keeps what it has, takes a
    free place, or gives the place it holds back. -/
inductive PlaceStep (count count' : Int) : Option Int → Option Int → Prop where
  | keeps (place) : count' = count → PlaceStep count count' place place
  | takes : count' = count + 1 → PlaceStep count count' none (some count)
  | gives (seen) : count' = count - 1 → PlaceStep count count' (some seen) none

omit [Fintype ι] in
theorem Moved.place {r : ι} {s s' : PoolState ι} (moved : Moved pool r s s') :
    PlaceStep (s.inFlight .pool) (s'.inFlight .pool) (s.ledger r).place (s'.ledger r).place := by
  cases moved with
  | apart apart own =>
    have place : (s'.ledger r).place = (s.ledger r).place := congrArg (·.2.2.1) (apart.accounts r)
    rw [place]
    exact .keeps _ (by rw [apart.inFlight])
  | @enters max capped free fresh =>
    rw [s.ledger_enter, s.inFlight_enter, free, Function.update_self]
    split <;> exact .takes rfl
  | asks now fresh =>
    simp only [PoolState.askRate]
    split <;> simp [Entry.answered, PlaceStep.keeps]
  | takes i =>
    simp only [PoolState.take]
    simp [PlaceStep.keeps]
  | @releases counter held counted =>
    simp only [PoolState.release]
    cases counter with
    | pool =>
      obtain ⟨seen, here⟩ := Option.isSome_iff_exists.mp (held rfl)
      simp [here, PlaceStep.gives]
    | backend i => simp [PlaceStep.keeps]

omit [Fintype ι] in
theorem Moved.places {r : ι} {s s' : PoolState ι} (moved : Moved pool r s s') :
    s.places.Step s'.places := by
  have seen : s'.places = ⟨s'.inFlight .pool,
      Function.update s.places.seen r (s'.ledger r).place⟩ := by
    refine congrArg (Places.mk _) ?_
    funext q
    by_cases same : q = r
    · rw [same, Function.update_self]
    · rw [Function.update_of_ne same, moved.others same]
      rfl
  rw [seen]
  have place := moved.place
  generalize before : (s.ledger r).place = old at place
  generalize (s'.ledger r).place = new at place
  cases place with
  | keeps _ same =>
    rw [same, ← before]
    exact (Function.update_eq_self r s.places.seen).symm ▸ .stays
  | takes more =>
    rw [more]
    exact .enters before
  | gives seen less =>
    rw [less]
    refine .leaves ?_
    exact Option.isSome_iff_exists.mpr ⟨seen, before⟩

theorem Balanced.step {s s' : PoolState ι} (r : ι) (balanced : Balanced s)
    (places : s.places.Step s'.places)
    (others : ∀ q ≠ r, (s'.ledger q).accounts = (s.ledger q).accounts)
    (backends : ∀ i, s'.inFlight (.backend i) =
      s.inFlight (.backend i) + ((s'.ledger r).net i - (s.ledger r).net i)) : Balanced s' := by
  refine ⟨balanced.places.step places, ?_⟩
  intro i
  have nets : (fun q => (s'.ledger q).net i) =
      Function.update (fun q => (s.ledger q).net i) r ((s'.ledger r).net i) := by
    funext q
    by_cases same : q = r
    · rw [same, Function.update_self]
    · rw [Function.update_of_ne same, Entry.net, Entry.net]
      have taken : (s'.ledger q).taken = (s.ledger q).taken := congrArg (·.1) (others q same)
      have dropped : (s'.ledger q).dropped = (s.ledger q).dropped :=
        congrArg (·.2.1) (others q same)
      rw [taken, dropped]
  have before : s.inFlight (.backend i) = ∑ q, (s.ledger q).net i := balanced.counts i
  change _ = ∑ q, (s'.ledger q).net i
  rw [nets, Finset.sum_update_of_mem (Finset.mem_univ r), backends i, before,
    ← Finset.add_sum_erase Finset.univ (fun q => (s.ledger q).net i) (Finset.mem_univ r),
    Finset.sdiff_singleton_eq_erase]
  omega

theorem Moved.balanced {r : ι} {s s' : PoolState ι} (moved : Moved pool r s s')
    (balanced : Balanced s) : Balanced s' := by
  refine balanced.step r moved.places ?_ ?_
  · intro q other
    rw [moved.others other]
  intro i
  cases moved with
  | apart apart own =>
    have taken : (s'.ledger r).taken = (s.ledger r).taken := congrArg (·.1) (apart.accounts r)
    have dropped : (s'.ledger r).dropped = (s.ledger r).dropped :=
      congrArg (·.2.1) (apart.accounts r)
    simp [Entry.net, taken, dropped, apart.inFlight]
  | enters capped free fresh =>
    rw [s.ledger_enter, s.inFlight_enter]
    split <;> simp [Entry.net, Entry.entered, Entry.answered]
  | asks now fresh =>
    simp only [PoolState.askRate]
    split <;> simp [Entry.answered, Entry.net]
  | takes j =>
    simp only [PoolState.take]
    by_cases same : i = j <;> simp [Entry.net, same]
  | @releases counter held counted =>
    simp only [PoolState.release]
    cases counter with
    | pool => simp [Entry.net]
    | backend j =>
      by_cases same : i = j
      · simp [Entry.net, same]
        omega
      · simp [Entry.net, same]

end Balance

/-! ## The books of one request -/

/-- Others leave the entry of the request alone. -/
def ledgerOf (r : ι) : Rely (PoolState ι) := .keeping fun s => s.ledger r

def InflightGuard.held (guard : InflightGuard) : List Counter := guard.counter.toList

/-- The request was given these answers, and is counted in these counters. -/
structure Entry.Books (entry : Entry) (answers : List (Except Limit Unit))
    (held : List Counter) : Prop where
  answers : entry.answers = answers
  balanced : ∀ counter, entry.taken counter = entry.dropped counter + held.count counter
  placed : entry.place.isSome ↔ .pool ∈ held
  single : held.count .pool ≤ 1

/-- Once admitted to a pool with a cap, the request holds the one place it ever
    took, and it saw less than the cap. -/
def Entry.Lives (pool : Pool τ) (entry : Entry) : Prop :=
  .ok () ∈ entry.answers → ∀ max, pool.maxInFlight = some max →
    entry.taken .pool = 1 ∧ ∃ seen, entry.place = some seen ∧ seen < max.val.toNat

/-- What a program does for the request `r`: from this entry in the ledger to
    one that satisfies `post`. -/
def Accounts {α : Type} (pool : Pool τ) (r : ι) (p : Program (PoolState ι) α) (entry : Entry)
    (post : α → Entry → Prop) : Prop :=
  ∀ s, s.ledger r = entry → p.Obeys (ledgerOf r) (Moved pool r) (fun s => (s.ledger r).Lives pool)
    (fun value s => post value (s.ledger r)) s

section Books

variable {α β : Type} {pool : Pool τ} {r : ι} {entry : Entry}

namespace Accounts

theorem ret {value : α} {post : α → Entry → Prop} (here : post value entry) :
    Accounts pool r (.ret value) entry post :=
  Program.Owns.ret here

theorem exchange {change : PoolState ι → α × PoolState ι} {post : α → Entry → Prop}
    (lives : entry.Lives pool)
    (step : ∀ s, s.ledger r = entry →
      Moved pool r s (change s).2 ∧ post (change s).1 ((change s).2.ledger r)) :
    Accounts pool r (.exchange change) entry post :=
  Program.Owns.exchange lives step

theorem write {update : PoolState ι → PoolState ι} {post : Unit → Entry → Prop}
    (lives : entry.Lives pool)
    (step : ∀ s, s.ledger r = entry → Moved pool r s (update s) ∧ post () ((update s).ledger r)) :
    Accounts pool r (.write update) entry post :=
  Program.Owns.write lives step

theorem weaken {p : Program (PoolState ι) α} {post post' : α → Entry → Prop}
    (accounts : Accounts pool r p entry post) (imp : ∀ value e, post value e → post' value e) :
    Accounts pool r p entry post' :=
  Program.Owns.weaken accounts imp

theorem bind {p : Program (PoolState ι) α} {f : α → Program (PoolState ι) β}
    {post : β → Entry → Prop}
    (accounts : Accounts pool r p entry fun value e => Accounts pool r (f value) e post) :
    Accounts pool r (p >>= f) entry post :=
  Program.Owns.bind accounts

theorem bindFallible {ε : Type} {p : Fallible (PoolState ι) ε α}
    {f : α → Fallible (PoolState ι) ε β} {post : Except ε β → Entry → Prop}
    (accounts : Accounts pool r (ExceptT.run p) entry fun result e =>
      match result with
      | .ok value => Accounts pool r (ExceptT.run (f value)) e post
      | .error error => post (.error error) e) :
    Accounts pool r (ExceptT.run (p >>= f)) entry post :=
  Program.Owns.bindFallible accounts

theorem liftFallible {ε : Type} {p : Program (PoolState ι) α} {post : Except ε α → Entry → Prop}
    (accounts : Accounts pool r p entry fun value => post (.ok value)) :
    Accounts pool r (ExceptT.run (monadLift p : Fallible (PoolState ι) ε α)) entry post :=
  Program.Owns.liftFallible accounts

end Accounts

theorem Entry.Books.release {entry : Entry} {answers : List (Except Limit Unit)}
    {counter : Counter} {held : List Counter} (books : entry.Books answers (counter :: held)) :
    Entry.Books { entry with
      dropped := Function.update entry.dropped counter (entry.dropped counter + 1)
      place := if counter = Counter.pool then none else entry.place } answers held := by
  refine ⟨books.answers, ?_, ?_, ?_⟩
  · intro other
    have before := books.balanced other
    by_cases same : other = counter
    · subst same
      simp only [List.count_cons_self, Function.update_self] at before ⊢
      omega
    · simpa [List.count_cons_of_ne (Ne.symm same), Function.update_of_ne same] using before
  · have single := books.single
    by_cases same : counter = .pool
    · subst same
      rw [List.count_cons_self] at single
      have gone : Counter.pool ∉ held := List.count_eq_zero.mp (by omega)
      simp [gone]
    · simp [same, books.placed, Ne.symm same]
  · exact (List.count_le_count_cons).trans books.single

/-- Dropping a guard takes the request off the counter of the guard. -/
theorem accounts_drop {guard : InflightGuard} {answers : List (Except Limit Unit)}
    {held : List Counter} (books : entry.Books answers (guard.held ++ held))
    (lives : entry.Lives pool) :
    Accounts pool r (guard.drop r) entry fun _ e => e.Books answers held ∧
      e.taken = entry.taken ∧ (guard.counter ≠ some .pool → e.Lives pool) := by
  obtain ⟨counter⟩ := guard
  cases counter with
  | none => exact .ret ⟨books, rfl, fun _ => lives⟩
  | some counter =>
    apply Accounts.write lives
    rintro s rfl
    refine ⟨.releases ?_ ?_, ?_⟩
    · rintro rfl
      exact books.placed.mpr List.mem_cons_self
    · rw [books.balanced counter]
      exact Nat.lt_add_of_pos_right (List.count_pos_iff.mpr List.mem_cons_self)
    · simp only [PoolState.release, PoolState.ledger_note]
      refine ⟨books.release, trivial, ?_⟩
      intro other admitted max capped
      have elsewhere : counter ≠ .pool := fun same => other (by rw [same])
      simpa [elsewhere] using lives admitted max capped

theorem Entry.Books.unanswered {held : List Counter} (books : entry.Books [] held) :
    entry.Lives pool := by
  intro admitted
  rw [books.answers] at admitted
  cases admitted

theorem Entry.Books.refused {limit : Limit} {held : List Counter}
    (books : entry.Books [.error limit] held) : entry.Lives pool := by
  intro admitted
  rw [books.answers] at admitted
  simp at admitted

theorem Entry.Books.answered {held : List Counter} (books : entry.Books [] held)
    (answer : Except Limit Unit) : (entry.answered answer).Books [answer] held :=
  ⟨by simp [Entry.answered, books.answers], books.balanced, books.placed, books.single⟩

theorem accounts_admitAtRate {guard : InflightGuard} (now : Instant)
    (books : entry.Books [] guard.held)
    (lives : ∀ max, pool.maxInFlight = some max →
      entry.taken .pool = 1 ∧ ∃ seen, entry.place = some seen ∧ seen < max.val.toNat) :
    Accounts pool r (admitAtRate r now guard) entry fun result e =>
      match result with
      | .ok kept => e.Books [.ok ()] guard.held ∧ e.Lives pool ∧ kept = guard
      | .error limit => e.Books [.error limit] [] := by
  apply Accounts.bind
  apply Accounts.exchange books.unanswered
  rintro s rfl
  refine ⟨.asks now books.answers, ?_⟩
  rw [s.ledger_askRate]
  split
  · exact .ret ⟨books.answered _, fun _ => lives, rfl⟩
  · have kept := books.answered (.error .maxRequestsPerSecond)
    rw [← List.append_nil guard.held] at kept
    apply Accounts.bind
    refine (accounts_drop kept kept.refused).weaken ?_
    intro _ e dropped
    exact .ret dropped.1

theorem Entry.Books.entered (books : entry.Books [] []) (seen : Int) :
    (entry.entered seen).Books [] [.pool] := by
  refine ⟨books.answers, ?_, by simp [Entry.entered], by simp⟩
  intro counter
  have before := books.balanced counter
  by_cases same : counter = .pool
  · subst same
    simpa [Entry.entered] using before
  · simpa [Entry.entered, same, List.count_cons_of_ne (Ne.symm same)] using before

theorem accounts_admitRequest (now : Instant) (books : entry.Books [] [])
    (never : entry.taken .pool = 0) :
    Accounts pool r (admitRequest pool r now) entry fun result e =>
      match result with
      | .ok guard => e.Books [.ok ()] guard.held ∧ e.Lives pool ∧
          guard.counter = pool.maxInFlight.map fun _ => .pool
      | .error limit => e.Books [.error limit] [] := by
  unfold admitRequest
  split
  · rename_i uncapped
    refine (accounts_admitAtRate now books ?_).weaken ?_
    · intro max capped
      rw [uncapped] at capped
      cases capped
    · rintro (limit | guard) e held
      · exact held
      · obtain ⟨kept, lives, rfl⟩ := held
        exact ⟨kept, lives, by rw [uncapped]; rfl⟩
  · rename_i max capped
    apply Accounts.bind
    apply Accounts.exchange books.unanswered
    rintro s rfl
    have free : (s.ledger r).place = none := by
      simpa using books.placed
    refine ⟨.enters capped free books.answers, ?_⟩
    have entered := books.entered (s.inFlight .pool)
    rw [s.ledger_enter, s.enter_fst]
    by_cases full : max.val.toNat ≤ s.inFlight .pool
    · rw [if_pos full, if_pos full]
      have kept := entered.answered (.error .maxInFlight)
      rw [← List.append_nil [Counter.pool]] at kept
      apply Accounts.bind
      refine (accounts_drop kept kept.refused).weaken ?_
      intro _ e dropped
      exact .ret dropped.1
    · rw [if_neg full, if_neg full]
      refine (accounts_admitAtRate now entered ?_).weaken ?_
      · intro other same
        cases capped.symm.trans same
        exact ⟨by simp [Entry.entered, never], _, rfl, not_le.mp full⟩
      · rintro (limit | guard) e held
        · exact held
        · obtain ⟨kept, lives, rfl⟩ := held
          exact ⟨kept, lives, by rw [capped]; rfl⟩

end Books

end Gfe
