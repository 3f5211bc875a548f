import Gfe.Handler.Attempts

/-! # Requests in flight

Any number of requests are forwarded to one pool, each from its admission to the
drop of its record, in any interleaving. What the pool's counters show is worked
out from the books of the requests.
-/

namespace Gfe

open Interleaving

variable {ι : Type} [DecidableEq ι]

/-! ## Books that add up -/

/-- What holds of an entry at every moment: the pool answered it at most once,
    nothing is given back that was not taken, one place at a time is held, and a
    place that was not refused was taken under the cap. -/
structure Entry.Sane (pool : Pool Scheme) (entry : Entry) : Prop where
  paid : ∀ counter, entry.dropped counter ≤ entry.taken counter
  placed : entry.taken .pool = entry.dropped .pool + if entry.place.isSome then 1 else 0
  once : entry.answers.length ≤ 1
  room : ∀ max, pool.maxInFlight = some max → ∀ seen, entry.place = some seen →
    (∀ limit, .error limit ∉ entry.answers) → seen < max.val.toNat

section Sane

variable {pool : Pool Scheme} {entry e : Entry}

theorem Entry.Sane.congr (sane : entry.Sane pool) (same : e.accounts = entry.accounts) :
    e.Sane pool := by
  obtain ⟨taken, dropped, place, answers⟩ : e.taken = entry.taken ∧ e.dropped = entry.dropped ∧
      e.place = entry.place ∧ e.answers = entry.answers := by
    simpa [Entry.accounts] using same
  exact ⟨by rw [taken, dropped]; exact sane.paid, by rw [taken, dropped, place]; exact sane.placed,
    by rw [answers]; exact sane.once, by rw [place, answers]; exact sane.room⟩

theorem Entry.Sane.single (sane : entry.Sane pool) {a b : Except Limit Unit}
    (first : a ∈ entry.answers) (second : b ∈ entry.answers) : a = b := by
  have once := sane.once
  match answers : entry.answers with
  | [] => simp [answers] at first
  | [only] =>
    rw [answers, List.mem_singleton] at first second
    exact first.trans second.symm
  | _ :: _ :: _ => simp [answers] at once

theorem Entry.Sane.answered (sane : entry.Sane pool) (fresh : entry.answers = [])
    (answer : Except Limit Unit) : (entry.answered answer).Sane pool := by
  refine ⟨sane.paid, sane.placed, by simp [Entry.answered, fresh], ?_⟩
  intro max capped seen placed _
  exact sane.room max capped seen placed (by simp [fresh])

theorem Entry.Sane.entered (sane : entry.Sane pool) (free : entry.place = none)
    (fresh : entry.answers = []) (seen : Int) {max : NonZeroU32}
    (capped : pool.maxInFlight = some max) :
    (if max.val.toNat ≤ seen then (entry.entered seen).answered (.error .maxInFlight)
      else entry.entered seen).Sane pool := by
  have placed : entry.taken .pool = entry.dropped .pool := by simpa [free] using sane.placed
  have paid : ∀ counter, (entry.entered seen).dropped counter ≤
      (entry.entered seen).taken counter := by
    intro counter
    have before := sane.paid counter
    by_cases same : counter = .pool
    · subst same
      simp only [Entry.entered, Function.update_self]
      omega
    · simpa [Entry.entered, same] using before
  have one : (entry.entered seen).taken .pool = (entry.entered seen).dropped .pool +
      if (entry.entered seen).place.isSome then 1 else 0 := by
    simp [Entry.entered, placed]
  split
  · refine ⟨paid, one, by simp [Entry.answered, Entry.entered, fresh], ?_⟩
    intro max capped _ _ granted
    exact absurd (by simp [Entry.answered]) (granted .maxInFlight)
  · rename_i room
    refine ⟨paid, one, by simp [Entry.entered, fresh], ?_⟩
    rintro other same _ ⟨⟩ _
    cases capped.symm.trans same
    exact not_le.mp room

theorem Entry.Sane.took (sane : entry.Sane pool) (i : Nat) :
    Entry.Sane pool { entry with
      taken := Function.update entry.taken (.backend i) (entry.taken (.backend i) + 1) } := by
  refine ⟨?_, by simpa using sane.placed, sane.once, sane.room⟩
  intro counter
  have before := sane.paid counter
  by_cases same : counter = .backend i
  · subst same
    simp only [Function.update_self]
    omega
  · simpa [same] using before

theorem Entry.Sane.released (sane : entry.Sane pool) {counter : Counter}
    (held : counter = .pool → entry.place.isSome)
    (counted : entry.dropped counter < entry.taken counter) :
    Entry.Sane pool { entry with
      dropped := Function.update entry.dropped counter (entry.dropped counter + 1)
      place := if counter = Counter.pool then none else entry.place } := by
  refine ⟨?_, ?_, sane.once, ?_⟩
  · intro other
    by_cases same : other = counter
    · subst same
      simpa using counted
    · simpa [same] using sane.paid other
  · by_cases same : counter = .pool
    · subst same
      simpa [held rfl] using sane.placed
    · simpa [same, Ne.symm same] using sane.placed
  · intro max capped seen placed granted
    by_cases same : counter = .pool
    · simp [same] at placed
    · exact sane.room max capped seen (by simpa [same] using placed) granted

theorem Moved.sane {r : ι} {s s' : PoolState ι} (moved : Moved pool r s s')
    (sane : (s.ledger r).Sane pool) : (s'.ledger r).Sane pool := by
  cases moved with
  | apart apart own => exact sane.congr (apart.accounts r)
  | enters capped free fresh =>
    rw [s.ledger_enter]
    exact sane.entered free fresh _ capped
  | asks now fresh =>
    rw [s.ledger_askRate]
    exact sane.answered fresh _
  | takes i =>
    rw [PoolState.take, PoolState.ledger_note]
    exact sane.took i
  | releases held counted =>
    rw [PoolState.release, PoolState.ledger_note]
    exact sane.released held counted

end Sane

/-! ## Requests to one pool -/

/-- A request as it arrives, with the host it was routed by. -/
structure Arrival (http : Http) where
  conn : Connection
  request : Request http
  host : Str
  requestId : Str

/-- A pool that has served nothing yet, and requests that were not sent yet. -/
structure Traffic.Begins (pool : Pool Scheme) (s : Traffic ι) : Prop where
  pool : ∃ status unknownIsSelectable random,
    s.pool = .new pool status unknownIsSelectable random
  tries : ∀ r, (s.lanes r).tries = []

section Crowded

variable {http : Http} (forwarder : Forwarder) (pool : Pool Scheme) (arrivals : ι → Arrival http)

variable {forwarder pool arrivals}

variable [Fintype ι]

/-- What holds of a pool at every moment. -/
structure Sound (pool : Pool Scheme) (s : PoolState ι) : Prop where
  balanced : Balanced s
  sane : ∀ r, (s.ledger r).Sane pool

theorem Carried.sound {r : ι} {s s' : Traffic ι} (carried : Carried pool r s s')
    (sound : Sound pool s.pool) : Sound pool s'.pool := by
  cases carried with
  | idle => exact sound
  | inLane sends => exact sound
  | inPool moved =>
    refine ⟨moved.balanced sound.balanced, ?_⟩
    intro q
    by_cases same : q = r
    · exact same ▸ moved.sane (sound.sane r)
    · have kept := moved.others same
      exact kept.symm ▸ sound.sane q

omit [DecidableEq ι] in
theorem Around.sound {s s' : PoolState ι} (around : Around s s') (sound : Sound pool s) :
    Sound pool s' :=
  ⟨around.balanced sound.balanced, fun q => around.ledger ▸ sound.sane q⟩

omit [DecidableEq ι] in
theorem sound_new (other : Pool Scheme) (status : HandleId → HealthStatus)
    (unknownIsSelectable : Bool) (random : UInt64) :
    Sound pool (.new other status unknownIsSelectable random : PoolState ι) := by
  refine ⟨balanced_new .., fun r => ⟨fun _ => le_rfl, rfl, Nat.zero_le _, ?_⟩⟩
  rintro _ _ _ ⟨⟩

/-- The admitted requests whose exchange is not over. -/
def live (c : Crowd ι (Traffic ι) Forwarded) : Finset ι :=
  Finset.univ.filter fun r =>
    .ok () ∈ (c.state.pool.ledger r).answers ∧ (c.threads r).returned = false

section Counters

variable {max : NonZeroU32} {c : Crowd ι (Traffic ι) Forwarded}

omit [DecidableEq ι] in
theorem Sound.card_le {s : PoolState ι} (sound : Sound pool s) (capped : pool.maxInFlight = some max)
    {some : Finset ι} (placed : ∀ r ∈ some, (s.ledger r).place.isSome)
    (granted : ∀ r ∈ some, ∀ limit, .error limit ∉ (s.ledger r).answers) :
    some.card ≤ max.val.toNat := by
  refine sound.balanced.places.card_le ?_
  intro r member
  obtain ⟨seen, here⟩ := Option.isSome_iff_exists.mp (placed r member)
  exact ⟨seen, here, (sound.sane r).room max capped seen here (granted r member)⟩

omit [DecidableEq ι] in
theorem Sound.granted {s : PoolState ι} (sound : Sound pool s) {r : ι}
    (admitted : .ok () ∈ (s.ledger r).answers) (limit : Limit) :
    .error limit ∉ (s.ledger r).answers := by
  intro refused
  cases (sound.sane r).single admitted refused

end Counters

end Crowded

/-- A pool of one backend for one request at a time. -/
def Pool.narrow : Pool Scheme :=
  ⟨['p'], .leastRequest, [⟨['h'], 80, 1⟩], .http, [0], [], true, some ⟨1, one_ne_zero_u32⟩, none⟩

end Gfe
