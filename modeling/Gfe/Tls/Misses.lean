import Gfe.Lib.Crowd
import Gfe.Lib.Tally
import Gfe.Tls.CertStore

/-! # Handshakes without a certificate

The resolver counts the handshakes it found no certificate for, and every connection brings
the exported counter up to that count after its handshake. The certificate store is replaced
at any time. Counters are numbers without a bound.
-/

namespace Gfe.Misses

open Interleaving

variable {ι : Type}

/-! ## The counters -/

/-- How far a connection is with the export. -/
inductive Stage where
  | before
  /-- It read this number of misses. -/
  | loaded (misses : Nat)
  /-- It moved the mark forward, and has yet to count. -/
  | counting
  | done
  deriving DecidableEq

/-- The resolver and the counters, with the misses numbered as they come and, for every
    connection, where it is. -/
structure Shared (ι : Type) where
  store : CertStore
  /-- 64 bits, one up for each handshake: at a million a second they last for ages. -/
  misses : Nat
  /-- The mark is `sni_misses_exported`. -/
  tally : Tally ι
  /-- `tls_sni_no_cert` -/
  tlsSniNoCert : Nat
  stage : ι → Stage

def Shared.new (store : CertStore) : Shared ι :=
  ⟨store, 0, ⟨0, [], fun _ => none⟩, 0, fun _ => .before⟩

section

variable [DecidableEq ι]

namespace Shared

/-- `misses.load()` -/
def load (i : ι) (s : Shared ι) : Nat × Shared ι :=
  (s.misses, { s with stage := Function.update s.stage i (.loaded s.misses) })

/-- `sni_misses_exported.fetch_max(misses)` -/
def fetchMax (i : ι) (misses : Nat) (s : Shared ι) : Nat × Shared ι :=
  (s.tally.mark, { s with
    tally := s.tally.raise i misses
    stage := Function.update s.stage i (if s.tally.mark < misses then .counting else .done) })

/-- `tls_sni_no_cert.inc_by(amount)` -/
def incBy (i : ι) (amount : Nat) (s : Shared ι) : Shared ι :=
  { s with
    tally := s.tally.settle i
    tlsSniNoCert := s.tlsSniNoCert + amount
    stage := Function.update s.stage i .done }

end Shared

/-! ## Handshakes and exports -/

/-- `SniResolver::resolve_sni` -/
def resolveSni (sni : Option Str) : Program (Shared ι) (Option SharedKey) := do
  let store ← .read (·.store)
  let resolved := store.resolve sni
  if resolved.isNone then
    Program.write fun s => { s with misses := s.misses + 1 }
  return resolved

/-- `Shared::export_sni_misses` -/
def exportSniMisses (attached : Bool) (i : ι) : Program (Shared ι) Unit :=
  if attached then do
    let misses ← .exchange (Shared.load i)
    let exported ← .exchange (Shared.fetchMax i misses)
    if exported < misses then
      .write (Shared.incBy i (misses - exported))
    else return ()
  else return ()

/-- What a TLS connection does about it: a handshake, in which the client may have named a server
    or may not have got that far, then the export. -/
def serveConnection (hello : Option (Option Str)) (i : ι) : Program (Shared ι) Unit := do
  match hello with
  | some sni => let _ ← resolveSni sni
  | none => pure ()
  exportSniMisses true i

/-- Connections about to come. -/
def accepting (store : CertStore) (hellos : ι → Option (Option Str)) :
    Crowd ι (Shared ι) Unit :=
  ⟨fun i => serveConnection (hellos i) i, .new store⟩

/-- The certificate store is replaced. -/
inductive Swaps (s : Shared ι) : Shared ι → Prop where
  | swap (store : CertStore) : Swaps s { s with store }

/-! ## What a connection does -/

/-- A step of the connection `i`. -/
inductive Moved (i : ι) (s : Shared ι) : Shared ι → Prop where
  | looks : Moved i s s
  | misses : Moved i s { s with misses := s.misses + 1 }
  | loads : s.stage i = .before → Moved i s (s.load i).2
  | marks {misses} : s.stage i = .loaded misses → Moved i s (s.fetchMax i misses).2
  | counts {low high} : s.stage i = .counting → s.tally.owed i = some (low, high) →
      Moved i s (s.incBy i (high - low))

variable {i j : ι} {s s' : Shared ι}

/-- What the others leave alone: where the connection is, and what it has yet to count. -/
def own (i : ι) (s : Shared ι) : Stage × Option (Nat × Nat) := (s.stage i, s.tally.owed i)

theorem Moved.others (moved : Moved i s s') (other : j ≠ i) : own j s' = own j s := by
  cases moved with
  | looks | misses => rfl
  | loads before => simp [own, Shared.load, other]
  | marks loaded => simp [own, Shared.fetchMax, other, Tally.owed_raise_of_ne other]
  | counts counting owes => simp [own, Shared.incBy, other, Tally.owed_settle_of_ne other]

theorem owns_resolveSni (sni : Option Str) :
    Program.Owns (own i) (Moved i) (fun _ => True) (resolveSni sni) (.before, none)
      fun _ now => now = (.before, none) := by
  apply Program.Owns.bind
  apply Program.Owns.read True.intro
  refine fun s here => ⟨.looks, ?_⟩
  dsimp only
  split
  · apply Program.Owns.bind
    apply Program.Owns.write True.intro
    exact fun s here => ⟨.misses, .ret here⟩
  · exact .ret rfl

theorem owns_exportSniMisses :
    Program.Owns (own i) (Moved i) (fun _ => True) (exportSniMisses true i) (.before, none)
      fun _ _ => True := by
  rw [exportSniMisses, if_pos rfl]
  apply Program.Owns.bind
  apply Program.Owns.exchange True.intro
  intro s here
  obtain ⟨before, free⟩ := Prod.mk.inj here
  refine ⟨.loads before, ?_⟩
  have loaded : own i (s.load i).2 = (.loaded s.misses, none) := by
    simp [own, Shared.load, free]
  rw [loaded]
  dsimp only [Shared.load]
  apply Program.Owns.bind
  apply Program.Owns.exchange True.intro
  intro t here
  obtain ⟨loaded, free⟩ := Prod.mk.inj here
  refine ⟨.marks loaded, ?_⟩
  by_cases forward : t.tally.mark < s.misses
  · have owes : own i (t.fetchMax i s.misses).2 = (.counting, some (t.tally.mark, s.misses)) := by
      simp [own, Shared.fetchMax, Tally.raise, forward]
    rw [owes]
    simp only [Shared.fetchMax, forward, if_true]
    apply Program.Owns.write True.intro
    intro u here
    obtain ⟨counting, owes⟩ := Prod.mk.inj here
    exact ⟨.counts counting owes, True.intro⟩
  · simp only [Shared.fetchMax, forward, if_false]
    exact .ret True.intro

theorem owns_serveConnection (hello : Option (Option Str)) :
    Program.Owns (own i) (Moved i) (fun _ => True) (serveConnection hello i) (.before, none)
      fun _ _ => True := by
  cases hello with
  | none => exact owns_exportSniMisses
  | some sni =>
    apply Program.Owns.bind
    refine (owns_resolveSni sni).weaken ?_
    rintro _ _ rfl
    exact owns_exportSniMisses

/-! ## What the counters count -/

structure Sound (s : Shared ι) : Prop where
  tally : s.tally.Sound
  counted : s.tlsSniNoCert = s.tally.counted.length
  marked : s.tally.mark ≤ s.misses
  loaded : ∀ i misses, s.stage i = .loaded misses → misses ≤ s.misses
  owes : ∀ i, (s.tally.owed i).isSome ↔ s.stage i = .counting

omit [DecidableEq ι] in
theorem sound_new (store : CertStore) : Sound (.new store : Shared ι) :=
  ⟨Tally.sound_new, rfl, le_rfl, nofun, fun _ => by simp [Shared.new]⟩

omit [DecidableEq ι] in
theorem Swaps.sound (swaps : Swaps s s') (sound : Sound s) : Sound s' := by
  cases swaps
  exact ⟨sound.tally, sound.counted, sound.marked, sound.loaded, sound.owes⟩

theorem Moved.sound (moved : Moved i s s') (sound : Sound s) : Sound s' := by
  -- the other connections are where they were, and owe what they owed
  have others : ∀ j ≠ i, s'.stage j = s.stage j ∧ s'.tally.owed j = s.tally.owed j :=
    fun j other => Prod.mk.inj (moved.others other)
  have owes : ((s'.tally.owed i).isSome ↔ s'.stage i = .counting) →
      ∀ j, (s'.tally.owed j).isSome ↔ s'.stage j = .counting := by
    intro own j
    by_cases same : j = i
    · rw [same]
      exact own
    · rw [(others j same).1, (others j same).2]
      exact sound.owes j
  have loaded : s.misses ≤ s'.misses → (∀ misses, s'.stage i = .loaded misses → misses ≤ s'.misses) →
      ∀ j misses, s'.stage j = .loaded misses → misses ≤ s'.misses := by
    intro more own j misses here
    by_cases same : j = i
    · rw [same] at here
      exact own misses here
    · rw [(others j same).1] at here
      exact (sound.loaded j misses here).trans more
  cases moved with
  | looks => exact sound
  | misses =>
    exact ⟨sound.tally, sound.counted, sound.marked.trans (Nat.le_succ _),
      loaded (Nat.le_succ _) fun misses here => (sound.loaded i misses here).trans (Nat.le_succ _),
      sound.owes⟩
  | loads before =>
    have free : ¬ (s.tally.owed i).isSome := by
      rw [sound.owes i, before]
      nofun
    refine ⟨sound.tally, sound.counted, sound.marked, loaded le_rfl ?_, owes ?_⟩
    · intro misses here
      simp only [Shared.load, Function.update_self, Stage.loaded.injEq] at here
      exact here ▸ le_rfl
    · simpa [Shared.load] using free
  | @marks misses here =>
    have free : s.tally.owed i = none := by
      have absent := (sound.owes i).not.mpr (by rw [here]; nofun)
      simpa using absent
    refine ⟨sound.tally.raise free misses, by simpa [Shared.fetchMax] using sound.counted,
      Tally.raise_mark_le i sound.marked (sound.loaded i misses here), loaded le_rfl ?_, owes ?_⟩
    · intro other now
      simp only [Shared.fetchMax, Function.update_self] at now
      split at now <;> cases now
    · by_cases forward : s.tally.mark < misses <;>
        simp [Shared.fetchMax, Tally.raise, forward, free]
  | @counts low high counting owed =>
    refine ⟨sound.tally.settle i, ?_, by simpa [Shared.incBy] using sound.marked,
      loaded le_rfl ?_, owes ?_⟩
    · simp [Shared.incBy, Tally.settle, owed, sound.counted]
    · intro misses now
      simp [Shared.incBy] at now
    · simp [Shared.incBy, Tally.owed_settle]

/-- With this many misses, the connection has yet to export them, or the mark has reached them. -/
structure Due (total : Nat) (i : ι) (s : Shared ι) : Prop where
  more : total ≤ s.misses
  due : s.misses = total →
    s.stage i = .before ∨ s.stage i = .loaded total ∨ total ≤ s.tally.mark

omit [DecidableEq ι] in
theorem Swaps.due {total : Nat} (swaps : Swaps s s') (due : Due total i s) : Due total i s' := by
  cases swaps
  exact ⟨due.more, due.due⟩

theorem Moved.due {total : Nat} (moved : Moved j s s') (due : Due total i s) : Due total i s' := by
  have other : j ≠ i → s'.stage i = s.stage i := fun differ =>
    (Prod.mk.inj (moved.others (Ne.symm differ))).1
  cases moved with
  | looks => exact due
  | misses =>
    refine ⟨due.more.trans (Nat.le_succ _), fun same => ?_⟩
    have more := due.more
    dsimp only at same
    omega
  | loads before =>
    refine ⟨due.more, fun same => ?_⟩
    by_cases own : j = i
    · subst own
      exact .inr (.inl (by simp [Shared.load, show s.misses = total from same]))
    · rw [other own]
      exact due.due same
  | @marks misses here =>
    refine ⟨due.more, fun same => ?_⟩
    have further := s.tally.mark_le_raise j misses
    rcases due.due same with waiting | loaded | reached
    · by_cases own : j = i
      · subst own
        rw [here] at waiting
        cases waiting
      · exact .inl ((other own).trans waiting)
    · by_cases own : j = i
      · subst own
        rw [here] at loaded
        cases loaded
        exact .inr (.inr (s.tally.le_mark_raise j total))
      · exact .inr (.inl ((other own).trans loaded))
    · exact .inr (.inr (reached.trans further))
  | counts counting owed =>
    refine ⟨due.more, fun same => ?_⟩
    rcases due.due same with waiting | loaded | reached
    · by_cases own : j = i
      · subst own
        rw [counting] at waiting
        cases waiting
      · exact .inl ((other own).trans waiting)
    · by_cases own : j = i
      · subst own
        rw [counting] at loaded
        cases loaded
      · exact .inr (.inl ((other own).trans loaded))
    · exact .inr (.inr (by simpa [Shared.incBy] using reached))

/-! ## All connections -/

/-- What every connection and every replaced store keeps holds at every moment from `c` on. -/
theorem keeps {inv : Shared ι → Prop} (kept : ∀ i s s', Moved i s s' → inv s → inv s')
    (swapped : ∀ s s', Swaps s s' → inv s → inv s') {c c' : Crowd ι (Shared ι) Unit}
    (fine : ∀ i, (c.threads i).Obeys (.keeping (own i)) (Moved i) (fun _ => True) (fun _ _ => True)
      c.state)
    (initial : inv c.state) (steps : Crowd.Steps Swaps c c') :
    inv c'.state ∧ ∀ i, (c'.threads i).Obeys (.keeping (own i)) (Moved i) (fun _ => True)
      (fun _ _ => True) c'.state := by
  refine Crowd.sound ?_ ?_ kept initial fine steps
  · intro s s' swaps held
    refine ⟨fun i => ?_, swapped s s' swaps held⟩
    cases swaps
    rfl
  · exact fun i j s s' differ moved => moved.others (Ne.symm differ)

theorem accepting_sound {store : CertStore} {hellos : ι → Option (Option Str)}
    {c : Crowd ι (Shared ι) Unit} (run : Crowd.Steps Swaps (accepting store hellos) c) :
    Sound c.state ∧ ∀ i, (c.threads i).Obeys (.keeping (own i)) (Moved i) (fun _ => True)
      (fun _ _ => True) c.state :=
  keeps (fun _ _ _ moved => moved.sound) (fun _ _ swaps => swaps.sound)
    (fun i => owns_serveConnection (hellos i) _ rfl) (sound_new store) run

/-- The exported counter never shows more misses than there were, counts none of them twice, and
    shows all of them when nobody is exporting and somebody has exported since the last one. -/
theorem misses_exported_once {store : CertStore} {hellos : ι → Option (Option Str)}
    {c : Crowd ι (Shared ι) Unit} (run : Crowd.Steps Swaps (accepting store hellos) c) :
    c.state.tlsSniNoCert ≤ c.state.misses ∧
      (c.state.tlsSniNoCert = c.state.tally.counted.length ∧ c.state.tally.counted.Nodup ∧
        ∀ n ∈ c.state.tally.counted, n < c.state.misses) ∧
      ∀ a i, Crowd.Steps Swaps (accepting store hellos) a → Crowd.Steps Swaps a c →
        a.state.misses = c.state.misses → a.state.stage i = .before → c.state.stage i = .done →
        (∀ j, c.state.stage j = .before ∨ c.state.stage j = .done) →
        c.state.tlsSniNoCert = c.state.misses := by
  have sound := (accepting_sound run).1
  refine ⟨?_, ⟨sound.counted, sound.tally.once, ?_⟩, ?_⟩
  · rw [sound.counted]
    exact sound.tally.length_le.trans sound.marked
  · exact fun n member => (sound.tally.below n member).trans_le sound.marked
  · intro a i before after last waiting done quiet
    have due : Due a.state.misses i c.state :=
      (keeps (fun _ _ _ moved => moved.due) (fun _ _ swaps => swaps.due) (accepting_sound before).2
        ⟨le_rfl, fun _ => .inl waiting⟩ after).1
    have reached : c.state.misses ≤ c.state.tally.mark := by
      rcases due.due last.symm with still | loaded | reached
      · rw [done] at still
        cases still
      · rw [done] at loaded
        cases loaded
      · exact last ▸ reached
    have nobody : ∀ j, c.state.tally.owed j = none := by
      intro j
      have idle : c.state.stage j ≠ .counting := by
        rcases quiet j with here | here <;> rw [here] <;> nofun
      simpa using (sound.owes j).not.mpr idle
    rw [sound.counted, sound.tally.length_eq nobody]
    exact Nat.le_antisymm sound.marked reached

/-- Two connections without a certificate, the second of them about to export. -/
def secondExports : Crowd (Fin 2) (Shared (Fin 2)) Unit :=
  let start := accepting .empty fun _ => some none
  let first := (start.threads 0).run start.state
  let threads := Function.update start.threads 0 (.ret first.1)
  ⟨Function.update threads 1 ((threads 1).advance 2 first.2).1, ((threads 1).advance 2 first.2).2⟩

/-- The same after it has. -/
def bothExported : Crowd (Fin 2) (Shared (Fin 2)) Unit :=
  let last := (secondExports.threads 1).run secondExports.state
  ⟨Function.update secondExports.threads 1 (.ret last.1), last.2⟩

theorem misses_exported_once_both :
    bothExported.state.misses = 2 ∧ bothExported.state.tlsSniNoCert = bothExported.state.misses := by
  have before : Crowd.Steps Swaps (accepting .empty fun _ => some none) secondExports :=
    (Crowd.steps_run Swaps _ _ 0).trans (Crowd.steps_advance Swaps _ _ 1 2)
  have after : Crowd.Steps Swaps secondExports bothExported := Crowd.steps_run Swaps _ _ 1
  refine ⟨by decide +kernel, ?_⟩
  refine (misses_exported_once (before.trans after)).2.2 secondExports 1 before after ?_ ?_ ?_ ?_
  all_goals decide +kernel

end

end Gfe.Misses
