import Gfe.Handler.Decision
import Gfe.Handler.InFlight
import Gfe.Reload.Startup

/-! # Requests on several snapshots

A request keeps the snapshot of routes and pools it was routed by, and a reload
that is accepted stores a new one, whose pools count from zero. So requests can
be in flight on any number of snapshots at once. The cap of a pool holds on each
of them.
-/

namespace Gfe

open Interleaving

/-- A node with its requests. The pools of every snapshot are kept: whoever was
    routed by it still holds it. -/
structure Proxy (ι : Type) where
  control : Startup
  /-- Counts the snapshots that were stored. -/
  generation : Nat
  /-- A pool, by the snapshot it is of and its id. -/
  pools : Nat × Str → PoolState ι
  lanes : ι → Lane
  now : Instant

/-- A request as it arrives. -/
structure Visit (http : Http) where
  conn : Connection
  request : Request http
  requestId : Str

/-- What becomes of a request. -/
inductive Handled where
  /-- The node answers it itself. -/
  | decided (decision : Decision)
  | forwarded (forwarded : Forwarded)
  deriving DecidableEq

section

variable {ι : Type} [DecidableEq ι]

namespace Proxy

def worldPart : Part (Proxy ι) World where
  view s := s.control.world
  put w s := { s with control := { s.control with world := w } }
  view_put _ _ := rfl

def poolPart (key : Nat × Str) : Part (Proxy ι) (Traffic ι) where
  view s := ⟨s.pools key, s.lanes, s.now⟩
  put t s := { s with
    pools := Function.update s.pools key t.pool
    lanes := t.lanes
    now := t.now }
  view_put t s := by simp

omit [DecidableEq ι] in
/-- The pools once the control plane got this far. Those of a snapshot that was
    just stored have served nothing yet. -/
def poolsAfter (s : Proxy ι) (control : Startup) (random : UInt64) (key : Nat × Str) :
    PoolState ι :=
  if key.1 = s.generation + 1 then
    match control.world.node.routing.pools.get key.2 with
    | some pool =>
      .new pool control.world.node.health.status
        control.world.node.health.assumeHealthyWhenUnknown random
    | none => s.pools key
  else s.pools key

omit [DecidableEq ι] in
/-- The control plane gets this far. -/
def follow (s : Proxy ι) (control : Startup) (random : UInt64) : Proxy ι :=
  if control.world.journal.installs = s.control.world.journal.installs then
    { s with control := control }
  else
    { s with
      control := control
      generation := s.generation + 1
      pools := s.poolsAfter control random }

/-- What happens beside the requests: the node starts and reloads, and health,
    random numbers, the clock and what comes of the attempts change. -/
inductive Moves (crates : Crates) (settings : NodeConfig) (others : World → World → Prop)
    (s : Proxy ι) : Proxy ι → Prop where
  | control {control : Startup} {random : UInt64} :
      Startup.Step crates settings others s.control control →
      Moves crates settings others s (s.follow control random)
  | around {pools : Nat × Str → PoolState ι} {lanes : ι → Lane} {now : Instant} :
      (∀ key, Around (s.pools key) (pools key)) →
      (∀ r, (lanes r).owners = (s.lanes r).owners ∧ (lanes r).tries = (s.lanes r).tries) →
      Moves crates settings others s { s with pools := pools, lanes := lanes, now := now }

end Proxy

variable {http : Http} (forwarder : Forwarder)

/-- `Proxy::handle` to the end: the pool a request is forwarded to is the one of
    the snapshot it was routed by. -/
def serve (visit : Visit http) (r : ι) : Program (Proxy ι) Handled := do
  match ← (checkHost visit.conn.toConnInfo visit.request.toRequestHead).zoom Proxy.worldPart with
  | .error error => return .decided (.hostRefused error)
  | .ok host =>
    let (generation, routing) ← .read fun (s : Proxy ι) =>
      (s.generation, s.control.world.node.routing)
    let listener ← .read fun (s : Proxy ι) =>
      s.control.world.node.listeners.attached visit.conn.listener
    match routed routing listener host visit.request.uri.path with
    | .forwarded _ pool => do
      let forwarded ← (forwardRequest forwarder visit.conn pool r visit.request host
        visit.requestId).zoom (Proxy.poolPart (generation, pool.id))
      return .forwarded forwarded
    | decision => return .decided decision

/-- The requests before any of them has arrived. -/
def visiting (visits : ι → Visit http) (start : Proxy ι) : Crowd ι (Proxy ι) Handled :=
  ⟨fun r => serve forwarder (visits r) r, start⟩

end

/-! ## One request among the snapshots -/

/-- The entry of a request a pool knows nothing of. -/
def Entry.blank : Entry := ⟨[], fun _ => 0, fun _ => 0, none, []⟩

section

variable {ι : Type} [DecidableEq ι] (name : Str) (max : NonZeroU32)

namespace Proxy

omit [DecidableEq ι] in
/-- What belongs to a request: its entry in every pool, its owners and attempts. -/
def own (r : ι) (s : Proxy ι) : (Nat × Str → Entry) × Track :=
  (fun key => (s.pools key).ledger r, ⟨(s.lanes r).owners, (s.lanes r).tries⟩)

/-- As long as the pool of this name is served, it has this cap. -/
def Capped (s : Proxy ι) : Prop :=
  ∀ pool ∈ s.control.world.node.routing.pools.pools.values,
    pool.id = name → pool.maxInFlight = some max

instance (s : Proxy ι) : Decidable (s.Capped name max) :=
  inferInstanceAs (Decidable (∀ pool ∈ s.control.world.node.routing.pools.pools.values,
    pool.id = name → pool.maxInFlight = some max))

/-- A step of the request `r`: in a pool of a snapshot that was stored. -/
inductive Carried (r : ι) (s : Proxy ι) : Proxy ι → Prop where
  | idle : Carried r s s
  | inPool {generation : Nat} {pool : Pool Scheme} {t : Traffic ι} : generation ≤ s.generation →
      (pool.id = name → pool.maxInFlight = some max) →
      Gfe.Carried pool r ((poolPart (generation, pool.id)).view s) t →
      Carried r s ((poolPart (generation, pool.id)).put t s)

def beside (r : ι) : Rely (Proxy ι) where
  may s t := t.own r = s.own r ∧ s.generation ≤ t.generation ∧
    (s.Capped name max → t.Capped name max)
  refl _ := ⟨rfl, le_rfl, id⟩
  trans first second := ⟨second.1.trans first.1, first.2.1.trans second.2.1,
    second.2.2 ∘ first.2.2⟩

/-- Once admitted to a pool of this name, the request holds a place there. -/
def Placed (r : ι) (s : Proxy ι) : Prop :=
  ∀ generation, .ok () ∈ ((s.pools (generation, name)).ledger r).answers →
    ((s.pools (generation, name)).ledger r).place.isSome

variable {name max} {r : ι} {s s' : Proxy ι}

omit [DecidableEq ι] in
theorem pools_put (key : Nat × Str) (t : Traffic ι) (s : Proxy ι) :
    ((poolPart key).put t s).pools key = t.pool :=
  Function.update_self ..

omit [DecidableEq ι] in
theorem pools_put_of_ne {key other : Nat × Str} (apart : other ≠ key) (t : Traffic ι)
    (s : Proxy ι) : ((poolPart key).put t s).pools other = s.pools other :=
  Function.update_of_ne apart ..

omit [DecidableEq ι] in
theorem own_view (key : Nat × Str) (r : ι) (s : Proxy ι) :
    Traffic.own r ((poolPart key).view s) = ((s.own r).1 key, (s.own r).2) := rfl

theorem Carried.others {q : ι} (carried : Carried name max r s s') (other : q ≠ r) :
    (beside name max q).may s s' := by
  cases carried with
  | idle => exact (beside name max q).refl s
  | @inPool generation pool t stored capped moved =>
    have same := moved.others other
    have entry : t.pool.ledger q = (s.pools (generation, pool.id)).ledger q :=
      congrArg Prod.fst same
    have track : t.track q = ⟨(s.lanes q).owners, (s.lanes q).tries⟩ := congrArg Prod.snd same
    refine ⟨Prod.ext ?_ track, le_rfl, id⟩
    funext key
    by_cases here : key = (generation, pool.id)
    · subst here
      change (((poolPart (generation, pool.id)).put t s).pools _).ledger q = _
      rw [pools_put, entry]
      rfl
    · change (((poolPart (generation, pool.id)).put t s).pools key).ledger q = _
      rw [pools_put_of_ne here]
      rfl

end Proxy

/-- Nothing happened for the request on any snapshot yet. -/
structure Proxy.Unserved (r : ι) (s : Proxy ι) : Prop where
  blank : ∀ key, (s.pools key).ledger r = .blank
  tries : (s.lanes r).tries = []
  capped : s.Capped name max

variable {name max} {http : Http} (forwarder : Forwarder) {r : ι} {s : Proxy ι}

omit [DecidableEq ι] in
theorem Proxy.Unserved.move {t : Proxy ι} (unserved : s.Unserved name max r)
    (moved : (Proxy.beside name max r).may s t) : t.Unserved name max r := by
  obtain ⟨same, _, capped⟩ := moved
  have entries : (fun key => (t.pools key).ledger r) = fun key => (s.pools key).ledger r :=
    congrArg Prod.fst same
  have tries : (t.lanes r).tries = (s.lanes r).tries := congrArg (fun o => o.2.tries) same
  exact ⟨fun key => (congrFun entries key).trans (unserved.blank key),
    tries.trans unserved.tries, capped unserved.capped⟩

omit [DecidableEq ι] in
theorem Proxy.Unserved.placed (unserved : s.Unserved name max r) : s.Placed name r := by
  intro generation admitted
  rw [unserved.blank] at admitted
  cases admitted

omit [DecidableEq ι] in
theorem untouched_of_unserved (unserved : s.Unserved name max r) (key : Nat × Str) :
    Untouched (((Proxy.poolPart key).view s).own r) := by
  have blank : (s.pools key).ledger r = .blank := unserved.blank key
  refine ⟨⟨?_, ?_, ?_, by simp⟩, ?_, unserved.tries⟩ <;>
    simp [Traffic.own, Proxy.poolPart, blank, Entry.blank]

theorem obeys_forward (visit : Visit http) (host : Str) {generation : Nat} {pool : Pool Scheme}
    (stored : generation ≤ s.generation) (capped : pool.id = name → pool.maxInFlight = some max)
    (unserved : s.Unserved name max r) :
    ((forwardRequest forwarder visit.conn pool r visit.request host visit.requestId).zoom
        (Proxy.poolPart (generation, pool.id))).Obeys (Proxy.beside name max r)
      (Proxy.Carried name max r) (Proxy.Placed name r) (fun _ _ => True) s := by
  set key := (generation, pool.id)
  let rest : Proxy ι → Prop := fun t => generation ≤ t.generation ∧
    ∀ other, other ≠ key → (t.pools other).ledger r = .blank
  have stable : (Proxy.beside name max r).Stable rest := by
    rintro t t' ⟨same, later, _⟩ ⟨stored, blank⟩
    have entries : (fun key => (t'.pools key).ledger r) = fun key => (t.pools key).ledger r :=
      congrArg Prod.fst same
    exact ⟨stored.trans later, fun other apart => (congrFun entries other).trans (blank other apart)⟩
  have carries : Carries pool r _ _
      (forwardRequest forwarder visit.conn pool r visit.request host visit.requestId) _ _ :=
    carries_forwardRequest forwarder visit.conn visit.request (untouched_of_unserved unserved key)
      host visit.requestId
  refine (Program.Obeys.zoom ?_ stable ?_ ?_ ?_ ⟨stored, fun other _ => unserved.blank other⟩
    (carries _ rfl)).weaken fun _ _ _ => True.intro
  · rintro t t' ⟨same, _⟩
    change Traffic.own r _ = Traffic.own r _
    rw [Proxy.own_view, Proxy.own_view, same]
  · rintro next t ⟨stored, blank⟩
    refine ⟨stored, fun other apart => ?_⟩
    rw [Proxy.pools_put_of_ne apart]
    exact blank other apart
  · rintro t ⟨_, blank⟩ within later admitted
    by_cases here : (later, name) = key
    · obtain ⟨rfl, named⟩ := Prod.mk.inj here
      rw [here] at admitted ⊢
      obtain ⟨_, seen, placed, _⟩ := within.1 admitted max (capped named.symm)
      exact Option.isSome_iff_exists.mpr ⟨seen, placed⟩
    · rw [blank _ here] at admitted
      cases admitted
  · rintro next t ⟨stored, _⟩ moved
    exact .inPool stored capped moved

theorem mem_values_of_routed {routing : Routing} {listener : Option Listener} {host path : Str}
    {route : CompiledRoute} {pool : Pool Scheme}
    (found : routed routing listener host path = .forwarded route pool) :
    pool ∈ routing.pools.pools.values := by
  unfold routed at found
  split at found
  · cases found
  · split at found
    · split at found
      · rename_i known
        cases found
        exact HashMap.mem_values known
      · cases found
    · cases found

theorem obeys_serve (visit : Visit http) (unserved : s.Unserved name max r) :
    (serve forwarder visit r).Obeys (Proxy.beside name max r) (Proxy.Carried name max r)
      (Proxy.Placed name r) (fun _ _ => True) s := by
  have steady : Program.Steady (Proxy.beside name max r) (Proxy.Placed name r)
      (Proxy.Unserved name max r) := ⟨fun _ _ moved held => held.move moved, fun _ held => held.placed⟩
  have looking : ((checkHost visit.conn.toConnInfo visit.request.toRequestHead).zoom
      (Proxy.worldPart (ι := ι))).Moves fun s s' => s' = s :=
    (checkHost_readOnly _ _).zoom fun w t same => by subst same; rfl
  apply Program.Obeys.bind
  refine (Program.Obeys.ofMoves looking steady ?_ unserved).weaken ?_
  · rintro t _ rfl held
    exact ⟨.idle, held⟩
  rintro (error | host) t unserved
  · exact Program.Obeys.ret fun _ _ => True.intro
  apply Program.Obeys.bind
  apply Program.Obeys.read
  intro t' moved
  have here := unserved.move moved
  refine ⟨here.placed, .idle, ?_⟩
  intro u later
  have there := here.move later
  apply Program.Obeys.bind
  apply Program.Obeys.read
  intro u' moved'
  have arrived := there.move moved'
  refine ⟨arrived.placed, .idle, ?_⟩
  intro v last
  have stored : t'.generation ≤ v.generation :=
    later.2.1.trans (moved'.2.1.trans last.2.1)
  split
  · rename_i found
    apply Program.Obeys.bind
    refine (obeys_forward forwarder visit host stored
      (here.capped _ (mem_values_of_routed found)) (arrived.move last)).weaken ?_
    exact fun _ _ _ => Program.Obeys.ret fun _ _ => True.intro
  · exact Program.Obeys.ret fun _ _ => True.intro

end

/-! ## All requests of a node -/

section

variable {ι : Type} [DecidableEq ι] [Fintype ι] (name : Str) (max : NonZeroU32)

/-- What holds of a node at every moment: nobody is in a pool of a snapshot that
    is not stored yet, and the books of the pools of this name add up. -/
structure Proxy.Sound (s : Proxy ι) : Prop where
  future : ∀ key, s.generation < key.1 → ∀ r, (s.pools key).ledger r = .blank
  pools : ∀ generation (pool : Pool Scheme), pool.maxInFlight = some max →
    Gfe.Sound pool (s.pools (generation, name))

/-- A node on which nothing was sent yet. -/
structure Proxy.Begins (s : Proxy ι) : Prop where
  pools : ∀ key, ∃ (pool : Pool Scheme) (status : HandleId → HealthStatus)
    (unknownIsSelectable : Bool) (random : UInt64),
    s.pools key = .new pool status unknownIsSelectable random
  tries : ∀ r, (s.lanes r).tries = []

variable {name max} {s s' : Proxy ι}

omit [DecidableEq ι] in
theorem Entry.Sane.of_cap {pool other : Pool Scheme} {entry : Entry} (sane : entry.Sane pool)
    (same : other.maxInFlight = pool.maxInFlight) : entry.Sane other :=
  ⟨sane.paid, sane.placed, sane.once, fun max capped => sane.room max (same ▸ capped)⟩

theorem Proxy.Carried.sound {r : ι} (carried : Carried name max r s s')
    (sound : s.Sound name max) : s'.Sound name max := by
  cases carried with
  | idle => exact sound
  | @inPool generation pool t stored capped moved =>
    constructor
    · intro key later r
      have apart : key ≠ (generation, pool.id) := by
        rintro rfl
        exact absurd stored (not_le.mpr later)
      rw [pools_put_of_ne apart]
      exact sound.future key later r
    · intro other known same
      by_cases here : (other, name) = (generation, pool.id)
      · obtain ⟨rfl, rfl⟩ := Prod.mk.inj here
        have before := sound.pools other pool (capped rfl)
        have after : Gfe.Sound pool t.pool := moved.sound before
        rw [pools_put]
        exact ⟨after.balanced, fun r => (after.sane r).of_cap (same.trans (capped rfl).symm)⟩
      · rw [pools_put_of_ne here]
        exact sound.pools other known same

omit [DecidableEq ι] in
theorem Proxy.Sound.ledger_poolsAfter (sound : s.Sound name max) (control : Startup)
    (random : UInt64) (key : Nat × Str) :
    (s.poolsAfter control random key).ledger = (s.pools key).ledger := by
  unfold poolsAfter
  split
  · rename_i next
    split
    · funext r
      exact (sound.future key (next ▸ Nat.lt_succ_self _) r).symm
    · rfl
  · rfl

omit [DecidableEq ι] in
/-- The control plane leaves the requests alone: the pools it opens are new. -/
theorem Proxy.Sound.follow (sound : s.Sound name max) {control : Startup} {random : UInt64}
    (capped : (s.follow control random).Capped name max) :
    (∀ r, (beside name max r).may s (s.follow control random)) ∧
      (s.follow control random).Sound name max := by
  unfold Proxy.follow at capped ⊢
  split at capped
  · rename_i same
    rw [if_pos same]
    exact ⟨fun r => ⟨rfl, le_rfl, fun _ => capped⟩, sound.future, sound.pools⟩
  · rename_i stored
    rw [if_neg stored]
    refine ⟨fun r => ⟨?_, Nat.le_succ _, fun _ => capped⟩, ?_, ?_⟩
    · refine Prod.ext (funext fun key => ?_) rfl
      exact congrFun (sound.ledger_poolsAfter control random key) r
    · intro key later r
      change (s.poolsAfter control random key).ledger r = .blank
      rw [sound.ledger_poolsAfter]
      exact sound.future key (lt_trans (Nat.lt_succ_self _) later) r
    · intro generation pool same
      change Gfe.Sound pool (s.poolsAfter control random (generation, name))
      unfold poolsAfter
      split
      · split
        · exact sound_new ..
        · exact sound.pools generation pool same
      · exact sound.pools generation pool same

variable (crates : Crates) (settings : NodeConfig) (others : World → World → Prop)

variable (name max) in
/-- The moves beside the requests, when the reloads leave the cap as it is. -/
def Proxy.CappedMoves (s s' : Proxy ι) : Prop :=
  s.Moves crates settings others s' ∧ s'.Capped name max

variable {crates settings others}

omit [DecidableEq ι] in
theorem Proxy.CappedMoves.sound (moved : s.CappedMoves name max crates settings others s')
    (sound : s.Sound name max) :
    (∀ r, (beside name max r).may s s') ∧ s'.Sound name max := by
  obtain ⟨moved, capped⟩ := moved
  cases moved with
  | control step => exact sound.follow capped
  | @around pools lanes now around lanesKept =>
    have ledgers : ∀ key, (pools key).ledger = (s.pools key).ledger := fun key => (around key).ledger
    refine ⟨fun r => ⟨Prod.ext (funext fun key => congrFun (ledgers key) r) ?_, le_rfl,
      fun _ => capped⟩, ?_, ?_⟩
    · exact congrArg₂ Track.mk (lanesKept r).1 (lanesKept r).2
    · intro key later r
      exact (congrFun (ledgers key) r).trans (sound.future key later r)
    · exact fun generation pool same => (around _).sound (sound.pools generation pool same)

/-- The requests that were admitted to a pool of a snapshot and are not over. -/
def liveOn (c : Crowd ι (Proxy ι) Handled) (key : Nat × Str) : Finset ι :=
  Finset.univ.filter fun r =>
    .ok () ∈ ((c.state.pools key).ledger r).answers ∧ (c.threads r).returned = false

/-- The requests that were admitted to a pool of this name, on whatever snapshot,
    and are not over. -/
def liveTo (c : Crowd ι (Proxy ι) Handled) (name : Str) : Finset ι :=
  (Finset.range (c.state.generation + 1)).biUnion fun generation => liveOn c (generation, name)

omit [DecidableEq ι] in
theorem liveOn_future {c : Crowd ι (Proxy ι) Handled} (sound : c.state.Sound name max)
    {generation : Nat} (later : c.state.generation < generation) :
    liveOn c (generation, name) = ∅ := by
  refine Finset.eq_empty_of_forall_notMem fun r member => ?_
  have admitted := (Finset.mem_filter.mp member).2.1
  rw [sound.future _ later] at admitted
  cases admitted

variable {http : Http} {forwarder : Forwarder} {visits : ι → Visit http}

/-- At every moment the books of the pools add up, and an admitted request that
    is not over holds its place. -/
theorem visiting_sound {start : Proxy ι} (begins : start.Begins) (capped : start.Capped name max)
    {c : Crowd ι (Proxy ι) Handled}
    (steps : Crowd.Steps (Proxy.CappedMoves name max crates settings others)
      (visiting forwarder visits start) c) :
    c.state.Sound name max ∧ ∀ r, (c.threads r).returned = false → c.state.Placed name r := by
  have blank : ∀ key r, (start.pools key).ledger r = .blank := by
    intro key r
    obtain ⟨pool, status, unknownIsSelectable, random, new⟩ := begins.pools key
    rw [new]
    rfl
  have initial : start.Sound name max := by
    refine ⟨fun key _ r => blank key r, fun generation pool _ => ?_⟩
    obtain ⟨other, status, unknownIsSelectable, random, new⟩ := begins.pools (generation, name)
    exact new ▸ sound_new other status unknownIsSelectable random
  obtain ⟨sound, threads⟩ := Crowd.sound (fun _ _ moved => moved.sound)
    (fun _ _ _ _ other carried => carried.others (Ne.symm other))
    (fun _ _ _ carried => carried.sound) initial
    (fun r => obeys_serve forwarder (visits r) ⟨fun key => blank key r, begins.tries r, capped⟩)
    steps
  refine ⟨sound, ?_⟩
  intro r under
  have here := threads r
  cases thread : c.threads r with
  | ret value =>
    rw [thread] at under
    cases under
  | act update next =>
    rw [thread] at here
    exact here.now

/-- On each snapshot a pool keeps to its cap. So it does over the whole node as
    long as the requests in flight to it were admitted on one snapshot, whatever
    reloads there were. -/
theorem cap_holds_on_one_snapshot {start : Proxy ι} (begins : start.Begins)
    (capped : start.Capped name max) {c : Crowd ι (Proxy ι) Handled}
    (steps : Crowd.Steps (Proxy.CappedMoves name max crates settings others)
      (visiting forwarder visits start) c) :
    (∀ generation, (liveOn c (generation, name)).card ≤ max.val.toNat) ∧
      ((∀ one two, (liveOn c (one, name)).Nonempty → (liveOn c (two, name)).Nonempty →
          one = two) → (liveTo c name).card ≤ max.val.toNat) := by
  obtain ⟨sound, placed⟩ := visiting_sound begins capped steps
  have each : ∀ generation, (liveOn c (generation, name)).card ≤ max.val.toNat := by
    intro generation
    let pool : Pool Scheme := ⟨name, .roundRobin, [], .http, [], [], true, some max, none⟩
    have books := sound.pools generation pool rfl
    apply books.card_le rfl
    · intro r member
      obtain ⟨_, admitted, under⟩ := Finset.mem_filter.mp member
      exact placed r under generation admitted
    · intro r member
      exact books.granted (Finset.mem_filter.mp member).2.1
  refine ⟨each, fun single => ?_⟩
  rcases (liveTo c name).eq_empty_or_nonempty with none | ⟨r, live⟩
  · rw [none]
    exact Nat.zero_le _
  · obtain ⟨generation, _, here⟩ := Finset.mem_biUnion.mp live
    refine (Finset.card_le_card ?_).trans (each generation)
    intro q member
    obtain ⟨other, _, there⟩ := Finset.mem_biUnion.mp member
    exact single other generation ⟨q, there⟩ ⟨r, here⟩ ▸ there

end

/-! ## A reload while a request waits -/

/-- What the control plane does next if only it moves: the node starts, and then
    reloads over and over. -/
def Startup.next (crates : Crates) (settings : NodeConfig) (s : Startup) : Startup :=
  match s with
  | ⟨w, phase, some (.act update next)⟩ => ⟨update w, phase, some (next w)⟩
  | ⟨w, phase, some (.ret ())⟩ => ⟨w, phase, none⟩
  | ⟨w, .waiting, none⟩ => ⟨w, .applying (ExceptT.run (applyInitial crates settings)), none⟩
  | ⟨w, .applying (.act update next), none⟩ => ⟨update w, .applying (next w), none⟩
  | ⟨w, .applying (.ret (.ok config)), none⟩ => ⟨w, .applied config, none⟩
  | ⟨w, .applying (.ret (.error error)), none⟩ => ⟨w, .failed error, none⟩
  | ⟨w, .applied config, none⟩ => ⟨beginChecks settings config w, .started, none⟩
  | ⟨w, .started, none⟩ => ⟨w, .started, some (Gfe.reload crates settings)⟩
  | ⟨w, .failed error, none⟩ => ⟨w, .failed error, some (Gfe.reload crates settings)⟩

theorem Startup.step_next (crates : Crates) (settings : NodeConfig) (others : World → World → Prop)
    (s : Startup) : Step crates settings others s (s.next crates settings) := by
  unfold Startup.next
  split
  · exact .act
  · exact .release
  · exact .lock
  · exact .apply
  · exact .applied
  · exact .failed
  · exact .check
  · exact .trigger nofun
  · exact .trigger nofun

namespace Proxy

variable {ι : Type} [DecidableEq ι] (crates : Crates) (settings : NodeConfig) (name : Str)
  (max : NonZeroU32)

/-- The control plane takes its next steps while the requests wait. -/
def drive : Nat → Proxy ι → Proxy ι
  | 0, s => s
  | n + 1, s => drive n (s.follow (s.control.next crates settings) 0)

/-- The cap is the same after each of these steps. -/
def StaysCapped : Nat → Proxy ι → Prop
  | 0, _ => True
  | n + 1, s => (s.follow (s.control.next crates settings) 0).Capped name max ∧
      StaysCapped n (s.follow (s.control.next crates settings) 0)

instance decidableStaysCapped :
    ∀ (n : Nat) (s : Proxy ι), Decidable (StaysCapped crates settings name max n s)
  | 0, _ => inferInstanceAs (Decidable True)
  | n + 1, s =>
    have := decidableStaysCapped n (s.follow (s.control.next crates settings) 0)
    inferInstanceAs (Decidable (_ ∧ _))

variable {crates settings name max}

theorem steps_drive {α : Type} (others : World → World → Prop) {c : Crowd ι (Proxy ι) α} {n : Nat}
    (stays : StaysCapped crates settings name max n c.state) :
    Crowd.Steps (CappedMoves name max crates settings others) c
      ⟨c.threads, c.state.drive crates settings n⟩ := by
  induction n generalizing c with
  | zero => exact .refl
  | succ n ih =>
    have moved : c.state.CappedMoves name max crates settings others
        (c.state.follow (c.state.control.next crates settings) 0) :=
      ⟨.control (Startup.step_next crates settings others _), stays.1⟩
    have rest := @ih ⟨c.threads, c.state.follow (c.state.control.next crates settings) 0⟩ stays.2
    exact .head (.env moved) rest

end Proxy

/-- Every request goes to one pool, one at a time. -/
def oneAtATime : DynamicConfig where
  certificates := []
  listeners := [.loopback ['l'] 80]
  routes := [⟨⟨['r']⟩, ⟨['l']⟩, ['*'], ['/'], .forward ['p']⟩]
  pools := [⟨⟨['p']⟩, .http, .leastRequest, [⟨['h'], 80, 1⟩], none, some ⟨1, one_ne_zero_u32⟩, none⟩]

/-- A node that starts on this config, and two requests. -/
def twoVisits : Crowd (Fin 2) (Proxy (Fin 2)) Handled :=
  visiting .plain (fun _ => ⟨.plain, getRoot [(hostHeader, [104])], ['i']⟩) {
    control := ⟨World.starting (deployed 0) ∅, .waiting, none⟩
    generation := 0
    pools _ := .new .narrow (fun _ => .healthy) true 0
    lanes _ := ⟨.error .reset, false, false, .begin ⟨0, clockRange_pos⟩ false, 0, []⟩
    now := ⟨0, clockRange_pos⟩ }

def firstWaits : Crowd (Fin 2) (Proxy (Fin 2)) Handled :=
  let started := twoVisits.state.drive (.indexed [oneAtATime]) (.small none) 22
  let first := (twoVisits.threads 0).advance 14 started
  ⟨Function.update twoVisits.threads 0 first.1, first.2⟩

/-- The config is reloaded as it is, and the second request arrives. -/
def bothWait : Crowd (Fin 2) (Proxy (Fin 2)) Handled :=
  let reloaded := firstWaits.state.drive (.indexed [oneAtATime]) (.small none) 21
  let second := (firstWaits.threads 1).advance 14 reloaded
  ⟨Function.update firstWaits.threads 1 second.1, second.2⟩

theorem steps_firstWaits : Crowd.Steps (Proxy.CappedMoves ['p'] ⟨1, by decide⟩
    (.indexed [oneAtATime]) (.small none) fun _ _ => False) twoVisits firstWaits :=
  (Proxy.steps_drive _ (by decide +kernel)).trans
    (Crowd.steps_advance _ twoVisits.threads _ 0 14)

/-- The config is reloaded before either request arrives. -/
def secondRefused : Crowd (Fin 2) (Proxy (Fin 2)) Handled :=
  let reloaded := twoVisits.state.drive (.indexed [oneAtATime]) (.small none) 43
  let first := (twoVisits.threads 0).advance 14 reloaded
  let threads := Function.update twoVisits.threads 0 first.1
  let second := (threads 1).advance 14 first.2
  ⟨Function.update threads 1 second.1, second.2⟩

theorem steps_secondRefused : Crowd.Steps (Proxy.CappedMoves ['p'] ⟨1, by decide⟩
    (.indexed [oneAtATime]) (.small none) fun _ _ => False) twoVisits secondRefused :=
  ((Proxy.steps_drive _ (by decide +kernel)).trans
    (Crowd.steps_advance _ twoVisits.threads _ 0 14)).trans (Crowd.steps_advance _ _ _ 1 14)

/-- There is one snapshot that anybody is on, the second. -/
theorem cap_holds_after_reload :
    secondRefused.state.generation = 2 ∧
      ((secondRefused.state.pools (2, ['p'])).ledger 1).answers = [.error .maxInFlight] ∧
      liveTo secondRefused ['p'] = {0} ∧
      (liveTo secondRefused ['p']).card ≤ (1 : UInt32).toNat := by
  have begins : twoVisits.state.Begins := ⟨fun _ => ⟨_, _, _, _, rfl⟩, fun _ => rfl⟩
  have capped : twoVisits.state.Capped ['p'] ⟨1, by decide⟩ := by decide
  have sound := (visiting_sound begins capped steps_secondRefused).1
  have stored : secondRefused.state.generation = 2 := by decide +kernel
  have nobody : ∀ generation < 2, liveOn secondRefused (generation, ['p']) = ∅ := by decide +kernel
  have second : ∀ generation, (liveOn secondRefused (generation, ['p'])).Nonempty →
      generation = 2 := by
    intro generation someone
    rcases Nat.lt_trichotomy generation 2 with before | here | later
    · exact absurd (nobody generation before) someone.ne_empty
    · exact here
    · rw [← stored] at later
      exact absurd (liveOn_future sound later) someone.ne_empty
  refine ⟨stored, by decide +kernel, by decide +kernel,
    (cap_holds_on_one_snapshot begins capped steps_secondRefused).2 ?_⟩
  intro one two here there
  rw [second one here, second two there]

theorem staysCapped_reload : Proxy.StaysCapped (.indexed [oneAtATime]) (.small none) ['p']
    ⟨1, by decide⟩ 21 firstWaits.state := by
  decide +kernel

theorem steps_bothWait : Crowd.Steps (Proxy.CappedMoves ['p'] ⟨1, by decide⟩
    (.indexed [oneAtATime]) (.small none) fun _ _ => False) firstWaits bothWait := by
  refine .trans (Proxy.steps_drive _ staysCapped_reload) ?_
  exact Crowd.steps_advance _ firstWaits.threads
      (firstWaits.state.drive (.indexed [oneAtATime]) (.small none) 21) 1 14

/-- The pool takes one request at a time, and two are in flight to it. -/
theorem reload_admits_past_cap :
    ∃ c, Crowd.Steps (Proxy.CappedMoves ['p'] ⟨1, by decide⟩ (.indexed [oneAtATime])
        (.small none) fun _ _ => False) twoVisits c ∧
      (1 : UInt32).toNat < (liveTo c ['p']).card :=
  ⟨bothWait, steps_firstWaits.trans steps_bothWait, by decide +kernel⟩

end Gfe
