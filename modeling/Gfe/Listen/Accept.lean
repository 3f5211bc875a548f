import Gfe.Config.Types
import Gfe.Lib.Crowd
import Gfe.Lib.Places
import Gfe.RateLimiting.KeyedBuckets

/-! # Accept loops

Each accept loop asks for two places for a connection, one under the cap of all listeners
and one under its own, and hands the connection to a task that gives both back. A place is
taken before it is known to be there, and given back if it was not, so the counters show
more than is served at times; what is served stays under the caps all the same.
-/

namespace Gfe.Accept

open Interleaving

variable {κ ι : Type}

/-! ## Limits -/

/-- What is counted: the connections of all loops, or those of one. -/
inductive Cap (κ : Type) where
  | total
  | listener (loop : κ)
  deriving DecidableEq

structure PeerRate where
  perSecond : NonZeroU32
  burst : NonZeroU32
  trackedPeers : Nat
  nonzero : trackedPeers ≠ 0

structure Limits where
  maxConnections : Nat
  maxConnectionsPerListener : Nat
  connectionsPerPeer : Option PeerRate

def Limits.max (limits : Limits) : Cap κ → Nat
  | .total => limits.maxConnections
  | .listener _ => limits.maxConnectionsPerListener

inductive Limit where
  | connectionsPerPeer
  | maxConnections
  | maxConnectionsPerListener
  deriving DecidableEq, Repr

structure LimitReached where
  max : Nat

/-- Where a connection is. -/
inductive Phase where
  | coming
  | admitting
  | refused (limit : Limit)
  | serving
  /-- It ended or was cut; its task has both places. -/
  | ended
  /-- Its task has given its place under the cap of all loops back. -/
  | leaving
  | closed
  deriving DecidableEq, Repr

/-- A connection, with what the counters showed when it was counted, while it is. -/
structure Record (κ : Type) where
  phase : Phase
  seen : Cap κ → Option Int

structure Admission (κ ι : Type) where
  /-- Places taken by connections in memory and given back once: 64 bits hold them. -/
  inUse : Cap κ → Int
  peerRate : Option (KeyedBuckets IpAddr)
  ledger : ι → Record κ

namespace Admission

def new (limits : Limits) : Admission κ ι where
  inUse _ := 0
  peerRate := limits.connectionsPerPeer.map fun rate =>
    .new rate.perSecond rate.burst rate.trackedPeers rate.nonzero
  ledger _ := ⟨.coming, fun _ => none⟩

variable [DecidableEq κ] [DecidableEq ι]

def note (i : ι) (phase : Phase) (s : Admission κ ι) : Admission κ ι :=
  { s with ledger := Function.update s.ledger i { s.ledger i with phase := phase } }

/-- `in_use.fetch_add(1)` -/
def take (cap : Cap κ) (i : ι) (s : Admission κ ι) : Int × Admission κ ι :=
  (s.inUse cap, { s with
    inUse := Function.update s.inUse cap (s.inUse cap + 1)
    ledger := Function.update s.ledger i { s.ledger i with
      seen := Function.update (s.ledger i).seen cap (some (s.inUse cap)) } })

/-- `in_use.fetch_sub(1)` -/
def give (cap : Cap κ) (i : ι) (s : Admission κ ι) : Admission κ ι :=
  { s with
    inUse := Function.update s.inUse cap (s.inUse cap - 1)
    ledger := Function.update s.ledger i { s.ledger i with
      seen := Function.update (s.ledger i).seen cap none } }

def askPeer (peer : IpAddr) (now : Instant) (s : Admission κ ι) : Bool × Admission κ ι :=
  match s.peerRate with
  | none => (true, s)
  | some rate =>
    let (answer, rate) := rate.tryAcquire peer.toCanonical now
    (answer.isOk, { s with peerRate := some rate })

end Admission

/-! ## Admitting -/

structure Permit (κ : Type) where
  cap : Cap κ

section

variable [DecidableEq κ] [DecidableEq ι]

/-- Take a place, whether or not there is one. -/
def fetchAdd (cap : Cap κ) (i : ι) : Program (Admission κ ι) Int :=
  .exchange (Admission.take cap i)

def peerAllowed (peer : IpAddr) (now : Instant) : Program (Admission κ ι) Bool :=
  .exchange (Admission.askPeer peer now)

def Permit.drop (permit : Permit κ) (i : ι) : Program (Admission κ ι) Unit :=
  .write (.give permit.cap i)

def tryAcquire (cap : Cap κ) (max : Option Nat) (i : ι) :
    Fallible (Admission κ ι) LimitReached (Permit κ) := do
  let alreadyInUse ← fetchAdd cap i
  let permit : Permit κ := ⟨cap⟩
  match max with
  | some max =>
    if (max : Int) ≤ alreadyInUse then do
      permit.drop i
      throw ⟨max⟩
    else return permit
  | none => return permit

def admitConnection (limits : Limits) (loop : κ) (i : ι) (peer : IpAddr) (now : Instant) :
    Fallible (Admission κ ι) Limit (Permit κ × Permit κ) := do
  let allowed ← (peerAllowed peer now : Program (Admission κ ι) Bool)
  if !allowed then throw .connectionsPerPeer
  let total ← Fallible.mapError (fun _ => .maxConnections)
    (tryAcquire .total (some limits.maxConnections) i)
  match ← Fallible.attempt (tryAcquire (.listener loop) (some limits.maxConnectionsPerListener) i) with
  | .ok here => return (total, here)
  | .error _ =>
    -- the other permit is dropped on the way out
    total.drop i
    throw .maxConnectionsPerListener

/-- The connections that will come, on which loop, from where and when. -/
structure Arrivals (κ ι : Type) where
  queue : κ → List ι
  loop : ι → κ
  peer : ι → IpAddr
  now : ι → Instant
  own : ∀ l, ∀ i ∈ queue l, loop i = l
  once : ∀ l, (queue l).Nodup

/-- An accept loop, up to the end of what comes. -/
def runListener (limits : Limits) (arrivals : Arrivals κ ι) (loop : κ) :
    List ι → Program (Admission κ ι) Unit
  | [] => .ret ()
  | i :: rest => do
    Program.write (Admission.note i .admitting)
    match ← (admitConnection limits loop i (arrivals.peer i) (arrivals.now i)).run with
    | .ok _ => Program.write (Admission.note i .serving)
    | .error limit => Program.write (Admission.note i (.refused limit))
    runListener limits arrivals loop rest

/-- What the tasks do: a connection ends or is cut, then its slot is dropped, its permits in
    order. -/
inductive TaskStep (arrivals : Arrivals κ ι) (s : Admission κ ι) : Admission κ ι → Prop where
  | ends {i} : (s.ledger i).phase = .serving → TaskStep arrivals s (s.note i .ended)
  | givesTotal {i} : (s.ledger i).phase = .ended →
      TaskStep arrivals s ((s.give .total i).note i .leaving)
  | givesHere {i} : (s.ledger i).phase = .leaving →
      TaskStep arrivals s ((s.give (.listener (arrivals.loop i)) i).note i .closed)

end

/-! ## What the counters count -/

section

variable [DecidableEq κ] [DecidableEq ι]

/-- The places under a cap, as its counter and the connections know them. -/
def Admission.places (s : Admission κ ι) (cap : Cap κ) : Places ι where
  count := s.inUse cap
  seen i := (s.ledger i).seen cap

namespace Admission

variable (s : Admission κ ι) (i : ι)

omit [DecidableEq κ] in
@[simp] theorem ledger_note (phase : Phase) :
    (s.note i phase).ledger = Function.update s.ledger i { s.ledger i with phase := phase } := rfl

theorem ledger_give_note (given : Cap κ) (phase : Phase) :
    ((s.give given i).note i phase).ledger =
      Function.update s.ledger i ⟨phase, Function.update (s.ledger i).seen given none⟩ := by
  simp [note, give]

omit [DecidableEq κ] in
@[simp] theorem places_note (phase : Phase) (cap : Cap κ) :
    (s.note i phase).places cap = s.places cap := by
  refine congrArg (Places.mk _) (funext fun j => ?_)
  by_cases same : j = i <;> simp [same]

theorem places_take (taken cap : Cap κ) :
    (s.take taken i).2.places cap = if cap = taken then (s.places cap).enter i else s.places cap := by
  split
  · rename_i same
    subst same
    refine congrArg₂ Places.mk (by simp [take, places]) (funext fun j => ?_)
    by_cases own : j = i <;> simp [take, places, own]
  · rename_i other
    refine congrArg₂ Places.mk (by simp [take, other]) (funext fun j => ?_)
    by_cases own : j = i <;> simp [take, own, other]

theorem places_give (given cap : Cap κ) :
    (s.give given i).places cap = if cap = given then (s.places cap).leave i else s.places cap := by
  split
  · rename_i same
    subst same
    refine congrArg₂ Places.mk (by simp [give, places]) (funext fun j => ?_)
    by_cases own : j = i <;> simp [give, places, own]
  · rename_i other
    refine congrArg₂ Places.mk (by simp [give, other]) (funext fun j => ?_)
    by_cases own : j = i <;> simp [give, own, other]

end Admission

/-- The connection has a place under each of these caps, for which there was room, and under no
    other. -/
def Record.Granted (limits : Limits) (record : Record κ) (caps : List (Cap κ)) : Prop :=
  ∀ cap, (cap ∈ caps → ∃ k ∈ record.seen cap, k < limits.max cap) ∧
    (cap ∉ caps → record.seen cap = none)

/-- The places a connection of a loop has, by where it is. -/
def Record.Fits (limits : Limits) (loop : κ) (record : Record κ) : Prop :=
  match record.phase with
  | .coming | .refused _ | .closed => record.Granted limits []
  | .admitting => True
  | .serving | .ended => record.Granted limits [.total, .listener loop]
  | .leaving => record.Granted limits [.listener loop]

/-- A step of an accept loop. -/
inductive Moved (limits : Limits) (arrivals : Arrivals κ ι) (loop : κ) (s : Admission κ ι) :
    Admission κ ι → Prop where
  | asks (rate) : Moved limits arrivals loop s { s with peerRate := rate }
  | accepts {i} : arrivals.loop i = loop → (s.ledger i).phase = .coming →
      Moved limits arrivals loop s (s.note i .admitting)
  | takes {i} (cap) : arrivals.loop i = loop → (s.ledger i).phase = .admitting →
      (s.ledger i).seen cap = none → Moved limits arrivals loop s (s.take cap i).2
  | gives {i} (cap) : arrivals.loop i = loop → (s.ledger i).phase = .admitting →
      ((s.ledger i).seen cap).isSome → Moved limits arrivals loop s (s.give cap i)
  | spawns {i} : arrivals.loop i = loop → (s.ledger i).phase = .admitting →
      (s.ledger i).Granted limits [.total, .listener loop] →
      Moved limits arrivals loop s (s.note i .serving)
  | refuses {i} (limit) : arrivals.loop i = loop → (s.ledger i).phase = .admitting →
      (s.ledger i).Granted limits [] → Moved limits arrivals loop s (s.note i (.refused limit))

/-- The counters are right, and every connection has the places it should have. -/
structure Orderly [Fintype ι] (limits : Limits) (arrivals : Arrivals κ ι) (s : Admission κ ι) :
    Prop where
  sound : ∀ cap, (s.places cap).Sound
  fits : ∀ i, (s.ledger i).Fits limits (arrivals.loop i)

variable {limits : Limits} {arrivals : Arrivals κ ι} {loop : κ} {s s' : Admission κ ι}

section

variable [Fintype ι]

omit [DecidableEq κ] [DecidableEq ι] in
theorem orderly_new : Orderly limits arrivals (.new limits : Admission κ ι) := by
  constructor
  · intro cap
    constructor
    · simp [Admission.places, Admission.new, Places.holders]
    · intro n
      simp [Admission.places, Admission.new, Places.below]
  · intro i cap
    constructor
    · intro held
      cases held
    · intro _
      rfl

omit [DecidableEq κ] in
theorem Orderly.step (orderly : Orderly limits arrivals s) {i : ι} {record : Record κ}
    (sound : ∀ cap, (s'.places cap).Sound) (ledger : s'.ledger = Function.update s.ledger i record)
    (fits : record.Fits limits (arrivals.loop i)) : Orderly limits arrivals s' := by
  refine ⟨sound, fun j => ?_⟩
  rw [ledger]
  by_cases same : j = i
  · subst same
    rwa [Function.update_self]
  · rw [Function.update_of_ne same]
    exact orderly.fits j

omit [DecidableEq κ] in
theorem Orderly.note (orderly : Orderly limits arrivals s) {i : ι} {phase : Phase}
    (fits : Record.Fits limits (arrivals.loop i) { s.ledger i with phase := phase }) :
    Orderly limits arrivals (s.note i phase) :=
  orderly.step (fun cap => by rw [s.places_note]; exact orderly.sound cap) rfl fits

theorem Orderly.sound_give (orderly : Orderly limits arrivals s) {i : ι} {given : Cap κ}
    (held : ((s.ledger i).seen given).isSome) (cap : Cap κ) : ((s.give given i).places cap).Sound := by
  rw [s.places_give]
  split
  · rename_i same
    subst same
    exact (orderly.sound cap).leave held
  · exact orderly.sound cap

theorem Moved.orderly (moved : Moved limits arrivals loop s s')
    (orderly : Orderly limits arrivals s) : Orderly limits arrivals s' := by
  cases moved with
  | asks rate => exact ⟨orderly.sound, orderly.fits⟩
  | accepts mine coming => exact orderly.note True.intro
  | @takes i taken mine admitting free =>
    refine orderly.step (fun cap => ?_) rfl ?_
    · rw [s.places_take]
      split
      · rename_i same
        subst same
        exact (orderly.sound cap).enter free
      · exact orderly.sound cap
    · simp only [Record.Fits, admitting]
  | @gives i given mine admitting held =>
    refine orderly.step (orderly.sound_give held) rfl ?_
    simp only [Record.Fits, admitting]
  | spawns mine admitting granted => exact orderly.note (mine ▸ granted)
  | refuses limit mine admitting granted => exact orderly.note granted

theorem Record.Granted.give {record : Record κ} {given : Cap κ} {caps : List (Cap κ)}
    (granted : record.Granted limits (given :: caps)) (single : given ∉ caps) :
    Record.Granted limits { record with seen := Function.update record.seen given none } caps := by
  intro cap
  by_cases same : cap = given
  · subst same
    exact ⟨fun listed => absurd listed single, fun _ => Function.update_self ..⟩
  · have before := granted cap
    simp only [List.mem_cons, same, false_or] at before
    simpa [Function.update_of_ne same] using before

omit [DecidableEq κ] in
theorem Record.Granted.isSome {record : Record κ} {cap : Cap κ} {caps : List (Cap κ)}
    (granted : record.Granted limits caps) (listed : cap ∈ caps) : (record.seen cap).isSome := by
  obtain ⟨k, seen, _⟩ := (granted cap).1 listed
  rw [Option.mem_def.mp seen]
  rfl

theorem Orderly.give_note (orderly : Orderly limits arrivals s) {i : ι} {given : Cap κ}
    {caps : List (Cap κ)} (granted : (s.ledger i).Granted limits (given :: caps))
    (single : given ∉ caps) {phase : Phase}
    (fits : ∀ record : Record κ, record.phase = phase → record.Granted limits caps →
      record.Fits limits (arrivals.loop i)) :
    Orderly limits arrivals ((s.give given i).note i phase) := by
  refine orderly.step (fun cap => ?_) (s.ledger_give_note i given phase)
    (fits ⟨phase, _⟩ rfl (granted.give single))
  rw [Admission.places_note]
  exact orderly.sound_give (granted.isSome List.mem_cons_self) cap

theorem TaskStep.orderly (step : TaskStep arrivals s s') (orderly : Orderly limits arrivals s) :
    Orderly limits arrivals s' := by
  cases step with
  | @ends i serving =>
    have fits := orderly.fits i
    simp only [Record.Fits, serving] at fits
    exact orderly.note fits
  | @givesTotal i ended =>
    have fits := orderly.fits i
    simp only [Record.Fits, ended] at fits
    apply orderly.give_note fits (by simp)
    intro record here granted
    simpa only [Record.Fits, here] using granted
  | @givesHere i leaving =>
    have fits := orderly.fits i
    simp only [Record.Fits, leaving] at fits
    apply orderly.give_note fits (by simp)
    intro record here granted
    simpa only [Record.Fits, here] using granted

end

/-! ## What a loop relies on -/

/-- The connections of a loop that are not decided yet. -/
def undecided (arrivals : Arrivals κ ι) (loop : κ) (s : Admission κ ι) (i : ι) : Option (Record κ) :=
  if arrivals.loop i = loop ∧ ((s.ledger i).phase = .coming ∨ (s.ledger i).phase = .admitting) then
    some (s.ledger i)
  else none

omit [DecidableEq ι] in
theorem undecided_eq_some {i : ι} {record : Record κ} :
    undecided arrivals loop s i = some record ↔ arrivals.loop i = loop ∧
      (record.phase = .coming ∨ record.phase = .admitting) ∧ s.ledger i = record := by
  unfold undecided
  split
  · rename_i early
    simp only [Option.some.injEq]
    constructor
    · rintro rfl
      exact ⟨early.1, early.2, rfl⟩
    · exact fun facts => facts.2.2
  · rename_i late
    simp only [reduceCtorEq, false_iff]
    rintro ⟨mine, early, rfl⟩
    exact late ⟨mine, early⟩

theorem undecided_update {i : ι} {record : Record κ} (mine : arrivals.loop i = loop)
    (ledger : s'.ledger = Function.update s.ledger i record) :
    undecided arrivals loop s' = Function.update (undecided arrivals loop s) i
      (if record.phase = .coming ∨ record.phase = .admitting then some record else none) := by
  funext j
  unfold undecided
  by_cases same : j = i
  · subst same
    simp [ledger, mine]
  · simp [ledger, same]

theorem undecided_of_other {i : ι} {record : Record κ}
    (ledger : s'.ledger = Function.update s.ledger i record)
    (elsewhere : arrivals.loop i ≠ loop ∨
      ¬ ((s.ledger i).phase = .coming ∨ (s.ledger i).phase = .admitting) ∧
        ¬ (record.phase = .coming ∨ record.phase = .admitting)) :
    undecided arrivals loop s' = undecided arrivals loop s := by
  funext j
  unfold undecided
  by_cases same : j = i
  · subst same
    rw [ledger, Function.update_self]
    rcases elsewhere with other | ⟨late, later⟩
    · rw [if_neg fun facts => other facts.1, if_neg fun facts => other facts.1]
    · rw [if_neg fun facts => later facts.2, if_neg fun facts => late facts.2]
  · rw [ledger, Function.update_of_ne same]

theorem Moved.elsewhere {other : κ} (moved : Moved limits arrivals loop s s')
    (differ : loop ≠ other) : undecided arrivals other s' = undecided arrivals other s := by
  cases moved with
  | asks rate => rfl
  | accepts mine => exact undecided_of_other rfl (.inl (mine ▸ differ))
  | takes cap mine => exact undecided_of_other rfl (.inl (mine ▸ differ))
  | gives cap mine => exact undecided_of_other rfl (.inl (mine ▸ differ))
  | spawns mine => exact undecided_of_other rfl (.inl (mine ▸ differ))
  | refuses limit mine => exact undecided_of_other rfl (.inl (mine ▸ differ))

theorem TaskStep.elsewhere (step : TaskStep arrivals s s') :
    undecided arrivals loop s' = undecided arrivals loop s := by
  cases step with
  | @ends i serving =>
    refine undecided_of_other rfl (.inr ?_)
    simp [serving]
  | @givesTotal i ended =>
    refine undecided_of_other (s.ledger_give_note i _ _) (.inr ?_)
    simp [ended]
  | @givesHere i leaving =>
    refine undecided_of_other (s.ledger_give_note i _ _) (.inr ?_)
    simp [leaving]

/-! ## One connection -/

/-- What a program does for a connection that is being admitted: from this record to one that
    satisfies `post`. -/
def Admits {α : Type} (limits : Limits) (arrivals : Arrivals κ ι) (loop : κ) (i : ι)
    (p : Program (Admission κ ι) α) (record : Record κ) (post : α → Record κ → Prop) : Prop :=
  ∀ others, Program.Owns (undecided arrivals loop) (Moved limits arrivals loop) (fun _ => True) p
    (Function.update others i (some record)) fun value own =>
      ∃ after, own = Function.update others i (some after) ∧ post value after

namespace Admits

variable {α β ε : Type} {i : ι} {record : Record κ}

theorem ret {value : α} {post : α → Record κ → Prop} (here : post value record) :
    Admits limits arrivals loop i (.ret value) record post :=
  fun _ => .ret ⟨record, rfl, here⟩

theorem exchange {change : Admission κ ι → α × Admission κ ι} {post : α → Record κ → Prop}
    (step : ∀ s : Admission κ ι, arrivals.loop i = loop → s.ledger i = record →
      Moved limits arrivals loop s (change s).2 ∧ ∃ after : Record κ,
        (change s).2.ledger = Function.update s.ledger i after ∧ after.phase = .admitting ∧
          post (change s).1 after) :
    Admits limits arrivals loop i (.exchange change) record post := by
  intro others
  apply Program.Owns.exchange True.intro
  intro s here
  have own := congrFun here i
  rw [Function.update_self, undecided_eq_some] at own
  obtain ⟨moved, after, ledger, admitting, held⟩ := step s own.1 own.2.2
  refine ⟨moved, after, ?_, held⟩
  rw [undecided_update own.1 ledger, here, if_pos (.inr admitting), Function.update_idem]

theorem weaken {p : Program (Admission κ ι) α} {post post' : α → Record κ → Prop}
    (admits : Admits limits arrivals loop i p record post)
    (imp : ∀ value after, post value after → post' value after) :
    Admits limits arrivals loop i p record post' :=
  fun others => (admits others).weaken fun value _ ⟨after, same, held⟩ =>
    ⟨after, same, imp value after held⟩

theorem bind {p : Program (Admission κ ι) α} {f : α → Program (Admission κ ι) β}
    {post : β → Record κ → Prop}
    (admits : Admits limits arrivals loop i p record fun value after =>
      Admits limits arrivals loop i (f value) after post) :
    Admits limits arrivals loop i (p >>= f) record post := by
  intro others
  apply Program.Owns.bind
  refine (admits others).weaken ?_
  rintro value _ ⟨after, rfl, rest⟩
  exact rest others

theorem bindFallible {p : Fallible (Admission κ ι) ε α} {f : α → Fallible (Admission κ ι) ε β}
    {post : Except ε β → Record κ → Prop}
    (admits : Admits limits arrivals loop i (ExceptT.run p) record fun result after =>
      match result with
      | .ok value => Admits limits arrivals loop i (ExceptT.run (f value)) after post
      | .error error => post (.error error) after) :
    Admits limits arrivals loop i (ExceptT.run (p >>= f)) record post := by
  rw [ExceptT.run_bind]
  refine bind (admits.weaken ?_)
  rintro (error | value) after rest
  · exact ret rest
  · exact rest

theorem liftFallible {p : Program (Admission κ ι) α} {post : Except ε α → Record κ → Prop}
    (admits : Admits limits arrivals loop i p record fun value => post (.ok value)) :
    Admits limits arrivals loop i (ExceptT.run (monadLift p : Fallible (Admission κ ι) ε α)) record
      post :=
  fun others => .liftFallible (admits others)

theorem mapError {δ : Type} {f : ε → δ} {p : Fallible (Admission κ ι) ε α}
    {post : Except δ α → Record κ → Prop}
    (admits : Admits limits arrivals loop i (ExceptT.run p) record fun result =>
      post (result.mapError f)) :
    Admits limits arrivals loop i (ExceptT.run (Fallible.mapError f p)) record post := by
  change Admits limits arrivals loop i (Except.mapError f <$> ExceptT.run p) record post
  rw [← bind_pure_comp]
  exact bind (admits.weaken fun _ _ held => ret held)

end Admits

section

variable {i : ι} {record : Record κ}

theorem Record.Granted.take {caps : List (Cap κ)} (granted : record.Granted limits caps)
    {cap : Cap κ} {k : Int} (room : k < limits.max cap) :
    Record.Granted limits { record with seen := Function.update record.seen cap (some k) }
      (cap :: caps) := by
  intro other
  by_cases same : other = cap
  · subst same
    refine ⟨fun _ => ⟨k, ?_, room⟩, fun absent => absurd List.mem_cons_self absent⟩
    simp
  · have before := granted other
    simpa [same] using before

omit [DecidableEq κ] in
theorem Record.Granted.swap {first second : Cap κ}
    (granted : record.Granted limits [first, second]) : record.Granted limits [second, first] := by
  intro cap
  rw [List.Perm.mem_iff (List.Perm.swap first second [])]
  exact granted cap

theorem admits_drop {permit : Permit κ} (admitting : record.phase = .admitting)
    (held : (record.seen permit.cap).isSome) :
    Admits limits arrivals loop i (permit.drop i) record fun _ after =>
      after = { record with seen := Function.update record.seen permit.cap none } := by
  suffices done : Admits limits arrivals loop i
      (.exchange fun s => ((), Admission.give permit.cap i s)) record _ from done
  apply Admits.exchange
  rintro s mine rfl
  exact ⟨.gives permit.cap mine admitting held, _, rfl, admitting, rfl⟩

theorem admits_tryAcquire {cap : Cap κ} {max : Nat} (admitting : record.phase = .admitting)
    (free : record.seen cap = none) :
    Admits limits arrivals loop i (ExceptT.run (tryAcquire cap (some max) i)) record
      fun result after =>
        match result with
        | .ok permit => permit = ⟨cap⟩ ∧ ∃ k < (max : Int),
            after = { record with seen := Function.update record.seen cap (some k) }
        | .error _ => after = record := by
  apply Admits.bindFallible
  apply Admits.liftFallible
  apply Admits.exchange
  rintro s mine rfl
  refine ⟨.takes cap mine admitting free, _, rfl, admitting, ?_⟩
  dsimp only [Admission.take]
  by_cases full : (max : Int) ≤ s.inUse cap
  · simp only [full, if_true]
    apply Admits.bindFallible
    apply Admits.liftFallible
    have dropped : Admits limits arrivals loop i ((⟨cap⟩ : Permit κ).drop i)
        ⟨(s.ledger i).phase, Function.update (s.ledger i).seen cap (some (s.inUse cap))⟩ _ :=
      admits_drop admitting (by simp)
    refine dropped.weaken ?_
    rintro _ _ rfl
    refine .ret ?_
    simp only [Function.update_idem, ← free, Function.update_eq_self]
  · simp only [full, if_false]
    exact .ret ⟨rfl, s.inUse cap, not_le.mp full, rfl⟩

/-- In the end the connection has both places, and there was room for it under both caps, or it
    has none. -/
theorem admits_admitConnection (peer : IpAddr) (now : Instant) (admitting : record.phase = .admitting)
    (none : record.Granted limits []) :
    Admits limits arrivals loop i (ExceptT.run (admitConnection limits loop i peer now)) record
      fun result after => after.phase = .admitting ∧
        match result with
        | .ok _ => after.Granted limits [.total, .listener loop]
        | .error _ => after.Granted limits [] := by
  have asks : Admits limits arrivals loop i (peerAllowed peer now) record fun _ after =>
      record = after := by
    apply Admits.exchange
    rintro s mine rfl
    have asked : ∃ rate, (s.askPeer peer now).2 = { s with peerRate := rate } := by
      unfold Admission.askPeer
      split
      · exact ⟨s.peerRate, rfl⟩
      · exact ⟨_, rfl⟩
    obtain ⟨rate, same⟩ := asked
    rw [same]
    exact ⟨.asks rate, _, (Function.update_eq_self i s.ledger).symm, admitting, rfl⟩
  apply Admits.bindFallible
  apply Admits.liftFallible
  refine asks.weaken ?_
  rintro allowed _ rfl
  cases allowed with
  | false => exact .bindFallible (.ret ⟨admitting, none⟩)
  | true =>
    simp only [Bool.not_true, Bool.false_eq_true, if_false]
    apply Admits.bindFallible
    apply Admits.mapError
    refine (admits_tryAcquire admitting ((none .total).2 nofun)).weaken ?_
    rintro (_ | total) counted taken
    · rw [show counted = record from taken]
      exact ⟨admitting, none⟩
    obtain ⟨rfl, k, room, same⟩ := taken
    have still : counted.phase = .admitting := by rw [same, admitting]
    have one : counted.Granted limits [.total] := same ▸ none.take room
    apply Admits.bindFallible
    apply Admits.liftFallible
    refine (admits_tryAcquire still ((one (.listener loop)).2 (by simp))).weaken ?_
    rintro (_ | here) after taken
    · rw [show after = counted from taken]
      apply Admits.bindFallible
      apply Admits.liftFallible
      refine (admits_drop still (one.isSome List.mem_cons_self)).weaken ?_
      rintro _ _ rfl
      exact .ret ⟨still, one.give nofun⟩
    · obtain ⟨rfl, k', room', rfl⟩ := taken
      have both := one.take (show k' < limits.max (.listener loop) from room')
      exact .ret ⟨still, both.swap⟩

end

/-! ## All loops -/

/-- None of these connections is being admitted. -/
def Rests (records : ι → Option (Record κ)) : Prop :=
  ∀ i record, records i = some record → record.phase = .coming

/-- A loop decides its connections one after the other. -/
theorem owns_runListener (queue : List ι) (mine : ∀ i ∈ queue, arrivals.loop i = loop)
    (once : queue.Nodup) (before : ι → Option (Record κ))
    (coming : ∀ i ∈ queue, before i = some ⟨.coming, fun _ => none⟩) (rests : Rests before) :
    Program.Owns (undecided arrivals loop) (Moved limits arrivals loop) (fun _ => True)
      (runListener limits arrivals loop queue) before fun _ => Rests := by
  induction queue generalizing before with
  | nil => exact .ret rests
  | cons i rest ih =>
    obtain ⟨own, others⟩ := List.forall_mem_cons.mp mine
    obtain ⟨absent, distinct⟩ := List.nodup_cons.mp once
    obtain ⟨first, later⟩ := List.forall_mem_cons.mp coming
    apply Program.Owns.bind
    apply Program.Owns.write True.intro
    intro s here
    have known := (undecided_eq_some.mp ((congrFun here i).trans first)).2.2
    refine ⟨.accepts own (by rw [known]), ?_⟩
    rw [undecided_update own (s.ledger_note i .admitting), here, if_pos (.inr rfl), known]
    apply Program.Owns.bind
    refine (admits_admitConnection _ _ rfl (fun cap => ⟨nofun, fun _ => rfl⟩) before).weaken ?_
    rintro result _ ⟨record, rfl, admitting, decided⟩
    have goesOn : ∀ s : Admission κ ι, ∀ phase, ¬ (phase = .coming ∨ phase = .admitting) →
        undecided arrivals loop s = Function.update before i (some record) →
        Program.Owns (undecided arrivals loop) (Moved limits arrivals loop) (fun _ => True)
          (runListener limits arrivals loop rest)
          (undecided arrivals loop (s.note i phase)) fun _ => Rests := by
      intro s phase late here
      have after : undecided arrivals loop (s.note i phase) = Function.update before i none := by
        rw [undecided_update own (s.ledger_note i phase), here, if_neg late, Function.update_idem]
      rw [after]
      apply ih others distinct
      · intro j listed
        have other : j ≠ i := fun same => absent (same ▸ listed)
        rw [Function.update_of_ne other]
        exact later j listed
      · intro j record known
        have other : j ≠ i := by
          rintro rfl
          rw [Function.update_self] at known
          cases known
        rw [Function.update_of_ne other] at known
        exact rests j record known
    cases result with
    | ok permits =>
      apply Program.Owns.bind
      apply Program.Owns.write True.intro
      intro s here
      have known := (undecided_eq_some.mp ((congrFun here i).trans (Function.update_self ..))).2.2
      rw [← known] at admitting decided
      exact ⟨.spawns own admitting decided, goesOn s .serving (by simp) here⟩
    | error limit =>
      apply Program.Owns.bind
      apply Program.Owns.write True.intro
      intro s here
      have known := (undecided_eq_some.mp ((congrFun here i).trans (Function.update_self ..))).2.2
      rw [← known] at admitting decided
      exact ⟨.refuses limit own admitting decided, goesOn s (.refused limit) (by simp) here⟩

/-- All accept loops, before anything has come. -/
def listening (limits : Limits) (arrivals : Arrivals κ ι) : Crowd κ (Admission κ ι) Unit where
  threads loop := runListener limits arrivals loop (arrivals.queue loop)
  state := .new limits

section

variable [Fintype ι]

/-- The connections served that count against a cap: until their places are given back. -/
def served (arrivals : Arrivals κ ι) (s : Admission κ ι) : Cap κ → Finset ι
  | .total => Finset.univ.filter fun i =>
    (s.ledger i).phase = .serving ∨ (s.ledger i).phase = .ended
  | .listener loop => Finset.univ.filter fun i => arrivals.loop i = loop ∧
      ((s.ledger i).phase = .serving ∨ (s.ledger i).phase = .ended ∨ (s.ledger i).phase = .leaving)

/-- What the caps are for. -/
structure Capped (limits : Limits) (arrivals : Arrivals κ ι) (s : Admission κ ι) : Prop where
  served : ∀ cap, (served arrivals s cap).card ≤ limits.max cap
  counted : ∀ cap, s.inUse cap = (s.places cap).holders.card
  refused : ∀ i limit, (s.ledger i).phase = .refused limit → ∀ cap, i ∉ (s.places cap).holders
  idle : (∀ i, (s.ledger i).phase ≠ .admitting) → (∀ cap, Accept.served arrivals s cap = ∅) →
    ∀ cap, s.inUse cap = 0

omit [DecidableEq ι] in
theorem Orderly.granted (orderly : Orderly limits arrivals s) {i : ι} {cap : Cap κ}
    (member : i ∈ served arrivals s cap) :
    ∃ k ∈ (s.ledger i).seen cap, k < limits.max cap := by
  have fits := orderly.fits i
  cases cap with
  | total =>
    simp only [served, Finset.mem_filter, Finset.mem_univ, true_and] at member
    rcases member with here | here <;> simp only [Record.Fits, here] at fits <;>
      exact (fits .total).1 (by simp)
  | listener loop =>
    simp only [served, Finset.mem_filter, Finset.mem_univ, true_and] at member
    obtain ⟨rfl, here | here | here⟩ := member <;> simp only [Record.Fits, here] at fits <;>
      exact (fits (.listener _)).1 (by simp)

omit [DecidableEq ι] in
theorem Orderly.capped (orderly : Orderly limits arrivals s) : Capped limits arrivals s := by
  constructor
  case served => exact fun cap => (orderly.sound cap).card_le fun i => orderly.granted
  case counted => exact fun cap => (orderly.sound cap).count
  case refused =>
    intro i limit refused cap
    have fits := orderly.fits i
    simp only [Record.Fits, refused] at fits
    simp [Admission.places, (fits cap).2]
  case idle =>
    intro decided unserved cap
    have nobody : (s.places cap).holders = ∅ := by
      rw [Finset.eq_empty_iff_forall_notMem]
      intro i
      have here : i ∉ served arrivals s (.listener (arrivals.loop i)) := by
        rw [unserved]
        exact Finset.notMem_empty i
      simp only [served, Finset.mem_filter, Finset.mem_univ, true_and, not_or] at here
      have fits := orderly.fits i
      cases phase : (s.ledger i).phase with
      | admitting => exact absurd phase (decided i)
      | serving => exact absurd phase here.1
      | ended => exact absurd phase here.2.1
      | leaving => exact absurd phase here.2.2
      | coming | refused | closed =>
        simp only [Record.Fits, phase] at fits
        simp [Admission.places, (fits cap).2]
    have count := (orderly.sound cap).count
    rw [nobody] at count
    exact count

/-- At every moment the books are in order, and every loop does with its connections what it
    should. -/
theorem listening_sound {c : Crowd κ (Admission κ ι) Unit}
    (run : Crowd.Steps (TaskStep arrivals) (listening limits arrivals) c) :
    Orderly limits arrivals c.state ∧ ∀ loop, (c.threads loop).Obeys
      (.keeping (undecided arrivals loop)) (Moved limits arrivals loop) (fun _ => True)
      (fun _ s => Rests (undecided arrivals loop s)) c.state := by
  refine Crowd.sound ?_ ?_ (fun loop s s' moved => moved.orderly) orderly_new ?_ run
  · exact fun s s' step orderly => ⟨fun loop => step.elsewhere, step.orderly orderly⟩
  · exact fun loop other s s' differ moved => moved.elsewhere differ
  · intro loop
    refine owns_runListener (arrivals.queue loop) (arrivals.own loop) (arrivals.once loop) _ ?_ ?_ _
      rfl
    · intro i listed
      exact undecided_eq_some.mpr ⟨arrivals.own loop i listed, .inl rfl, rfl⟩
    · intro i record known
      rw [← (undecided_eq_some.mp known).2.2]
      rfl

theorem settled_of_returned {c : Crowd κ (Admission κ ι) Unit}
    (run : Crowd.Steps (TaskStep arrivals) (listening limits arrivals) c)
    (stopped : ∀ loop, c.threads loop = .ret ()) (i : ι) :
    (c.state.ledger i).phase ≠ .admitting := by
  intro admitting
  have ended := (listening_sound run).2 (arrivals.loop i)
  rw [stopped] at ended
  have known : undecided arrivals (arrivals.loop i) c.state i = some (c.state.ledger i) :=
    undecided_eq_some.mpr ⟨rfl, .inr admitting, rfl⟩
  have coming := ended.now i _ known
  rw [admitting] at coming
  cases coming

/-- However the accept loops and the tasks of the connections take their turns, the caps hold. -/
theorem connections_stay_under_caps (limits : Limits) (arrivals : Arrivals κ ι)
    {c : Crowd κ (Admission κ ι) Unit}
    (run : Crowd.Steps (TaskStep arrivals) (listening limits arrivals) c) :
    Capped limits arrivals c.state :=
  (listening_sound run).1.capped

/-! ## Two loops and one place -/

/-- Two loops, with a connection on each, under a cap of one. -/
def twoLoops : Arrivals (Fin 2) (Fin 2) where
  queue loop := [loop]
  loop i := i
  peer _ := .v4 0
  now _ := ⟨0, clockRange_pos⟩
  own _ _ listed := List.mem_singleton.mp listed
  once loop := List.nodup_singleton loop

/-- The first is served, the second refused. -/
theorem connections_stay_under_caps_twoLoops :
    ∃ c, Crowd.Steps (TaskStep twoLoops) (listening ⟨1, 1, none⟩ twoLoops) c ∧
      (c.state.ledger 0).phase = .serving ∧
      (c.state.ledger 1).phase = .refused .maxConnections ∧ Capped ⟨1, 1, none⟩ twoLoops c.state := by
  have first := Crowd.steps_run (TaskStep twoLoops) (listening ⟨1, 1, none⟩ twoLoops).threads
    (.new ⟨1, 1, none⟩) 0
  have both := first.trans (Crowd.steps_run (TaskStep twoLoops) _ _ 1)
  exact ⟨_, both, by decide +kernel, by decide +kernel,
    connections_stay_under_caps ⟨1, 1, none⟩ twoLoops both⟩

end

end

end Gfe.Accept
