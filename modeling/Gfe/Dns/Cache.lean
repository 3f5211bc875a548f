import Gfe.Config.Address
import Gfe.Lib.Crowd
import Gfe.RateLimiting.TokenBucket
import Gfe.Tls.CertStore

/-! # Answers kept for a while

A call looks into the cache, looks the name up if what it found is not fresh, and stores
the answer. Nothing is held in between, so what a call found may not be what is stored
when its lookup ends: the fallback of a failed lookup is what was found before it, and an
answer replaces whatever is there. A history of what the calls did says when this shows.
-/

namespace Gfe.Dns

open Interleaving

/-- One answer: the address, and when it was looked up. -/
structure Entry where
  address : SocketAddr
  lookedUp : Instant
  deriving DecidableEq, Repr

inductive LookupError where
  | resolver (error : IoError)
  /-- `NotFound`, `{host} has no address` -/
  | noAddress (host : Str)
  deriving DecidableEq, Repr

/-- A call of `address`, with the answer the resolver gives if it is asked. -/
structure Call where
  host : Str
  port : UInt16
  now : Instant
  answer : Except IoError (List SocketAddr)

def Call.key (call : Call) : Str × UInt16 := (call.host, call.port)

def Call.lookedUp (call : Call) : Except LookupError SocketAddr :=
  match call.answer with
  | .error error => .error (.resolver error)
  | .ok [] => .error (.noAddress call.host)
  | .ok (address :: _) => .ok address

/-- What a call did to the cache. -/
inductive Event (ι : Type) where
  | read (call : ι)
  | stored (call : ι) (entry : Entry)
  | failed (call : ι)
  deriving DecidableEq, Repr

structure Cache (ι : Type) where
  entries : HashMap (Str × UInt16) Entry
  /-- Latest first. -/
  history : List (Event ι)

variable {ι : Type}

def Cache.empty : Cache ι := ⟨∅, []⟩

namespace Cache

def read (i : ι) (key : Str × UInt16) (s : Cache ι) : Option Entry × Cache ι :=
  (s.entries.lookup key, { s with history := .read i :: s.history })

def store (i : ι) (key : Str × UInt16) (entry : Entry) (s : Cache ι) : Cache ι :=
  ⟨s.entries.insert key entry, .stored i entry :: s.history⟩

def fail (i : ι) (s : Cache ι) : Cache ι := { s with history := .failed i :: s.history }

end Cache

/-- `now.saturating_duration_since(entry.looked_up) < ttl` -/
def Entry.fresh (ttl : Nat) (now : Instant) (entry : Entry) : Bool :=
  decide (now.since entry.lookedUp < ttl)

/-- Once the lookup has ended. -/
def conclude (i : ι) (call : Call) (cached : Option Entry) :
    Program (Cache ι) (Except LookupError SocketAddr) :=
  match call.lookedUp, cached with
  | .ok address, _ => do
    .write (.store i call.key ⟨address, call.now⟩)
    return .ok address
  | .error _, some stale => return .ok stale.address
  | .error error, none => do
    .write (.fail i)
    return .error error

def address (ttl : Nat) (i : ι) (call : Call) :
    Program (Cache ι) (Except LookupError SocketAddr) :=
  match Address.parseIpAddr call.host with
  | some ip => return .ok ⟨ip, call.port⟩
  | none => do
    let cached ← .exchange (Cache.read i call.key)
    match cached.filter (·.fresh ttl call.now) with
    | some entry => return .ok entry.address
    -- nothing of the map is held while the resolver is asked
    | none => conclude i call cached

/-! ## The history -/

section

variable (calls : ι → Call) (ttl : Nat)

def lastStored (key : Str × UInt16) : List (Event ι) → Option Entry
  | [] => none
  | .stored i entry :: earlier =>
    if (calls i).key = key then some entry else lastStored key earlier
  | .read _ :: earlier | .failed _ :: earlier => lastStored key earlier

/-- No answer is stored for a key. -/
def Unstored (key : Str × UInt16) (history : List (Event ι)) : Prop :=
  ∀ i entry, .stored i entry ∈ history → (calls i).key ≠ key

/-- Why a call did what it did, by what it found before. -/
def Justified (earlier : List (Event ι)) : Event ι → Prop
  | .read _ => True
  | .stored i entry => entry.lookedUp = (calls i).now ∧ ∃ middle before,
      earlier = middle ++ .read i :: before ∧
        ∀ found ∈ lastStored calls (calls i).key before, found.fresh ttl (calls i).now = false
  | .failed i => ∃ middle before, earlier = middle ++ .read i :: before ∧
      lastStored calls (calls i).key before = none

/-- The cache has what was stored last. -/
def Agrees (s : Cache ι) : Prop :=
  ∀ key, s.entries.lookup key = lastStored calls key s.history

def Grounded (history : List (Event ι)) : Prop :=
  ∀ later event earlier, history = later ++ event :: earlier → Justified calls ttl earlier event

inductive Acted (i : ι) (s : Cache ι) : Cache ι → Prop where
  | reads : Acted i s (s.read i (calls i).key).2
  | stores (entry) : Justified calls ttl s.history (.stored i entry) →
      Acted i s (s.store i (calls i).key entry)
  | fails : Justified calls ttl s.history (.failed i) → Acted i s (s.fail i)

end

section

variable {calls : ι → Call} {ttl : Nat} {key : Str × UInt16} {s s' : Cache ι} {i : ι}

theorem lastStored_append (later earlier : List (Event ι)) :
    lastStored calls key (later ++ earlier) =
      (lastStored calls key later).or (lastStored calls key earlier) := by
  induction later with
  | nil => rfl
  | cons event later ih =>
    cases event with
    | stored i entry =>
      simp only [List.cons_append, lastStored, ih]
      split <;> rfl
    | read i => exact ih
    | failed i => exact ih

theorem lastStored_eq_none {history : List (Event ι)} :
    lastStored calls key history = none ↔ Unstored calls key history := by
  induction history with
  | nil => simp [lastStored, Unstored]
  | cons event earlier ih =>
    have rest : Unstored calls key (event :: earlier) ↔
        (∀ i entry, .stored i entry = event → (calls i).key ≠ key) ∧
          Unstored calls key earlier := by
      simp only [Unstored, List.mem_cons, or_imp, forall_and]
    rw [rest, ← ih]
    cases event with
    | stored i entry =>
      by_cases same : (calls i).key = key <;> simp [lastStored, same]
    | read i => simp [lastStored]
    | failed i => simp [lastStored]

/-! ## What holds of every history -/

theorem Acted.agrees (acted : Acted calls ttl i s s') (agrees : Agrees calls s) :
    Agrees calls s' := by
  intro key
  cases acted with
  | reads => exact agrees key
  | stores entry justified =>
    change (s.entries.insert (calls i).key entry).lookup key = _
    rw [HashMap.lookup_insert, agrees key]
    by_cases same : key = (calls i).key
    · simp [Cache.store, lastStored, same]
    · simp [Cache.store, lastStored, same, Ne.symm same]
  | fails justified => exact agrees key

theorem Acted.grows (acted : Acted calls ttl i s s') :
    ∃ event, s'.history = event :: s.history ∧ Justified calls ttl s.history event := by
  cases acted with
  | reads => exact ⟨.read i, rfl, True.intro⟩
  | stores entry justified => exact ⟨.stored i entry, rfl, justified⟩
  | fails justified => exact ⟨.failed i, rfl, justified⟩

theorem Acted.grounded (acted : Acted calls ttl i s s') (grounded : Grounded calls ttl s.history) :
    Grounded calls ttl s'.history := by
  obtain ⟨event, more, justified⟩ := acted.grows
  intro later other earlier split
  rw [more] at split
  rcases List.cons_eq_append_iff.mp split with ⟨rfl, same⟩ | ⟨rest, rfl, same⟩
  · obtain ⟨rfl, rfl⟩ := List.cons.inj same
    exact justified
  · exact grounded rest other earlier same

/-- The cache and its history are in step, and every event has its reason. -/
structure Recorded (calls : ι → Call) (ttl : Nat) (s : Cache ι) : Prop where
  agrees : Agrees calls s
  grounded : Grounded calls ttl s.history

theorem recorded_empty : Recorded calls ttl (.empty : Cache ι) := by
  refine ⟨fun key => AList.lookup_empty key, ?_⟩
  intro later event earlier split
  cases later <;> cases split

theorem Acted.recorded (acted : Acted calls ttl i s s') (recorded : Recorded calls ttl s) :
    Recorded calls ttl s' :=
  ⟨acted.agrees recorded.agrees, acted.grounded recorded.grounded⟩

/-- Others only add to the history, and keep the cache in step with it. -/
def adding (calls : ι → Call) : Rely (Cache ι) where
  may s s' := (∃ more, s'.history = more ++ s.history) ∧ (Agrees calls s → Agrees calls s')
  refl _ := ⟨⟨[], rfl⟩, id⟩
  trans first second := by
    obtain ⟨⟨more, grown⟩, kept⟩ := first
    obtain ⟨⟨again, regrown⟩, still⟩ := second
    exact ⟨⟨again ++ more, by rw [regrown, grown, List.append_assoc]⟩, still ∘ kept⟩

theorem Acted.adding (acted : Acted calls ttl i s s') : (adding calls).may s s' := by
  obtain ⟨event, more, _⟩ := acted.grows
  exact ⟨⟨[event], more⟩, acted.agrees⟩

def Found (calls : ι → Call) (i : ι) (cached : Option Entry) (s : Cache ι) : Prop :=
  ∃ middle before, s.history = middle ++ .read i :: before ∧
    lastStored calls (calls i).key before = cached

theorem stable_found {cached : Option Entry} : (adding calls).Stable (Found calls i cached) := by
  rintro s s' ⟨⟨more, grown⟩, _⟩ ⟨middle, before, same, found⟩
  exact ⟨more ++ middle, before, by rw [grown, same, List.append_assoc], found⟩

theorem obeys_conclude {cached : Option Entry}
    (stale : ∀ entry ∈ cached, entry.fresh ttl (calls i).now = false)
    (found : Found calls i cached s) :
    (conclude i (calls i) cached).Obeys (adding calls) (Acted calls ttl i) (fun _ => True)
      (fun result s => ∀ error, result = .error error → .failed i ∈ s.history) s := by
  unfold conclude
  split
  · apply Program.Obeys.bind
    apply Program.Obeys.write
    intro t moved
    obtain ⟨middle, before, same, last⟩ := stable_found s t moved found
    refine ⟨True.intro, .stores _ ⟨rfl, middle, before, same, ?_⟩, fun _ _ => .ret nofun⟩
    rwa [last]
  · exact .ret nofun
  · apply Program.Obeys.bind
    apply Program.Obeys.write
    intro t moved
    refine ⟨True.intro, .fails (stable_found s t moved found), fun u later => ?_⟩
    refine .ret fun v last _ _ => ?_
    obtain ⟨⟨more, grown⟩, _⟩ := (adding calls).trans later last
    rw [grown]
    exact List.mem_append_right more List.mem_cons_self

theorem obeys_address (agrees : Agrees calls s) :
    (address ttl i (calls i)).Obeys (adding calls) (Acted calls ttl i) (fun _ => True)
      (fun result s => ∀ error, result = .error error → .failed i ∈ s.history) s := by
  unfold address
  split
  · exact .ret nofun
  · apply Program.Obeys.bind
    apply Program.Obeys.exchange
    intro t moved
    refine ⟨True.intro, .reads, fun u later => ?_⟩
    have found : Found calls i (t.entries.lookup (calls i).key) u := by
      refine stable_found _ u later ⟨[], t.history, rfl, ?_⟩
      exact (moved.2 agrees (calls i).key).symm
    dsimp only [Cache.read]
    split
    · exact .ret nofun
    · rename_i unfresh
      refine obeys_conclude ?_ found
      intro entry known
      rw [Option.filter_eq_none_iff] at unfresh
      simpa using unfresh entry known

/-! ## Calls beside each other -/

def asked (calls : ι → Call) (ttl : Nat) : Crowd ι (Cache ι) (Except LookupError SocketAddr) where
  threads i := address ttl i (calls i)
  state := .empty

/-- No answer for its name and port is stored between a call's look into the cache and its end. -/
def Undisturbed (calls : ι → Call) (history : List (Event ι)) : Prop :=
  ∀ i later ending middle before, history = later ++ ending :: (middle ++ .read i :: before) →
    (ending = .failed i ∨ ∃ entry, ending = .stored i entry) →
    Unstored calls (calls i).key middle

/-- A call fails only if no answer was stored when it did, and an answer never replaces one that was
    asked for as of a later time. -/
structure InOrder (calls : ι → Call) (c : Crowd ι (Cache ι) (Except LookupError SocketAddr)) :
    Prop where
  failed : ∀ i error, c.threads i = .ret (.error error) → ∃ later earlier,
    c.state.history = later ++ .failed i :: earlier ∧ Unstored calls (calls i).key earlier
  replaced : ∀ i j entry old later middle earlier,
    c.state.history = later ++ .stored i entry :: (middle ++ .stored j old :: earlier) →
    (calls j).key = (calls i).key → Unstored calls (calls i).key middle →
    (calls j).now ≤ (calls i).now

section

variable {history : List (Event ι)}

theorem unstored_of_failed (grounded : Grounded calls ttl history)
    (undisturbed : Undisturbed calls history) {later earlier : List (Event ι)}
    (split : history = later ++ .failed i :: earlier) : Unstored calls (calls i).key earlier := by
  obtain ⟨middle, before, rfl, none⟩ := grounded later (.failed i) earlier split
  have quiet := undisturbed i later (.failed i) middle before split (.inl rfl)
  have nothing : lastStored calls (calls i).key (middle ++ .read i :: before) = Option.none := by
    rw [lastStored_append, lastStored_eq_none.mpr quiet]
    exact none
  exact lastStored_eq_none.mp nothing

theorem now_le_of_replaced (positive : 0 < ttl) (grounded : Grounded calls ttl history)
    (undisturbed : Undisturbed calls history) {j : ι} {entry old : Entry}
    {later middle earlier : List (Event ι)}
    (split : history = later ++ .stored i entry :: (middle ++ .stored j old :: earlier))
    (same : (calls j).key = (calls i).key) (between : Unstored calls (calls i).key middle) :
    (calls j).now ≤ (calls i).now := by
  obtain ⟨_, unread, before, apart, stale⟩ := grounded later (.stored i entry) _ split
  have quiet := undisturbed i later (.stored i entry) unread before (apart ▸ split)
    (.inr ⟨entry, rfl⟩)
  -- the answer that is replaced is the one the call found
  have found : lastStored calls (calls i).key before = some old := by
    have whole : lastStored calls (calls i).key (middle ++ .stored j old :: earlier) = some old := by
      rw [lastStored_append, lastStored_eq_none.mpr between]
      simp [lastStored, same]
    rwa [apart, lastStored_append, lastStored_eq_none.mpr quiet] at whole
  have asked : old.lookedUp = (calls j).now := by
    have further : history = (later ++ .stored i entry :: middle) ++ .stored j old :: earlier := by
      rw [split, List.append_assoc, List.cons_append]
    exact (grounded _ _ _ further).1
  have expired := stale old found
  rw [Entry.fresh, decide_eq_false_iff_not, asked, Instant.since] at expired
  rw [Instant.le_def]
  omega

end

/-- However calls are interleaved, if no answer is stored for the name and port of a call while it
    looks them up, and answers are trusted for some time at all. -/
theorem address_in_order [DecidableEq ι] (calls : ι → Call) (ttl : Nat) (positive : 0 < ttl)
    {c : Crowd ι (Cache ι) (Except LookupError SocketAddr)}
    (run : Crowd.Steps (fun _ _ => False) (asked calls ttl) c)
    (undisturbed : Undisturbed calls c.state.history) : InOrder calls c := by
  have kept : Recorded calls ttl c.state ∧ ∀ i,
      (c.threads i).Obeys (adding calls) (Acted calls ttl i) (fun _ => True)
        (fun result s => ∀ error, result = .error error → .failed i ∈ s.history) c.state := by
    have new : Recorded calls ttl (.empty : Cache ι) := recorded_empty
    refine Crowd.sound (fun _ _ => False.elim) (fun _ _ _ _ _ acted => ?_)
      (fun _ _ _ acted => ?_) new (fun i => obeys_address new.agrees) run
    · exact acted.adding
    · exact acted.recorded
  constructor
  case failed =>
    intro i error ended
    have post := kept.2 i
    rw [ended] at post
    obtain ⟨earlier, later, split⟩ := List.append_of_mem (post _ ((adding calls).refl _) error rfl)
    exact ⟨earlier, later, split, unstored_of_failed kept.1.grounded undisturbed split⟩
  case replaced =>
    intro i j entry old later middle earlier split same between
    exact now_le_of_replaced positive kept.1.grounded undisturbed split same between

end

/-! ## A lookup that fails beside one that does not -/

/-- A call for `h:80` at time zero, answered like this. -/
def callWith (answer : Except IoError (List SocketAddr)) : Call :=
  ⟨['h'], 80, ⟨0, clockRange_pos⟩, answer⟩

/-- The first of two lookups of one name fails, the second does not. -/
def oneFails : Fin 2 → Call
  | 0 => callWith (.error .notFound)
  | 1 => callWith (.ok [⟨.v4 1, 80⟩])

/-- Two lookups of one name, the second at a later time, and one of another name. -/
def threeAsk : Option Bool → Call
  | some false => callWith (.ok [⟨.v4 1, 80⟩])
  | some true => { callWith (.ok [⟨.v4 2, 80⟩]) with now := ⟨1, by decide⟩ }
  | none => { callWith (.ok [⟨.v4 3, 80⟩]) with host := ['g'] }

/-- What comes of it, the latest first: the first answer is stored while the other name is looked up,
    and is replaced once it is too old to be trusted. -/
def threeHistory : List (Event (Option Bool)) :=
  [.stored (some true) ⟨⟨.v4 2, 80⟩, ⟨1, by decide⟩⟩, .stored none ⟨⟨.v4 3, 80⟩, ⟨0, by decide⟩⟩,
    .read (some true), .stored (some false) ⟨⟨.v4 1, 80⟩, ⟨0, by decide⟩⟩, .read none,
    .read (some false)]

theorem undisturbed_threeAsk : Undisturbed threeAsk threeHistory := by
  intro i later ending middle before split ends j entry listed same
  have keys : ∀ i j, (threeAsk j).key = (threeAsk i).key → (j = none ↔ i = none) := by decide
  replace same := keys i j same
  unfold threeHistory at split
  have size := congrArg List.length split
  rcases later with _ | ⟨_, _ | ⟨_, _ | ⟨_, _ | ⟨_, later⟩⟩⟩⟩ <;>
    rcases middle with _ | ⟨_, _ | ⟨_, _ | ⟨_, _ | ⟨_, _ | ⟨_, middle⟩⟩⟩⟩⟩ <;>
    simp at split listed size <;>
    grind

theorem address_in_order_replaced :
    ∃ c : Crowd (Option Bool) (Cache (Option Bool)) (Except LookupError SocketAddr),
      c.threads (some false) = .ret (.ok ⟨.v4 1, 80⟩) ∧ c.state.history = threeHistory ∧
      InOrder threeAsk c := by
  have first := Crowd.steps_advance (fun _ _ => False) (asked threeAsk 1).threads .empty (some false) 1
  have second := first.trans (Crowd.steps_advance (fun _ _ => False) _ _ none 1)
  have third := second.trans (Crowd.steps_run (fun _ _ => False) _ _ (some false))
  have fourth := third.trans (Crowd.steps_advance (fun _ _ => False) _ _ (some true) 1)
  have fifth := fourth.trans (Crowd.steps_run (fun _ _ => False) _ _ none)
  have last := fifth.trans (Crowd.steps_run (fun _ _ => False) _ _ (some true))
  exact ⟨_, rfl, rfl, address_in_order threeAsk 1 Nat.one_pos last undisturbed_threeAsk⟩

/-- Both find nothing, the second stores its answer, and then the first fails. -/
theorem address_fails_beside_answer :
    ∃ c : Crowd (Fin 2) (Cache (Fin 2)) (Except LookupError SocketAddr),
      Crowd.Steps (fun _ _ => False) (asked oneFails 1) c ∧
      c.threads 0 = .ret (.error (.resolver .notFound)) ∧
      c.state.entries.lookup (oneFails 0).key = some ⟨⟨.v4 1, 80⟩, ⟨0, by decide⟩⟩ ∧
      ¬ InOrder oneFails c := by
  have first := Crowd.steps_advance (fun _ _ => False) (asked oneFails 1).threads .empty 0 1
  have second := first.trans (Crowd.steps_advance (fun _ _ => False) _ _ 1 2)
  have third := second.trans (Crowd.steps_advance (fun _ _ => False) _ _ 0 1)
  refine ⟨_, third, rfl, by decide +kernel, ?_⟩
  intro inOrder
  obtain ⟨later, earlier, split, unstored⟩ := inOrder.failed 0 _ rfl
  have history : later ++ .failed 0 :: earlier =
      [.failed 0, .stored 1 ⟨⟨.v4 1, 80⟩, ⟨0, by decide⟩⟩, .read 1, .read 0] := split.symm
  have listed : .stored 1 ⟨⟨.v4 1, 80⟩, ⟨0, by decide⟩⟩ ∈ earlier := by
    cases later with
    | nil =>
      rw [List.nil_append] at history
      rw [(List.cons.inj history).2]
      exact List.mem_cons_self
    | cons event rest =>
      rw [List.cons_append, List.cons.injEq] at history
      have twice : Event.failed 0 ∈ rest ++ .failed 0 :: earlier := by simp
      rw [history.2] at twice
      simp at twice
  exact unstored 1 _ listed rfl

end Gfe.Dns
