import Gfe.Config.Types
import Gfe.Lib.HashMap

/-! # Listening sockets

A socket is known by the address it is configured on. What the caller attaches
to a listener sits in a cell that every connection accepted on it shares, so
replacing it is seen by connections that are already open; a socket is never
touched when its address stays.
-/

namespace Gfe

variable {running : RunningListener}

abbrev SocketId := Nat

/-- The shared cell of a listener. Its accept loop is started with it, so the
    cell also tells one accept loop from another. -/
abbrev CellId := Nat

structure RunningListener where
  cell : CellId
  socket : SocketId
  deriving DecidableEq, Repr

structure Listeners (τ : Type) where
  running : HashMap SocketAddr RunningListener
  /-- What is attached to each listener ever started. -/
  attached : CellId → Option τ
  nextCell : CellId
  /-- Sockets handed over, until the next commit. -/
  adopted : HashMap SocketAddr SocketId
  issued : ∀ address listener, running.lookup address = some listener → listener.cell < nextCell
  distinct : ∀ a b one two, running.lookup a = some one → running.lookup b = some two →
    one.cell = two.cell → a = b

/-- The first address named a second time. -/
def namedTwice : (named : List SocketAddr) → List SocketAddr → Option SocketAddr
  | _, [] => none
  | named, address :: rest =>
    if address ∈ named then some address else namedTwice (address :: named) rest

theorem nodup_of_namedTwice {named addresses : List SocketAddr}
    (once : namedTwice named addresses = none) :
    addresses.Nodup ∧ ∀ address ∈ addresses, address ∉ named := by
  induction addresses generalizing named with
  | nil => simp
  | cons address rest ih =>
    unfold namedTwice at once
    split at once
    · cases once
    · rename_i fresh
      obtain ⟨nodup, apart⟩ := ih once
      constructor
      · exact List.nodup_cons.mpr ⟨fun again => apart _ again List.mem_cons_self, nodup⟩
      · intro other member
        rcases List.mem_cons.mp member with rfl | member
        · exact fresh
        · exact fun seen => apart other member (List.mem_cons_of_mem _ seen)

theorem namedTwice_of_nodup {named addresses : List SocketAddr} (nodup : addresses.Nodup)
    (apart : ∀ address ∈ addresses, address ∉ named) : namedTwice named addresses = none := by
  induction addresses generalizing named with
  | nil => rfl
  | cons address rest ih =>
    obtain ⟨fresh, nodup⟩ := List.nodup_cons.mp nodup
    rw [namedTwice, if_neg (apart address List.mem_cons_self)]
    apply ih nodup
    intro other member seen
    rcases List.mem_cons.mp seen with rfl | seen
    · exact fresh member
    · exact apart other (List.mem_cons_of_mem _ member) seen

/-- Sockets got for a config that is not applied yet; no address is named
    twice. -/
structure Staged (τ : Type) where
  desired : List (SocketAddr × τ)
  bound : HashMap SocketAddr SocketId
  nodup : (desired.map Prod.fst).Nodup

namespace Listeners

variable {τ : Type}

theorem distinct_empty (a b : SocketAddr) (one two : RunningListener)
    (found : AList.lookup a (∅ : HashMap SocketAddr RunningListener) = some one) :
    AList.lookup b (∅ : HashMap SocketAddr RunningListener) = some two → one.cell = two.cell → a = b := by
  rw [AList.lookup_empty] at found
  cases found

def empty : Listeners τ where
  running := ∅
  attached _ := none
  nextCell := 0
  adopted := ∅
  issued address listener found := by
    rw [AList.lookup_empty] at found
    cases found
  distinct := distinct_empty

/-- Stop accepting on the sockets a config no longer names. -/
def retainNamed (listeners : Listeners τ) (desired : List (SocketAddr × τ)) : Listeners τ where
  running := listeners.running.retain fun address _ => (desired.map Prod.fst).contains address
  attached := listeners.attached
  nextCell := listeners.nextCell
  adopted := listeners.adopted
  issued address listener found := by
    rw [HashMap.lookup_retain] at found
    exact listeners.issued address listener (Option.filter_eq_some_iff.mp found).1
  distinct a b one two foundOne foundTwo := by
    rw [HashMap.lookup_retain] at foundOne foundTwo
    exact listeners.distinct a b one two (Option.filter_eq_some_iff.mp foundOne).1
      (Option.filter_eq_some_iff.mp foundTwo).1

/-- Start accepting on a socket, with a cell of its own. -/
def start (listeners : Listeners τ) (address : SocketAddr) (socket : SocketId) (value : τ) :
    Listeners τ where
  running := listeners.running.insert address ⟨listeners.nextCell, socket⟩
  attached := Function.update listeners.attached listeners.nextCell (some value)
  nextCell := listeners.nextCell + 1
  adopted := listeners.adopted
  issued other listener found := by
    rw [HashMap.lookup_insert] at found
    split at found
    · cases found
      exact Nat.lt_succ_self _
    · exact (listeners.issued other listener found).trans (Nat.lt_succ_self _)
  distinct a b one two foundOne foundTwo same := by
    rw [HashMap.lookup_insert] at foundOne foundTwo
    split at foundOne <;> split at foundTwo
    · rename_i atA atB
      rw [atA, atB]
    · cases foundOne
      exact absurd same (Nat.ne_of_gt (listeners.issued b two foundTwo))
    · cases foundTwo
      exact absurd same (Nat.ne_of_lt (listeners.issued a one foundOne))
    · exact listeners.distinct a b one two foundOne foundTwo same

/-- Replace what is attached to a listener that is kept, or start one on the
    socket bound for it. -/
def place (listeners : Listeners τ) (bound : HashMap SocketAddr SocketId) (address : SocketAddr)
    (value : τ) : Listeners τ :=
  match listeners.running.lookup address with
  | some kept =>
    { listeners with attached := Function.update listeners.attached kept.cell (some value) }
  | none =>
    match bound.lookup address with
    | none => listeners
    | some socket => listeners.start address socket value

def attachedAt (listeners : Listeners τ) (address : SocketAddr) : Option τ :=
  (listeners.running.lookup address).bind fun running => listeners.attached running.cell

theorem attached_place (listeners : Listeners τ) (bound : HashMap SocketAddr SocketId)
    (address : SocketAddr) (value : τ) (cell : CellId) :
    (listeners.place bound address value).attached cell = listeners.attached cell ∨
      ∃ running, (listeners.place bound address value).running.lookup address = some running ∧
        running.cell = cell := by
  unfold place
  cases kept : listeners.running.lookup address with
  | some running =>
    by_cases same : running.cell = cell
    · exact .inr ⟨running, kept, same⟩
    · exact .inl (Function.update_of_ne (Ne.symm same) ..)
  | none =>
    cases bound.lookup address with
    | none => exact .inl rfl
    | some socket =>
      by_cases same : listeners.nextCell = cell
      · exact .inr ⟨⟨listeners.nextCell, socket⟩, AList.lookup_insert _, same⟩
      · exact .inl (Function.update_of_ne (Ne.symm same) ..)

theorem place_other (listeners : Listeners τ) (bound : HashMap SocketAddr SocketId)
    {address other : SocketAddr} (value : τ) (differ : other ≠ address)
    (found : listeners.running.lookup other = some running) :
    (listeners.place bound address value).running.lookup other = some running ∧
      (listeners.place bound address value).attached running.cell =
        listeners.attached running.cell := by
  unfold place
  cases kept : listeners.running.lookup address with
  | some own =>
    refine ⟨found, Function.update_of_ne ?_ ..⟩
    intro same
    exact differ (listeners.distinct other address running own found kept same)
  | none =>
    cases bound.lookup address with
    | none => exact ⟨found, rfl⟩
    | some socket =>
      refine ⟨?_, Function.update_of_ne ?_ ..⟩
      · exact (AList.lookup_insert_ne differ).trans found
      · exact Nat.ne_of_lt (listeners.issued other running found)

theorem running_place (listeners : Listeners τ) (bound : HashMap SocketAddr SocketId)
    (address : SocketAddr) (value : τ) {other : SocketAddr}
    (found : listeners.running.lookup other = some running) :
    (listeners.place bound address value).running.lookup other = some running := by
  by_cases same : other = address
  · subst same
    simp [place, found]
  · exact (listeners.place_other bound value same found).1

/-! ## What is listened on -/

def socketAt (listeners : Listeners τ) (address : SocketAddr) : Option SocketId :=
  (listeners.running.lookup address).map RunningListener.socket

theorem socketAt_retainNamed (listeners : Listeners τ) (desired : List (SocketAddr × τ))
    (address : SocketAddr) :
    (listeners.retainNamed desired).socketAt address =
      if address ∈ desired.map Prod.fst then listeners.socketAt address else none := by
  simp only [socketAt, retainNamed, HashMap.lookup_retain, List.contains_eq_mem]
  by_cases named : address ∈ desired.map Prod.fst
  · simp only [named, decide_true, if_true]
    cases listeners.running.lookup address <;> rfl
  · simp only [named, decide_false, if_false]
    cases listeners.running.lookup address <;> rfl

theorem attachedAt_retainNamed (listeners : Listeners τ) (desired : List (SocketAddr × τ))
    (address : SocketAddr) :
    (listeners.retainNamed desired).attachedAt address =
      if address ∈ desired.map Prod.fst then listeners.attachedAt address else none := by
  simp only [attachedAt, retainNamed, HashMap.lookup_retain, List.contains_eq_mem]
  by_cases named : address ∈ desired.map Prod.fst
  · simp only [named, decide_true, if_true]
    cases listeners.running.lookup address <;> rfl
  · simp only [named, decide_false, if_false]
    cases listeners.running.lookup address <;> rfl

theorem socketAt_place (listeners : Listeners τ) (bound : HashMap SocketAddr SocketId)
    (address : SocketAddr) (value : τ) (other : SocketAddr) :
    (listeners.place bound address value).socketAt other =
      if other = address then (listeners.socketAt other).or (bound.lookup other)
      else listeners.socketAt other := by
  unfold place
  cases kept : listeners.running.lookup address with
  | some running =>
    by_cases same : other = address
    · subst same
      simp [socketAt, kept]
    · simp [socketAt, same]
  | none =>
    cases got : bound.lookup address with
    | none =>
      by_cases same : other = address
      · subst same
        simp [got]
      · simp [same]
    | some socket =>
      simp only [socketAt, start, HashMap.lookup_insert]
      by_cases same : other = address
      · subst same
        simp [kept, got]
      · simp [same]

theorem attachedAt_place (listeners : Listeners τ) (bound : HashMap SocketAddr SocketId)
    (address : SocketAddr) (value : τ) (other : SocketAddr) :
    (listeners.place bound address value).attachedAt other =
      if other = address then
        ((listeners.socketAt address).or (bound.lookup address)).map fun _ => value
      else listeners.attachedAt other := by
  by_cases same : other = address
  · subst same
    simp only [if_true, place, attachedAt, socketAt]
    cases kept : listeners.running.lookup other with
    | some running => simp [kept]
    | none =>
      cases got : bound.lookup other with
      | none => simp [kept]
      | some socket => simp [start]
  · rw [if_neg same]
    cases found : listeners.running.lookup other with
    | some running =>
      obtain ⟨kept, attached⟩ := listeners.place_other bound value same found
      simp only [attachedAt, kept, found, Option.bind_some, attached]
    | none =>
      have missing : (listeners.place bound address value).running.lookup other = none := by
        have sockets := listeners.socketAt_place bound address value other
        simpa [socketAt, same, found] using sockets
      simp only [attachedAt, missing, found, Option.bind_none]

/-- Place the listeners of a config one after the other. -/
def placeEach (listeners : Listeners τ) (bound : HashMap SocketAddr SocketId)
    (desired : List (SocketAddr × τ)) : Listeners τ :=
  desired.foldl (fun listeners entry => listeners.place bound entry.1 entry.2) listeners

theorem socketAt_placeEach (listeners : Listeners τ) (bound : HashMap SocketAddr SocketId)
    (desired : List (SocketAddr × τ)) (address : SocketAddr) :
    (listeners.placeEach bound desired).socketAt address =
      if address ∈ desired.map Prod.fst then (listeners.socketAt address).or (bound.lookup address)
      else listeners.socketAt address := by
  unfold placeEach
  induction desired generalizing listeners with
  | nil => rfl
  | cons entry rest ih =>
    rw [List.foldl_cons, ih, socketAt_place]
    by_cases same : address = entry.1
    · subst same
      simp [Option.or_assoc]
    · simp only [same, if_false, List.map_cons, List.mem_cons, false_or]

theorem attachedAt_placeEach (listeners : Listeners τ) (bound : HashMap SocketAddr SocketId)
    (desired : List (SocketAddr × τ)) (nodup : (desired.map Prod.fst).Nodup)
    (address : SocketAddr) :
    (listeners.placeEach bound desired).attachedAt address =
      match desired.find? (·.1 = address) with
      | some entry => ((listeners.socketAt address).or (bound.lookup address)).map fun _ => entry.2
      | none => listeners.attachedAt address := by
  unfold placeEach
  induction desired generalizing listeners with
  | nil => rfl
  | cons entry rest ih =>
    obtain ⟨fresh, nodup⟩ := List.nodup_cons.mp nodup
    rw [List.foldl_cons, ih _ nodup, List.find?_cons, attachedAt_place, socketAt_place]
    by_cases same : entry.1 = address
    · subst same
      have missing : rest.find? (·.1 = entry.1) = none := by
        simp only [List.find?_eq_none, decide_eq_true_eq]
        exact fun other member same => fresh (same ▸ List.mem_map_of_mem member)
      simp [missing]
    · simp [same, Ne.symm same]

theorem running_placeEach (listeners : Listeners τ) (bound : HashMap SocketAddr SocketId)
    (desired : List (SocketAddr × τ)) {address : SocketAddr}
    (found : listeners.running.lookup address = some running) :
    (listeners.placeEach bound desired).running.lookup address = some running := by
  unfold placeEach
  induction desired generalizing listeners with
  | nil => exact found
  | cons entry rest ih => exact ih _ (listeners.running_place bound entry.1 entry.2 found)

/-- The sockets after a commit: those that are kept, and those bound for the
    rest. -/
theorem socketAt_committed (listeners : Listeners τ) (bound : HashMap SocketAddr SocketId)
    (desired : List (SocketAddr × τ)) (address : SocketAddr) :
    ((listeners.retainNamed desired).placeEach bound desired).socketAt address =
      if address ∈ desired.map Prod.fst then (listeners.socketAt address).or (bound.lookup address)
      else none := by
  rw [socketAt_placeEach, socketAt_retainNamed]
  split <;> rfl

/-- After a commit that has a socket for each of its addresses, what is attached
    is what the config names. -/
theorem attachedAt_committed (listeners : Listeners τ) (bound : HashMap SocketAddr SocketId)
    (desired : List (SocketAddr × τ)) (nodup : (desired.map Prod.fst).Nodup)
    (sockets : ∀ address ∈ desired.map Prod.fst, ∃ socket,
      (listeners.socketAt address).or (bound.lookup address) = some socket)
    (address : SocketAddr) :
    ((listeners.retainNamed desired).placeEach bound desired).attachedAt address =
      (desired.find? (·.1 = address)).map Prod.snd := by
  rw [attachedAt_placeEach _ _ _ nodup]
  cases found : desired.find? (·.1 = address) with
  | some entry =>
    have same := List.find?_some found
    have member : address ∈ desired.map Prod.fst :=
      List.mem_map.mpr ⟨entry, List.mem_of_find?_eq_some found, by simpa using same⟩
    obtain ⟨socket, got⟩ := sockets address member
    rw [socketAt_retainNamed, if_pos member, got]
    rfl
  | none =>
    have missing : address ∉ desired.map Prod.fst := by
      intro member
      obtain ⟨entry, listed, same⟩ := List.mem_map.mp member
      exact absurd (decide_eq_true same) (List.find?_eq_none.mp found entry listed)
    rw [attachedAt_retainNamed, if_neg missing]
    rfl

theorem erase_adopted_of_settled {listeners : Listeners τ} (settled : listeners.adopted = ∅)
    (address : SocketAddr) :
    { listeners with adopted := listeners.adopted.erase address } = listeners := by
  obtain ⟨running, attached, nextCell, adopted, issued, distinct⟩ := listeners
  cases settled
  rfl

end Listeners

end Gfe
