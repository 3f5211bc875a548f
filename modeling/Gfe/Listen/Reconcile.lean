import Gfe.Lib.Custody
import Gfe.Reload.Outcome

/-! # Reconciling a set of listeners, call after call

Sockets are handed to the set, got for a config that is staged, and put to use or
closed when it is committed. A socket is owned, so it is in one place at a time:
what happens to it over any number of calls is a matter of where it is moved.
-/

namespace Gfe

open Interleaving

variable {desired : List (SocketAddr × Listener)} {address : SocketAddr}

/-- `adopt`: hand over sockets that are listening already. -/
def Listeners.adopt {τ : Type} (listeners : Listeners τ) (sockets : List (SocketAddr × SocketId)) :
    Listeners τ :=
  { listeners with
    adopted := sockets.foldl (fun adopted entry => adopted.insert entry.1 entry.2) listeners.adopted }

/-- A config that is staged, and the world it was staged in. -/
structure Pending where
  staged : Staged Listener
  since : World

/-- A set of listeners, with the config that is being reconciled. -/
structure ListenerSet where
  world : World
  pending : Option Pending

/-! ## Where sockets are -/

inductive SocketPlace where
  | running (address : SocketAddr)
  | adopted (address : SocketAddr)
  | staged (address : SocketAddr)
  deriving DecidableEq

def Listeners.sockets {τ : Type} (listeners : Listeners τ) (bound : HashMap SocketAddr SocketId) :
    SocketPlace → Option SocketId
  | .running address => listeners.socketAt address
  | .adopted address => listeners.adopted.lookup address
  | .staged address => bound.lookup address

namespace ListenerSet

/-- The sockets got for the config that is staged. -/
def bound (s : ListenerSet) : HashMap SocketAddr SocketId :=
  match s.pending with
  | some pending => pending.staged.bound
  | none => ∅

def held (s : ListenerSet) : SocketPlace → Option SocketId :=
  s.world.node.listeners.sockets s.bound

abbrev listeners (s : ListenerSet) : Listeners Listener := s.world.node.listeners

/-! ## Calls -/

/-- What is done with a set. -/
inductive Call where
  | other
  | adopt (sockets : List (SocketAddr × SocketId))
  | stage (desired : List (SocketAddr × Listener))
  | drop
  | commit

/-- One reconcile at a time: nothing is staged while a config is. -/
inductive Step : Call → ListenerSet → ListenerSet → Prop where
  /-- The process does something else, and what comes of binding changes. -/
  | other {w w' pending} : w'.node.listeners = w.node.listeners →
      w.host.nextSocket ≤ w'.host.nextSocket → Step .other ⟨w, pending⟩ ⟨w', pending⟩
  /-- What is handed over is not in the set already. -/
  | adopt {s : ListenerSet} {sockets} : (sockets.map Prod.snd).Nodup →
      (∀ socket ∈ sockets.map Prod.snd, socket < s.world.host.nextSocket ∧
        ∀ place, s.held place ≠ some socket) →
      Step (.adopt sockets) s
        ⟨s.world.setNode fun n => { n with listeners := n.listeners.adopt sockets }, s.pending⟩
  | staged {w w' desired staged} :
      Fallible.exec (Listeners.stage desired) w = (.ok staged, w') →
      Step (.stage desired) ⟨w, none⟩ ⟨w', some ⟨staged, w⟩⟩
  | failed {w w' desired error} :
      Fallible.exec (Listeners.stage desired) w = (.error error, w') →
      Step (.stage desired) ⟨w, none⟩ ⟨w', none⟩
  | drop {w pending} : Step .drop ⟨w, some pending⟩ ⟨w, none⟩
  | commit {w pending} : Step .commit ⟨w, some pending⟩
      ⟨((Listeners.commit pending.staged).run w).2, none⟩

def Runs : ListenerSet → ListenerSet → Prop :=
  Relation.ReflTransGen fun s s' => ∃ call, Step call s s'

end ListenerSet

/-! ## Staging -/

section Staging

variable {w w' : World} {running : HashMap SocketAddr RunningListener}
  {bound bound' : HashMap SocketAddr SocketId} {address : SocketAddr} {addresses : List SocketAddr}

/-- What a socket that was got for an address is: the adopted one, or a new one. -/
def GotFor (w : World) (address : SocketAddr) (socket : SocketId) : Prop :=
  w.node.listeners.adopted.lookup address = some socket ∨
    w.node.listeners.adopted.lookup address = none ∧ w.host.nextSocket ≤ socket

theorem custody_take {socket : SocketId} {next : Nat}
    (custody : Custody (w.node.listeners.sockets bound) next)
    (adopted : w.node.listeners.adopted.lookup address = some socket) :
    Custody ((w.take address).node.listeners.sockets (bound.insert address socket)) next := by
  apply custody.moved (fun place => if place = .staged address then .adopted address else place) _ _
    le_rfl
  · intro place k here
    cases place with
    | running other => exact here
    | adopted other =>
      simp only [Listeners.sockets, World.take, World.setNode_node, HashMap.lookup_erase] at here
      split at here
      · cases here
      · exact here
    | staged other =>
      simp only [Listeners.sockets, HashMap.lookup_insert] at here
      by_cases same : other = address
      · simp only [same, if_true, Option.some.injEq] at here
        simpa [Listeners.sockets, same, here] using adopted
      · simpa [Listeners.sockets, same] using here
  · -- the place it was taken from is empty
    have empty : (w.take address).node.listeners.sockets (bound.insert address socket)
        (.adopted address) = none := by
      simp [Listeners.sockets, World.take]
    intro p q k here there same
    by_cases atP : p = .staged address
    · by_cases atQ : q = .staged address
      · exact atP.trans atQ.symm
      · simp only [atP, atQ, if_true, if_false] at same
        rw [← same, empty] at there
        cases there
    · by_cases atQ : q = .staged address
      · simp only [atP, atQ, if_true, if_false] at same
        rw [same, empty] at here
        cases here
      · simpa only [atP, atQ, if_false] using same

theorem custody_discard (address : SocketAddr) {next : Nat} (custody : Custody (w.node.listeners.sockets bound) next) :
    Custody ((w.take address).node.listeners.sockets bound) next := by
  apply custody.narrow _ le_rfl
  intro place k here
  cases place with
  | running other => exact here
  | staged other => exact here
  | adopted other =>
    simp only [Listeners.sockets, World.take, World.setNode_node, HashMap.lookup_erase] at here
    split at here
    · cases here
    · exact here

theorem sockets_insert {τ : Type} (listeners : Listeners τ) (socket : SocketId) :
    listeners.sockets (bound.insert address socket) =
      Function.update (listeners.sockets bound) (.staged address) (some socket) := by
  funext place
  cases place with
  | running | adopted => simp [Listeners.sockets]
  | staged other =>
    by_cases same : other = address
    · subst same
      simp [Listeners.sockets]
    · simp [Listeners.sockets, same]

theorem getSocket_ok {socket : SocketId}
    (ended : Fallible.exec (Listeners.getSocket address) w = (.ok socket, w'))
    (custody : Custody (w.node.listeners.sockets bound) w.host.nextSocket) :
    Custody (w'.node.listeners.sockets (bound.insert address socket)) w'.host.nextSocket ∧
      GotFor w address socket ∧ w.host.nextSocket ≤ w'.host.nextSocket ∧
      w'.node.listeners.adopted = w.node.listeners.adopted.erase address := by
  rw [exec_getSocket] at ended
  split at ended
  · rename_i found
    split at ended
    · cases ended
    · cases ended
      exact ⟨custody_take custody found, .inl found, le_rfl, rfl⟩
  · rename_i missing
    split at ended
    · cases ended
    · cases ended
      refine ⟨?_, .inr ⟨missing, le_rfl⟩, Nat.le_succ _, rfl⟩
      rw [sockets_insert]
      exact (custody_discard address custody).create _

theorem getSocket_error {error : StageError}
    (ended : Fallible.exec (Listeners.getSocket address) w = (.error error, w')) :
    w' = w.take address := by
  rw [exec_getSocket] at ended
  split at ended
  · split at ended
    · cases ended
      rfl
    · cases ended
  · split at ended
    · cases ended
      rfl
    · cases ended

/-- What is known of the sockets once those of a config were asked for. -/
theorem getSockets_ok (running : HashMap SocketAddr RunningListener) (nodup : addresses.Nodup)
    (ended : Fallible.exec (Listeners.getSockets running bound addresses) w = (.ok bound', w'))
    (custody : Custody (w.node.listeners.sockets bound) w.host.nextSocket) :
    Custody (w'.node.listeners.sockets bound') w'.host.nextSocket ∧
      w.host.nextSocket ≤ w'.host.nextSocket ∧
      ∀ address, if address ∈ addresses ∧ running.lookup address = none then
          ∃ socket, bound'.lookup address = some socket ∧ GotFor w address socket
        else bound'.lookup address = bound.lookup address := by
  induction addresses generalizing bound w with
  | nil =>
    cases ended
    exact ⟨custody, le_rfl, fun address => by simp⟩
  | cons first rest ih =>
    obtain ⟨unique, nodup⟩ := List.nodup_cons.mp nodup
    unfold Listeners.getSockets at ended
    cases kept : running.lookup first with
    | some listener =>
      simp only [kept, Option.isSome_some, if_true] at ended
      obtain ⟨custody, later, got⟩ := ih nodup ended custody
      refine ⟨custody, later, fun address => ?_⟩
      have here := got address
      by_cases same : address = first
      · subst same
        simpa [kept] using here
      · simpa [same] using here
    | none =>
      simp only [kept, Option.isSome_none, Bool.false_eq_true, if_false] at ended
      cases tried : Fallible.exec (Listeners.getSocket first) w with
      | mk result w₁ =>
        cases result with
        | error error =>
          rw [Fallible.exec_bind_error tried] at ended
          cases ended
        | ok socket =>
          rw [Fallible.exec_bind_ok tried] at ended
          obtain ⟨custody₁, gotFirst, later₁, adopted⟩ := getSocket_ok tried custody
          obtain ⟨custody, later, got⟩ := ih nodup ended custody₁
          refine ⟨custody, later₁.trans later, fun address => ?_⟩
          have here := got address
          by_cases same : address = first
          · subst same
            simp only [unique, false_and, if_false, HashMap.lookup_insert, if_true] at here
            simp only [List.mem_cons, true_or, kept, and_self, if_true]
            exact ⟨socket, here, gotFirst⟩
          · simp only [List.mem_cons, same, false_or, HashMap.lookup_insert,
              if_false] at here ⊢
            split at here
            · rename_i wanted
              rw [if_pos wanted]
              obtain ⟨socket, found, gotHere⟩ := here
              refine ⟨socket, found, ?_⟩
              simp only [GotFor, adopted, HashMap.lookup_erase, same, if_false] at gotHere ⊢
              cases gotHere with
              | inl old => exact .inl old
              | inr new => exact .inr ⟨new.1, later₁.trans new.2⟩
            · rename_i unwanted
              rw [if_neg unwanted]
              exact here

/-- Sockets that were got before the first that cannot be had are closed. -/
theorem getSockets_error (running : HashMap SocketAddr RunningListener) {error : StageError}
    (ended : Fallible.exec (Listeners.getSockets running bound addresses) w = (.error error, w'))
    (custody : Custody (w.node.listeners.sockets bound) w.host.nextSocket) :
    Custody (w'.node.listeners.sockets ∅) w'.host.nextSocket := by
  induction addresses generalizing bound w with
  | nil => cases ended
  | cons first rest ih =>
    unfold Listeners.getSockets at ended
    split at ended
    · exact ih ended custody
    · cases tried : Fallible.exec (Listeners.getSocket first) w with
      | mk result w₁ =>
        cases result with
        | ok socket =>
          rw [Fallible.exec_bind_ok tried] at ended
          exact ih ended (getSocket_ok tried custody).1
        | error error =>
          rw [Fallible.exec_bind_error tried] at ended
          cases ended
          rw [getSocket_error tried]
          apply (custody_discard first custody).narrow _ le_rfl
          intro place k here
          cases place with
          | running | adopted => exact here
          | staged other => simp [Listeners.sockets] at here

theorem listening_of_staging {w w' : World} (moved : Relation.ReflTransGen Staging w w') :
    w'.node.listeners.running = w.node.listeners.running ∧
      w'.node.listeners.attached = w.node.listeners.attached := by
  induction moved with
  | refl => exact ⟨rfl, rfl⟩
  | tail _ last ih => cases last <;> exact ih

theorem moves_stageListeners (desired : List (SocketAddr × Listener)) :
    Fallible.Moves Staging (Listeners.stage desired) := by
  unfold Listeners.stage
  split
  · exact .throw _
  · exact .bind (.lift (.read (fun _ => .idle) _)) fun _ =>
      .bind (moves_getSockets _ _ _) fun _ => .pure _

theorem exec_stageListeners (desired : List (SocketAddr × Listener)) (w : World) :
    (∃ error, Fallible.exec (Listeners.stage desired) w = (.error error, w)) ∨
      ∃ nodup, Fallible.exec (Listeners.stage desired) w =
        match Fallible.exec (Listeners.getSockets w.node.listeners.running ∅
            (desired.map Prod.fst)) w with
        | (.ok bound, w') => (.ok ⟨desired, bound, nodup⟩, w')
        | (.error error, w') => (.error error, w') := by
  unfold Listeners.stage
  split
  · exact .inl ⟨_, rfl⟩
  · rename_i once
    refine .inr ⟨(nodup_of_namedTwice once).1, ?_⟩
    have read : (readNode fun n => n.listeners.running).run w = (w.node.listeners.running, w) := rfl
    rw [Fallible.exec_bind_ok (Fallible.exec_lift _ w), read, Fallible.exec_bind]
    generalize Fallible.exec (Listeners.getSockets w.node.listeners.running ∅ _) w = ended
    obtain ⟨result, w'⟩ := ended
    cases result <;> rfl

theorem stage_ok {staged : Staged Listener}
    (ended : Fallible.exec (Listeners.stage desired) w = (.ok staged, w')) :
    staged.desired = desired ∧
      Fallible.exec (Listeners.getSockets w.node.listeners.running ∅ (desired.map Prod.fst)) w =
        (.ok staged.bound, w') := by
  cases exec_stageListeners desired w with
  | inl refused =>
    obtain ⟨error, refused⟩ := refused
    rw [refused] at ended
    cases ended
  | inr asked =>
    obtain ⟨nodup, asked⟩ := asked
    rw [asked] at ended
    generalize Fallible.exec (Listeners.getSockets w.node.listeners.running ∅ _) w = result
      at ended ⊢
    obtain ⟨result, _⟩ := result
    cases result <;> cases ended
    exact ⟨rfl, rfl⟩

theorem stage_error {error : StageError}
    (ended : Fallible.exec (Listeners.stage desired) w = (.error error, w'))
    (custody : Custody (w.node.listeners.sockets ∅) w.host.nextSocket) :
    Custody (w'.node.listeners.sockets ∅) w'.host.nextSocket := by
  cases exec_stageListeners desired w with
  | inl refused =>
    obtain ⟨error, refused⟩ := refused
    rw [refused] at ended
    cases ended
    exact custody
  | inr asked =>
    obtain ⟨nodup, asked⟩ := asked
    rw [asked] at ended
    cases tried : Fallible.exec (Listeners.getSockets w.node.listeners.running ∅
        (desired.map Prod.fst)) w with
    | mk result _ =>
      rw [tried] at ended
      cases result <;> cases ended
      exact getSockets_error _ tried custody

end Staging

/-! ## Every sequence of calls -/

namespace ListenerSet

/-- What a config that is staged has, since the world it was staged in. -/
structure Prepared (s : ListenerSet) (pending : Pending) : Prop where
  custody : Custody (pending.since.node.listeners.sockets ∅) pending.since.host.nextSocket
  running : s.listeners.running = pending.since.node.listeners.running
  bound : ∀ address, if address ∈ pending.staged.desired.map Prod.fst ∧
      s.listeners.running.lookup address = none then
        ∃ socket, pending.staged.bound.lookup address = some socket ∧
          GotFor pending.since address socket
      else pending.staged.bound.lookup address = none

/-- What holds after any number of calls. -/
structure Sound (s : ListenerSet) : Prop where
  custody : Custody s.held s.world.host.nextSocket
  prepared : ∀ pending, s.pending = some pending → s.Prepared pending

variable {call : Call} {s s' : ListenerSet} {w : World} {pending : Pending}

theorem sound_idle (custody : Custody (w.node.listeners.sockets ∅) w.host.nextSocket) :
    Sound ⟨w, none⟩ := by
  refine ⟨custody, ?_⟩
  intro pending there
  cases there

theorem custody_adopt {listeners : Listeners Listener} {bound : HashMap SocketAddr SocketId}
    {next : Nat} {sockets : List (SocketAddr × SocketId)}
    (custody : Custody (listeners.sockets bound) next) (nodup : (sockets.map Prod.snd).Nodup)
    (new : ∀ socket ∈ sockets.map Prod.snd, socket < next ∧
      ∀ place, listeners.sockets bound place ≠ some socket) :
    Custody ((listeners.adopt sockets).sockets bound) next := by
  induction sockets generalizing listeners with
  | nil => exact custody
  | cons entry rest ih =>
    obtain ⟨unique, nodup⟩ := List.nodup_cons.mp nodup
    have inserted : Listeners.sockets { listeners with
          adopted := listeners.adopted.insert entry.1 entry.2 } bound =
        Function.update (listeners.sockets bound) (.adopted entry.1) (some entry.2) := by
      funext place
      cases place with
      | running other => simp [Listeners.sockets, Listeners.socketAt]
      | staged other => simp [Listeners.sockets]
      | adopted other =>
        by_cases same : other = entry.1
        · subst same
          simp [Listeners.sockets]
        · simp [Listeners.sockets, same]
    obtain ⟨known, unheld⟩ := new entry.2 List.mem_cons_self
    have first : Custody (Listeners.sockets { listeners with
        adopted := listeners.adopted.insert entry.1 entry.2 } bound) next := by
      rw [inserted]
      exact custody.put _ unheld known le_rfl
    apply ih first nodup
    intro socket member
    obtain ⟨known, unheld⟩ := new socket (List.mem_cons_of_mem _ member)
    refine ⟨known, fun place => ?_⟩
    rw [inserted]
    by_cases same : place = .adopted entry.1
    · subst same
      simp only [Function.update_self, ne_eq, Option.some.injEq]
      exact fun same => unique (same ▸ member)
    · rw [Function.update_of_ne same]
      exact unheld place

/-! ### Committing -/

theorem listeners_commit (staged : Staged Listener) (w : World) :
    ((Listeners.commit staged).run w).2 = w.setNode fun n => { n with
      listeners := { (n.listeners.retainNamed staged.desired).placeEach staged.bound
        staged.desired with adopted := ∅ } } := by
  simp only [Listeners.commit, Program.run_bind, run_placeAll]
  rfl

theorem socketAt_commit (staged : Staged Listener) (w : World) (address : SocketAddr) :
    ((Listeners.commit staged).run w).2.node.listeners.socketAt address =
      if address ∈ staged.desired.map Prod.fst then
        (w.node.listeners.socketAt address).or (staged.bound.lookup address)
      else none := by
  rw [listeners_commit]
  exact Listeners.socketAt_committed ..

theorem Prepared.gets (prepared : Prepared ⟨w, some pending⟩ pending)
    (named : address ∈ pending.staged.desired.map Prod.fst)
    (missing : w.node.listeners.running.lookup address = none) :
    ∃ socket, pending.staged.bound.lookup address = some socket ∧
      GotFor pending.since address socket := by
  have bound := prepared.bound address
  rwa [if_pos ⟨named, missing⟩] at bound

theorem Prepared.socket (prepared : Prepared ⟨w, some pending⟩ pending)
    (named : address ∈ pending.staged.desired.map Prod.fst) :
    ∃ socket, (w.node.listeners.socketAt address).or (pending.staged.bound.lookup address) =
      some socket := by
  cases kept : w.node.listeners.running.lookup address with
  | some listener => exact ⟨listener.socket, by simp [Listeners.socketAt, kept]⟩
  | none =>
    obtain ⟨socket, found, _⟩ := prepared.gets named kept
    exact ⟨socket, by simp [Listeners.socketAt, kept, found]⟩

theorem Prepared.socketAt_new (prepared : Prepared ⟨w, some pending⟩ pending)
    (named : address ∈ pending.staged.desired.map Prod.fst)
    (missing : w.node.listeners.running.lookup address = none) :
    ∃ socket, ((Listeners.commit pending.staged).run w).2.node.listeners.socketAt address =
      some socket ∧ GotFor pending.since address socket := by
  obtain ⟨socket, found, got⟩ := prepared.gets named missing
  have idle : w.node.listeners.socketAt address = none := by simp [Listeners.socketAt, missing]
  refine ⟨socket, ?_, got⟩
  rw [socketAt_commit, if_pos named, idle, Option.none_or, found]

theorem Sound.running_not_adopted (sound : Sound ⟨w, some pending⟩) {address other : SocketAddr}
    {socket : SocketId} (own : w.node.listeners.socketAt other = some socket)
    (adopted : pending.since.node.listeners.adopted.lookup address = some socket ∨
      w.node.listeners.adopted.lookup address = some socket) : False := by
  have prepared := sound.prepared pending rfl
  cases adopted with
  | inl old =>
    have before : pending.since.node.listeners.socketAt other = some socket := by
      rw [Listeners.socketAt, ← prepared.running]
      exact own
    cases prepared.custody.apart (.running other) (.adopted address) _ before old
  | inr new => cases sound.custody.apart (.running other) (.adopted address) _ own new

theorem Sound.staged_of_adopted (sound : Sound ⟨w, some pending⟩) {address other : SocketAddr}
    {socket : SocketId} (named : other ∈ pending.staged.desired.map Prod.fst)
    (missing : w.node.listeners.running.lookup other = none)
    (staged : pending.staged.bound.lookup other = some socket)
    (adopted : pending.since.node.listeners.adopted.lookup address = some socket ∨
      w.node.listeners.adopted.lookup address = some socket) :
    other = address ∧ pending.since.node.listeners.adopted.lookup address = some socket := by
  have prepared := sound.prepared pending rfl
  cases adopted with
  | inr new => cases sound.custody.apart (.staged other) (.adopted address) _ staged new
  | inl old =>
    obtain ⟨own, found, got⟩ := prepared.gets named missing
    rw [staged] at found
    cases found
    cases got with
    | inl same =>
      cases prepared.custody.apart (.adopted other) (.adopted address) _ same old
      exact ⟨rfl, old⟩
    | inr new =>
      -- one that is made has a number that was not given to any before
      have known := prepared.custody.issued (.adopted address) _ old
      exact absurd known (Nat.not_lt.mpr new.2)

/-- What a commit makes of a set: `before` it, since its config was staged. -/
structure Committed (before : ListenerSet) (pending : Pending) (after : ListenerSet) : Prop where
  /-- The addresses of the config are listened on, and no others, -/
  listening : ∀ address, (after.listeners.running.lookup address).isSome = true ↔
    address ∈ pending.staged.desired.map Prod.fst
  /-- each with what the config attaches to it. -/
  attached : ∀ address value, (address, value) ∈ pending.staged.desired →
    after.listeners.attachedAt address = some value
  /-- A listener that stays is the same, with its socket and its accept loop. -/
  kept : ∀ address ∈ pending.staged.desired.map Prod.fst, ∀ listener,
    before.listeners.running.lookup address = some listener →
      after.listeners.running.lookup address = some listener
  /-- One that is added has the socket that was adopted for its address, -/
  adopted : ∀ address ∈ pending.staged.desired.map Prod.fst,
    before.listeners.running.lookup address = none →
      ∀ socket, pending.since.node.listeners.adopted.lookup address = some socket →
        after.listeners.socketAt address = some socket
  /-- or one that was made for it. -/
  bound : ∀ address ∈ pending.staged.desired.map Prod.fst,
    before.listeners.running.lookup address = none →
      pending.since.node.listeners.adopted.lookup address = none →
        ∃ socket, after.listeners.socketAt address = some socket ∧
          pending.since.host.nextSocket ≤ socket
  /-- Of the sockets that were adopted, before the config was staged or since, only
      those are left. -/
  closed : ∀ address socket,
    pending.since.node.listeners.adopted.lookup address = some socket ∨
      before.listeners.adopted.lookup address = some socket →
    (∃ place, after.held place = some socket) →
      address ∈ pending.staged.desired.map Prod.fst ∧
        before.listeners.running.lookup address = none ∧
        pending.since.node.listeners.adopted.lookup address = some socket

theorem find?_of_nodup (nodup : (desired.map Prod.fst).Nodup)
    {value : Listener} (member : (address, value) ∈ desired) :
    desired.find? (·.1 = address) = some (address, value) := by
  cases found : desired.find? (·.1 = address) with
  | none => exact absurd (List.find?_eq_none.mp found _ member) (by simp)
  | some entry =>
    have same := List.find?_some found
    rw [List.inj_on_of_nodup_map nodup (List.mem_of_find?_eq_some found) member (by simpa using same)]

theorem Sound.committed (sound : Sound ⟨w, some pending⟩) :
    Committed ⟨w, some pending⟩ pending ⟨((Listeners.commit pending.staged).run w).2, none⟩ := by
  have prepared := sound.prepared pending rfl
  have sockets := socketAt_commit pending.staged w
  constructor
  · intro address
    have here := sockets address
    by_cases named : address ∈ pending.staged.desired.map Prod.fst
    · obtain ⟨socket, found⟩ := prepared.socket named
      rw [if_pos named, found] at here
      obtain ⟨listener, there, _⟩ := Option.map_eq_some_iff.mp here
      simp [listeners, there, named]
    · rw [if_neg named] at here
      have missing := Option.map_eq_none_iff.mp here
      simp [listeners, missing, named]
  · intro address value member
    have attached := Listeners.attachedAt_committed w.node.listeners pending.staged.bound
      pending.staged.desired pending.staged.nodup (fun _ named => prepared.socket named) address
    rw [find?_of_nodup pending.staged.nodup member] at attached
    simp only [listeners, listeners_commit]
    exact attached
  · intro address named listener found
    have retained : (w.node.listeners.retainNamed pending.staged.desired).running.lookup address =
        some listener := by
      rw [Listeners.retainNamed, HashMap.lookup_retain, found]
      simp [named]
    simp only [listeners, listeners_commit]
    exact Listeners.running_placeEach _ _ _ retained
  · intro address named missing socket adopted
    obtain ⟨got, here, gotFor⟩ := prepared.socketAt_new named missing
    cases gotFor with
    | inl old =>
      rw [adopted] at old
      cases old
      exact here
    | inr new => simp [adopted] at new
  · intro address named missing none
    obtain ⟨got, here, gotFor⟩ := prepared.socketAt_new named missing
    refine ⟨got, here, ?_⟩
    cases gotFor with
    | inl old => simp [none] at old
    | inr new => exact new.2
  · intro address socket adopted left
    obtain ⟨place, here⟩ := left
    cases place with
    | adopted other => simp [held, Listeners.sockets, listeners_commit] at here
    | staged other => simp [held, bound, Listeners.sockets] at here
    | running other =>
      have there : (if other ∈ pending.staged.desired.map Prod.fst then
          (w.node.listeners.socketAt other).or (pending.staged.bound.lookup other) else none) =
            some socket := (sockets other).symm.trans here
      split at there
      · rename_i named
        cases kept : w.node.listeners.socketAt other with
        | some own =>
          rw [kept] at there
          cases there
          exact (sound.running_not_adopted kept adopted).elim
        | none =>
          have missing := Option.map_eq_none_iff.mp kept
          rw [kept, Option.none_or] at there
          obtain ⟨same, old⟩ := sound.staged_of_adopted named missing there adopted
          subst same
          exact ⟨named, missing, old⟩
      · cases there

/-! ### Each call -/

/-- What is listened on, and what is attached to it, is a matter of commits alone. -/
theorem listening_step (step : Step call s s') (other : call ≠ .commit) :
    s'.listeners.running = s.listeners.running ∧ s'.listeners.attached = s.listeners.attached := by
  cases step with
  | other same later => exact ⟨by rw [listeners, same], by rw [listeners, same]⟩
  | adopt nodup new => exact ⟨rfl, rfl⟩
  | @staged w w' desired staged ended =>
    have moved := (moves_stageListeners desired).exec w
    rw [ended] at moved
    exact listening_of_staging moved
  | @failed w w' desired error ended =>
    have moved := (moves_stageListeners desired).exec w
    rw [ended] at moved
    exact listening_of_staging moved
  | drop => exact ⟨rfl, rfl⟩
  | commit => exact absurd rfl other

theorem custody_commit (sound : Sound ⟨w, some pending⟩) :
    Custody (held ⟨((Listeners.commit pending.staged).run w).2, none⟩) w.host.nextSocket := by
  have sockets := socketAt_commit pending.staged w
  apply sound.custody.moved (fun place => match place with
    | .running address =>
      if (w.node.listeners.socketAt address).isSome then .running address else .staged address
    | place => place) _ _ le_rfl
  · intro place k here
    cases place with
    | adopted other => simp [held, Listeners.sockets, listeners_commit] at here
    | staged other => simp [held, bound, Listeners.sockets] at here
    | running other =>
      have there := (sockets other).symm.trans here
      split at there
      · cases kept : w.node.listeners.socketAt other with
        | some socket =>
          rw [kept] at there
          cases there
          simp only [kept, Option.isSome_some, if_true]
          exact kept
        | none =>
          rw [kept, Option.none_or] at there
          simp only [kept, Option.isSome_none, Bool.false_eq_true, if_false]
          exact there
      · cases there
  · intro p q k here there same
    cases p with
    | adopted other => simp [held, Listeners.sockets, listeners_commit] at here
    | staged other => simp [held, bound, Listeners.sockets] at here
    | running one =>
      cases q with
      | adopted other => simp [held, Listeners.sockets, listeners_commit] at there
      | staged other => simp [held, bound, Listeners.sockets] at there
      | running two =>
        dsimp only at same
        split at same <;> split at same <;> cases same <;> rfl

theorem Sound.step (sound : s.Sound) (step : Step call s s') : s'.Sound := by
  cases step with
  | @other w w' pending same later =>
    constructor
    · apply sound.custody.narrow _ later
      intro place k here
      rwa [held, same] at here
    · intro pending there
      obtain ⟨custody, running, bound⟩ := sound.prepared pending there
      rw [listeners, ← same] at running bound
      exact ⟨custody, running, bound⟩
  | adopt nodup new =>
    constructor
    · exact custody_adopt sound.custody nodup new
    · intro pending there
      obtain ⟨custody, running, bound⟩ := sound.prepared pending there
      exact ⟨custody, running, bound⟩
  | @staged w w' desired staged ended =>
    obtain ⟨same, got⟩ := stage_ok ended
    have running := (listening_step (.staged ended) (by simp)).1
    have before : Custody (w.node.listeners.sockets ∅) w.host.nextSocket := sound.custody
    subst same
    obtain ⟨custody, later, found⟩ := getSockets_ok _ staged.nodup got before
    constructor
    · exact custody
    · intro pending there
      cases there
      refine ⟨before, running, fun address => ?_⟩
      have here := found address
      rwa [← running] at here
  | @failed w w' desired error ended =>
    have before : Custody (w.node.listeners.sockets ∅) w.host.nextSocket := sound.custody
    exact sound_idle (stage_error ended before)
  | @drop w pending =>
    apply sound_idle
    apply sound.custody.narrow _ le_rfl
    intro place k here
    cases place with
    | running | adopted => exact here
    | staged other => simp [Listeners.sockets] at here
  | @commit w pending =>
    have host : ((Listeners.commit pending.staged).run w).2.host = w.host := by
      rw [listeners_commit]
      rfl
    apply sound_idle
    rw [host]
    exact custody_commit sound

theorem sound_of_runs {w : World} (empty : w.node.listeners = .empty) {s : ListenerSet}
    (run : Runs ⟨w, none⟩ s) : s.Sound := by
  induction run with
  | refl =>
    apply sound_idle
    rw [empty]
    constructor
    · intro p q k here
      cases p <;> simp [Listeners.sockets, Listeners.socketAt, Listeners.empty] at here
    · intro p k here
      cases p <;> simp [Listeners.sockets, Listeners.socketAt, Listeners.empty] at here
  | tail _ last ih =>
    obtain ⟨call, step⟩ := last
    exact ih.step step

end ListenerSet

open ListenerSet

/-- Whatever was called on a set before: no call but a commit changes what is
    listened on and what is attached to it, and a commit makes it what its config
    says, with the sockets that were there. -/
theorem commits_follow_config {w : World} (empty : w.node.listeners = .empty) {s : ListenerSet}
    (run : Runs ⟨w, none⟩ s) {call : Call} {s' : ListenerSet} (step : Step call s s') :
    (call ≠ .commit →
      s'.listeners.running = s.listeners.running ∧
        s'.listeners.attached = s.listeners.attached) ∧
    (call = .commit → ∃ pending, s.pending = some pending ∧ s'.pending = none ∧
      Committed s pending s') := by
  have sound := sound_of_runs empty run
  constructor
  · exact listening_step step
  · intro committed
    cases step with
    | commit => exact ⟨_, rfl, rfl, sound.committed⟩
    | _ => cases committed

/-- A host on which every address can be bound. -/
def quietHost : World := .starting (.small [] (.error .notFound) []) ∅

/-- A socket was handed to the set for the first of two ports. -/
def handedOver : World :=
  quietHost.setNode fun n => { n with
    listeners := n.listeners.adopt [((Listener.loopback [] 80).socketAddr, 7)] }

def twoPorts : List (SocketAddr × Listener) :=
  [((Listener.loopback [] 80).socketAddr, .loopback [] 80),
    ((Listener.loopback [] 81).socketAddr, .loopback [] 81)]

theorem stages_twoPorts :
    ∃ staged w, Fallible.exec (Listeners.stage twoPorts) handedOver = (.ok staged, w) := by
  have got : (Fallible.exec (Listeners.stage twoPorts) handedOver).1.toOption.isSome = true := by
    decide +kernel
  generalize Fallible.exec (Listeners.stage twoPorts) handedOver = ended at got ⊢
  obtain ⟨result, w⟩ := ended
  cases result with
  | error error => cases got
  | ok staged => exact ⟨staged, w, rfl⟩

theorem runs_handedOver : Runs ⟨quietHost, none⟩ ⟨handedOver, none⟩ := by
  apply Relation.ReflTransGen.single
  refine ⟨_, .adopt (by decide) ?_⟩
  intro socket member
  simp only [List.map_cons, List.map_nil, List.mem_singleton] at member
  subst member
  refine ⟨by decide, fun place => ?_⟩
  cases place <;> simp [held, bound, Listeners.sockets, Listeners.socketAt, quietHost,
    World.starting, Node.new, Listeners.empty]

theorem listens_on_adopted_socket :
    ∃ s s', Runs ⟨quietHost, none⟩ s ∧ Step .commit s s' ∧
      s'.listeners.socketAt (Listener.loopback [] 80).socketAddr = some 7 := by
  obtain ⟨staged, w, ended⟩ := stages_twoPorts
  have run : Runs ⟨quietHost, none⟩ ⟨w, some ⟨staged, handedOver⟩⟩ :=
    runs_handedOver.tail ⟨_, .staged ended⟩
  refine ⟨_, _, run, .commit, ?_⟩
  obtain ⟨pending, same, _, committed⟩ := (commits_follow_config rfl run .commit).2 rfl
  cases same
  have idle : w.node.listeners.running = ∅ := (listening_step (.staged ended) (by simp)).1
  apply committed.adopted
  · rw [(stage_ok ended).1]
    decide
  · rw [listeners, idle]
    rfl
  · change handedOver.node.listeners.adopted.lookup _ = _
    decide +kernel

end Gfe
