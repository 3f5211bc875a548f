import Gfe.Config.Validate
import Gfe.Listen.Listeners

/-! # Which listener a connection came in on

The kernel reports a connection by its addresses, and the node asks its running listeners for
the first one that matches, in the order its map is iterated in. A listener on `0.0.0.0`
matches every address on its port, also those of IPv6 that it cannot have accepted.
-/

namespace Gfe

def IpAddr.isUnspecified : IpAddr → Bool
  | .v4 bits => bits = 0
  | .v6 bits => bits = 0

/-- Whether a listener bound to `bound` is taken for the one of a connection to `address`. -/
def SocketAddr.matches (bound address : SocketAddr) : Bool :=
  bound.port = address.port &&
    (bound.ip.isUnspecified || bound.ip.toCanonical = address.ip.toCanonical)

namespace Listeners

variable {τ : Type} (localAddr : SocketId → SocketAddr)

/-- The listener found for a connection to `address`, when the map is iterated in this order.
    `localAddr` is what each socket is bound to. -/
def listenerFor (order : List RunningListener) (address : SocketAddr) : Option RunningListener :=
  order.find? fun running => (localAddr running.socket).matches address

/-- `Listeners::listener_at` -/
def listenerAt (listeners : Listeners τ) (order : List RunningListener) (address : SocketAddr) :
    Option τ :=
  (listenerFor localAddr order address).bind fun running => listeners.attached running.cell

end Listeners

/-! ## What a listener can accept -/

/-- A connection to this address comes in over IPv4. -/
def IpAddr.IsV4 (ip : IpAddr) : Prop := ∃ bits, ip.toCanonical = .v4 bits

/-- A listener bound to `bound` can have accepted a connection to `address`: it is bound to that
    very address, to all of IPv4, or to all of both families. -/
def SocketAddr.CanAccept (bound address : SocketAddr) : Prop :=
  bound.port = address.port ∧
    (bound.ip.toCanonical = address.ip.toCanonical ∨ bound.ip = .v4 0 ∧ address.ip.IsV4 ∨
      bound.ip = .v6 0)

theorem IpAddr.isUnspecified_iff {ip : IpAddr} :
    ip.isUnspecified = true ↔ ip = .v4 0 ∨ ip = .v6 0 := by
  cases ip <;> simp [isUnspecified]

theorem SocketAddr.matches_iff {bound address : SocketAddr} :
    bound.matches address = true ↔
      bound.CanAccept address ∨ bound.port = address.port ∧ bound.ip = .v4 0 := by
  simp only [SocketAddr.matches, Bool.and_eq_true, Bool.or_eq_true, decide_eq_true_eq,
    IpAddr.isUnspecified_iff, CanAccept]
  constructor
  · rintro ⟨port, (all | both) | same⟩
    · exact .inr ⟨port, all⟩
    · exact .inl ⟨port, .inr (.inr both)⟩
    · exact .inl ⟨port, .inl same⟩
  · rintro (⟨port, same | ⟨all, _⟩ | both⟩ | ⟨port, all⟩)
    · exact ⟨port, .inr same⟩
    · exact ⟨port, .inl (.inl all)⟩
    · exact ⟨port, .inl (.inr both)⟩
    · exact ⟨port, .inl (.inl all)⟩

theorem find?_of_perm_iff {α : Type} [DecidableEq α] {p : α → Bool} {l : List α} {x : α}
    (member : x ∈ l) (here : p x = true) :
    (∀ order : List α, order.Perm l → order.find? p = some x) ↔ ∀ y ∈ l, p y = true → y = x := by
  constructor
  · intro always y listed other
    have found := always (y :: l.erase y) (List.perm_cons_erase listed).symm
    rw [List.find?_cons_of_pos other] at found
    exact Option.some.inj found
  · intro only order perm
    have some : (order.find? p).isSome := List.find?_isSome.mpr ⟨x, perm.mem_iff.mpr member, here⟩
    obtain ⟨y, found⟩ := Option.isSome_iff_exists.mp some
    rw [found, only y (perm.mem_iff.mp (List.mem_of_find?_eq_some found)) (List.find?_some found)]

/-- The connection came in over IPv4, or no listener on its port is bound to `0.0.0.0`. -/
def Listeners.TellsApart {τ : Type} (listeners : Listeners τ) (localAddr : SocketId → SocketAddr)
    (address : SocketAddr) : Prop :=
  address.ip.IsV4 ∨ ∀ other ∈ listeners.running.values,
    (localAddr other.socket).port = address.port → (localAddr other.socket).ip ≠ .v4 0

/-- If exactly one running listener can have accepted a connection, it is found in every order
    of iteration exactly if the listeners can be told apart, and then what is attached to it is
    returned. -/
theorem listener_found_iff {τ : Type} (listeners : Listeners τ) (localAddr : SocketId → SocketAddr)
    (address : SocketAddr) {running : RunningListener} (runs : running ∈ listeners.running.values)
    (accepts : (localAddr running.socket).CanAccept address)
    (only : ∀ other ∈ listeners.running.values,
      (localAddr other.socket).CanAccept address → other = running) :
    ((∀ order : List RunningListener, order.Perm listeners.running.values →
        Listeners.listenerFor localAddr order address = some running) ↔
      listeners.TellsApart localAddr address) ∧
    (listeners.TellsApart localAddr address →
      ∀ order : List RunningListener, order.Perm listeners.running.values →
        listeners.listenerAt localAddr order address = listeners.attached running.cell) := by
  have here : (localAddr running.socket).matches address = true :=
    SocketAddr.matches_iff.mpr (.inl accepts)
  have found : (∀ order : List RunningListener, order.Perm listeners.running.values →
      Listeners.listenerFor localAddr order address = some running) ↔
      listeners.TellsApart localAddr address := by
    refine (find?_of_perm_iff (p := fun running => (localAddr running.socket).matches address)
      runs here).trans ?_
    constructor
    · intro alone
      by_cases v4 : address.ip.IsV4
      · exact .inl v4
      · refine .inr fun other listed port all => v4 ?_
        -- bound to all of IPv4, it matches: so it is the one that accepted
        have same := alone other listed (SocketAddr.matches_iff.mpr (.inr ⟨port, all⟩))
        subst same
        obtain ⟨_, same | ⟨_, v4⟩ | both⟩ := accepts
        · exact ⟨0, by rw [← same, all]; rfl⟩
        · exact v4
        · rw [all] at both
          cases both
    · intro apart other listed found
      rcases SocketAddr.matches_iff.mp found with accepts | ⟨port, all⟩
      · exact only other listed accepts
      · rcases apart with v4 | none
        · exact only other listed ⟨port, .inr (.inl ⟨all, v4⟩)⟩
        · exact absurd all (none other listed port)
  refine ⟨found, fun apart order perm => ?_⟩
  rw [Listeners.listenerAt, found.mpr apart order perm]
  rfl

/-! ## Two listeners on one port -/

/-- One on every address of IPv4, one on the loopback address of IPv6. -/
def bothFamilies : DynamicConfig where
  certificates := []
  listeners := [⟨⟨['4']⟩, .v4 0, 80, .http⟩, ⟨⟨['6']⟩, .v6 1, 80, .http⟩]
  routes := []
  pools := []

def bothBound (socket : SocketId) : SocketAddr := if socket = 0 then ⟨.v4 0, 80⟩ else ⟨.v6 1, 80⟩

/-- The listeners after the config is applied. -/
def bothRunning : Listeners Listener :=
  let desired := bothFamilies.listeners.map fun listener => (listener.socketAddr, listener)
  (Listeners.empty.retainNamed desired).placeEach (.collect [(bothBound 0, 0), (bothBound 1, 1)])
    desired

theorem values_bothRunning : bothRunning.running.values = [⟨1, 1⟩, ⟨0, 0⟩] := by decide +kernel

/-- The one of IPv4 is found for a connection over IPv4. -/
theorem listener_found_iff_loopback :
    bothRunning.listenerAt bothBound [⟨0, 0⟩, ⟨1, 1⟩] ⟨.v4 0x7f000001, 80⟩ =
      bothRunning.attached 0 := by
  have apart : ¬ (bothBound 1).CanAccept ⟨.v4 0x7f000001, 80⟩ := by
    rintro ⟨_, same | ⟨all, _⟩ | both⟩
    · exact absurd same (by decide)
    · exact absurd all (by decide)
    · exact absurd both (by decide)
  refine (@listener_found_iff _ bothRunning bothBound ⟨.v4 0x7f000001, 80⟩ ⟨0, 0⟩ ?_
    ⟨rfl, .inr (.inl ⟨rfl, _, rfl⟩)⟩ ?_).2 (.inl ⟨_, rfl⟩) _ ?_
  all_goals rw [values_bothRunning]
  · decide
  · intro other listed accepts
    simp only [List.mem_cons, List.not_mem_nil, or_false] at listed
    rcases listed with rfl | rfl
    · exact absurd accepts apart
    · rfl
  · decide

/-- The one of IPv4 is found for a connection that only the one of IPv6 can have accepted. -/
theorem loopback_mistaken :
    validate bothFamilies = .ok () ∧
      (⟨1, 1⟩ : RunningListener) ∈ bothRunning.running.values ∧
      (bothBound 1).CanAccept ⟨.v6 1, 80⟩ ∧
      (∀ other ∈ bothRunning.running.values,
        (bothBound other.socket).CanAccept ⟨.v6 1, 80⟩ → other = ⟨1, 1⟩) ∧
      bothRunning.attached 1 = some ⟨⟨['6']⟩, .v6 1, 80, .http⟩ ∧
      [(⟨0, 0⟩ : RunningListener), ⟨1, 1⟩].Perm bothRunning.running.values ∧
      bothRunning.listenerAt bothBound [⟨0, 0⟩, ⟨1, 1⟩] ⟨.v6 1, 80⟩ =
        some ⟨⟨['4']⟩, .v4 0, 80, .http⟩ := by
  have apart : ¬ (bothBound 0).CanAccept ⟨.v6 1, 80⟩ := by
    rintro ⟨_, same | ⟨_, bits, v4⟩ | both⟩
    · exact absurd same (by decide)
    · exact absurd v4 (by simp [IpAddr.toCanonical])
    · exact absurd both (by decide)
  rw [values_bothRunning]
  refine ⟨by decide +kernel, by decide, ⟨rfl, .inl rfl⟩, ?_, by decide +kernel, by decide,
    by decide +kernel⟩
  intro other listed accepts
  simp only [List.mem_cons, List.not_mem_nil, or_false] at listed
  rcases listed with rfl | rfl
  · rfl
  · exact absurd accepts apart

end Gfe
