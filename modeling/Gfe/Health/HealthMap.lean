import Gfe.Config.Types
import Gfe.Lib.HashMap

/-! # Backend health

The map hands out one handle per backend. Pools keep the handle and read it on
every selection; the checker writes through the map. A handle is therefore an
identity of its own: forgetting a backend leaves the handle readable, and a
backend entered again gets a new one.
-/

namespace Gfe

inductive HealthStatus where
  | unknown
  | healthy
  | unhealthy
  | draining
  deriving DecidableEq, Repr

/-- Whether a backend of this status may receive requests: it is healthy, or not
    probed yet on a map that trusts the unknown. -/
def HealthStatus.isSelectable (unknownIsSelectable : Bool) : HealthStatus → Bool
  | .healthy => true
  | .unknown => unknownIsSelectable
  | .unhealthy | .draining => false

/-- A backend: its host and port. -/
abbrev BackendKey := Str × UInt16

abbrev HandleId := Nat

structure HealthMap where
  entries : HashMap BackendKey HandleId
  /-- The status behind every handle ever handed out. -/
  status : HandleId → HealthStatus
  nextHandle : HandleId
  assumeHealthyWhenUnknown : Bool
  issued : ∀ key handle, entries.lookup key = some handle → handle < nextHandle

namespace HealthMap

def new (assumeHealthyWhenUnknown : Bool) : HealthMap where
  entries := ∅
  status _ := .unknown
  nextHandle := 0
  assumeHealthyWhenUnknown := assumeHealthyWhenUnknown
  issued key handle known := by
    rw [AList.lookup_empty] at known
    cases known

/-- Enter a backend as unknown, with a handle of its own. -/
def enter (map : HealthMap) (key : BackendKey) : HealthMap where
  entries := map.entries.insert key map.nextHandle
  status := Function.update map.status map.nextHandle .unknown
  nextHandle := map.nextHandle + 1
  assumeHealthyWhenUnknown := map.assumeHealthyWhenUnknown
  issued other handle known := by
    rw [HashMap.lookup_insert] at known
    split at known
    · cases known
      exact Nat.lt_succ_self _
    · exact (map.issued other handle known).trans (Nat.lt_succ_self _)

/-- The handle on a backend; one not recorded yet is entered first. -/
def handle (map : HealthMap) (key : BackendKey) : HandleId × HealthMap :=
  match map.entries.lookup key with
  | some handle => (handle, map)
  | none => (map.nextHandle, map.enter key)

def set (map : HealthMap) (key : BackendKey) (status : HealthStatus) : HealthMap :=
  let (handle, map) := map.handle key
  { map with status := Function.update map.status handle status }

def get (map : HealthMap) (key : BackendKey) : HealthStatus :=
  match map.entries.lookup key with
  | some handle => map.status handle
  | none => .unknown

/-- Forget the backends not in `keep`. -/
def retain (map : HealthMap) (keep : List BackendKey) : HealthMap where
  entries := map.entries.retain fun key _ => keep.contains key
  status := map.status
  nextHandle := map.nextHandle
  assumeHealthyWhenUnknown := map.assumeHealthyWhenUnknown
  issued key handle known := by
    rw [HashMap.lookup_retain] at known
    exact map.issued key handle (Option.filter_eq_some_iff.mp known).1

/-- `after` is `before` with new backends, all of them unknown: every backend
    known before keeps its handle, every handle its status. -/
structure Grows (before after : HealthMap) : Prop where
  kept : ∀ key handle, before.entries.lookup key = some handle →
    after.entries.lookup key = some handle
  added : ∀ key handle, after.entries.lookup key = some handle →
    before.entries.lookup key = some handle ∨ after.status handle = .unknown
  status : ∀ handle < before.nextHandle, after.status handle = before.status handle
  fresh : before.nextHandle ≤ after.nextHandle

theorem Grows.refl (map : HealthMap) : Grows map map :=
  ⟨fun _ _ known => known, fun _ _ known => .inl known, fun _ _ => rfl, le_rfl⟩

theorem Grows.trans {first second third : HealthMap} (one : Grows first second)
    (two : Grows second third) : Grows first third := by
  refine ⟨?_, ?_, ?_, one.fresh.trans two.fresh⟩
  · intro key handle known
    exact two.kept key handle (one.kept key handle known)
  · intro key handle known
    rcases two.added key handle known with before | unknown
    · rcases one.added key handle before with first | unknown
      · exact .inl first
      · right
        rw [two.status handle (second.issued key handle before), unknown]
    · exact .inr unknown
  · intro handle old
    rw [two.status handle (lt_of_lt_of_le old one.fresh), one.status handle old]

/-- Taking a handle only ever adds the backend, as unknown. -/
theorem handle_grows (map : HealthMap) (key : BackendKey) : Grows map (map.handle key).2 := by
  unfold handle
  split
  · exact .refl map
  · rename_i absent
    refine ⟨?_, ?_, ?_, Nat.le_succ _⟩
    · intro other handle known
      rw [enter, HashMap.lookup_insert, if_neg]
      · exact known
      · rintro rfl
        rw [absent] at known
        cases known
    · intro other handle known
      rw [enter, HashMap.lookup_insert] at known
      split at known
      · cases known
        exact .inr (Function.update_self ..)
      · exact .inl known
    · intro handle old
      exact Function.update_of_ne (Nat.ne_of_lt old) ..

theorem Grows.get_eq {before after : HealthMap} (grows : Grows before after) (key : BackendKey) :
    after.get key = before.get key := by
  unfold get
  cases known : before.entries.lookup key with
  | some handle =>
    simp only [grows.kept key handle known]
    exact grows.status handle (before.issued key handle known)
  | none =>
    cases now : after.entries.lookup key with
    | none => rfl
    | some handle =>
      rcases grows.added key handle now with before | unknown
      · rw [known] at before
        cases before
      · exact unknown

end HealthMap

end Gfe
