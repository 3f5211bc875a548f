import Gfe.Lib.Text

/-! # Request activity on one connection

Whether a request is in flight, since when none has been, and what is due. Times
are in nanoseconds.
-/

namespace Gfe

namespace Server

open Text

def millisecond : Nat := 1000000

def second : Nat := 1000 * millisecond

/-! ## Options -/

/-- `MIN_HEADER_BYTES`. -/
def minHeaderBytes : Nat := 8192

structure Options where
  headerTimeout : Nat
  idleTimeout : Nat
  keepAliveTimeout : Nat
  drainIdleGrace : Nat
  maxHeaderBytes : Nat
  maxConcurrentStreams : UInt32
  deriving DecidableEq

inductive InvalidOptions where
  | zeroDuration (name : Str)
  | headerBytesTooSmall (bytes : Nat)
  | noStreams
  deriving DecidableEq

def InvalidOptions.text : InvalidOptions → Str
  | .zeroDuration name => name ++ " must be longer than zero".toList
  | .headerBytesTooSmall bytes =>
    "max_header_bytes must be at least ".toList ++ Nat.toDigits 10 minHeaderBytes ++
      ", got ".toList ++ Nat.toDigits 10 bytes
  | .noStreams => "max_concurrent_streams must be at least 1".toList

def Options.durations (options : Options) : List (Str × Nat) :=
  [("header_timeout".toList, options.headerTimeout),
    ("idle_timeout".toList, options.idleTimeout),
    ("keep_alive_timeout".toList, options.keepAliveTimeout),
    ("drain_idle_grace".toList, options.drainIdleGrace)]

def Options.validate (options : Options) : Except InvalidOptions Unit :=
  match options.durations.find? fun entry => entry.2 == 0 with
  | some (name, _) => .error (.zeroDuration name)
  | none =>
    if options.maxHeaderBytes < minHeaderBytes then
      .error (.headerBytesTooSmall options.maxHeaderBytes)
    else if options.maxConcurrentStreams = 0 then .error .noStreams
    else .ok ()

/-! ## Activity -/

structure ConnActivity where
  acceptedAt : Nat
  headerTimeout : Nat
  idleTimeout : Nat
  requests : Nat
  inFlight : Nat
  /-- When the connection last became idle, in milliseconds since `acceptedAt`. -/
  idleSinceMs : Nat
  deriving DecidableEq

inductive Verdict where
  | headerTimeout
  | idleTimeout
  | checkAgainAt (time : Nat)
  deriving DecidableEq

/-- Milliseconds of a time, in 64 bits. -/
def asMillis (elapsed : Nat) : Nat := min (elapsed / millisecond) (2 ^ 64 - 1)

namespace ConnActivity

def new (acceptedAt headerTimeout idleTimeout : Nat) : ConnActivity :=
  ⟨acceptedAt, headerTimeout, idleTimeout, 0, 0, 0⟩

def beginRequest (a : ConnActivity) : ConnActivity :=
  { a with requests := a.requests + 1, inFlight := a.inFlight + 1 }

/-- A `RequestGuard` is dropped at `now`. -/
def endRequest (a : ConnActivity) (now : Nat) : ConnActivity :=
  { a with idleSinceMs := asMillis (now - a.acceptedAt), inFlight := a.inFlight - 1 }

def hasRequestInFlight (a : ConnActivity) : Bool := 0 < a.inFlight

/-- When the header timeout or, once there was a request, the idle timeout is due. -/
def deadline (a : ConnActivity) : Nat :=
  if a.requests = 0 then a.acceptedAt + a.headerTimeout
  else a.acceptedAt + a.idleSinceMs * millisecond + a.idleTimeout

def verdict (a : ConnActivity) (now : Nat) : Verdict :=
  if a.requests ≠ 0 ∧ a.hasRequestInFlight then .checkAgainAt (now + a.idleTimeout)
  else if now < a.deadline ∧ a.requests = 0 then
    .checkAgainAt (min a.deadline (now + a.idleTimeout))
  else if now < a.deadline then .checkAgainAt a.deadline
  else if a.requests = 0 then .headerTimeout
  else .idleTimeout

variable {a : ConnActivity} {now : Nat}

theorem verdict_headerTimeout (due : a.verdict now = .headerTimeout) :
    a.requests = 0 ∧ a.acceptedAt + a.headerTimeout ≤ now := by
  unfold verdict at due
  split at due
  · cases due
  · split at due
    · cases due
    · split at due
      · cases due
      · split at due
        · rename_i late none
          simp only [deadline, none, if_true] at late
          exact ⟨none, Nat.not_lt.mp late⟩
        · cases due

theorem verdict_idleTimeout (due : a.verdict now = .idleTimeout) :
    a.requests ≠ 0 ∧ a.inFlight = 0 ∧
      a.acceptedAt + a.idleSinceMs * millisecond + a.idleTimeout ≤ now := by
  unfold verdict at due
  split at due
  · cases due
  · rename_i quiet
    split at due
    · cases due
    · split at due
      · cases due
      · split at due
        · cases due
        · rename_i late some
          simp only [deadline, some, if_false] at late
          simp only [hasRequestInFlight, decide_eq_true_eq, not_and] at quiet
          exact ⟨some, Nat.eq_zero_of_not_pos (quiet some), Nat.not_lt.mp late⟩

/-- It is looked at again no later than anything is due. -/
theorem verdict_checkAgainAt {time : Nat} (fine : a.verdict now = .checkAgainAt time)
    (counted : a.requests = 0 → a.inFlight = 0) :
    (a.requests = 0 → time ≤ a.acceptedAt + a.headerTimeout ∧ time ≤ now + a.idleTimeout) ∧
    (0 < a.inFlight → time = now + a.idleTimeout) ∧
    (a.requests ≠ 0 → a.inFlight = 0 →
      time = a.acceptedAt + a.idleSinceMs * millisecond + a.idleTimeout) := by
  unfold verdict at fine
  split at fine
  · rename_i busy
    simp only [hasRequestInFlight, decide_eq_true_eq] at busy
    cases fine
    refine ⟨fun none => absurd none busy.1, fun _ => rfl, fun _ none => ?_⟩
    omega
  · rename_i quiet
    simp only [hasRequestInFlight, decide_eq_true_eq] at quiet
    split at fine
    · rename_i silent
      cases fine
      refine ⟨fun none => ?_, fun busy => ?_, fun some => absurd silent.2 some⟩
      · simp only [deadline, none, if_true]
        omega
      · have alone := counted silent.2
        omega
    · rename_i spoken
      split at fine
      · rename_i early
        cases fine
        have some : a.requests ≠ 0 := fun none => spoken ⟨early, none⟩
        refine ⟨fun none => absurd none some, fun busy => absurd ⟨some, busy⟩ quiet, fun _ _ => ?_⟩
        simp [deadline, some]
      · split at fine <;> cases fine

end ConnActivity

end Server

end Gfe
