import Gfe.Lib.Text

/-! # Durations in config files

`5s`, `250ms`, `10us`. The last-known-good cache is written with them, so what is
written must be read as what it was. A duration is in nanoseconds.
-/

namespace Gfe

open Text

/-- The count in front of the unit. -/
def durationCount (val : Str) : Except Str Nat :=
  (parseInteger (2 ^ 64) (trim val)).mapError IntErrorKind.message

def parseDuration (s : Str) : Except Str Nat :=
  let s := trim s
  match stripEnd s ['u', 's'] with
  | some val => (durationCount val).map (· * 1000)
  | none =>
    match stripEnd s ['m', 's'] with
    | some val => (durationCount val).map (· * 1000000)
    | none =>
      match stripEnd s ['s'] with
      | some val => (durationCount val).map (· * 1000000000)
      | none => .error ("unknown duration format: ".toList ++ s)

/-- In the largest unit that has a whole number of it. -/
def serializeDuration (duration : Nat) : Str :=
  let micros := duration / 1000
  if micros % 1000000 = 0 then Nat.toDigits 10 (micros / 1000000) ++ ['s']
  else if micros % 1000 = 0 then Nat.toDigits 10 (micros / 1000) ++ ['m', 's']
  else Nat.toDigits 10 micros ++ ['u', 's']

/-- A count of 64 bits of one of the units. -/
def InUnits (duration : Nat) : Prop :=
  ∃ n < 2 ^ 64, duration = n * 1000 ∨ duration = n * 1000000 ∨ duration = n * 1000000000

/-! ## What is read -/

theorem durationCount_lt {val : Str} {n : Nat} (result : durationCount val = .ok n) : n < 2 ^ 64 := by
  unfold durationCount at result
  cases read : parseInteger (2 ^ 64) (trim val) with
  | error kind =>
    rw [read] at result
    cases result
  | ok m =>
    rw [read] at result
    cases result
    exact parseInteger_lt (by decide) read

theorem exists_of_map_eq_ok {α β ε : Type} {f : α → β} {r : Except ε α} {y : β}
    (result : r.map f = .ok y) : ∃ x, r = .ok x ∧ y = f x := by
  cases r with
  | error e => cases result
  | ok x =>
    cases result
    exact ⟨x, rfl, rfl⟩

theorem inUnits_of_parseDuration {s : Str} {duration : Nat}
    (result : parseDuration s = .ok duration) : InUnits duration := by
  simp only [parseDuration] at result
  split at result
  · obtain ⟨n, count, same⟩ := exists_of_map_eq_ok result
    exact ⟨n, durationCount_lt count, .inl same⟩
  · split at result
    · obtain ⟨n, count, same⟩ := exists_of_map_eq_ok result
      exact ⟨n, durationCount_lt count, .inr (.inl same)⟩
    · split at result
      · obtain ⟨n, count, same⟩ := exists_of_map_eq_ok result
        exact ⟨n, durationCount_lt count, .inr (.inr same)⟩
      · cases result

/-! ## What is written -/

theorem durationCount_toDigits {n : Nat} (fits : n < 2 ^ 64) :
    durationCount (Nat.toDigits 10 n) = .ok n := by
  rw [durationCount, trim_toDigits, parseInteger_toDigits fits]
  rfl

theorem trim_written (n : Nat) {unit : Str} (letters : unit ⊆ ['u', 'm', 's']) :
    trim (Nat.toDigits 10 n ++ unit) = Nat.toDigits 10 n ++ unit := by
  have plain : ∀ c ∈ ['u', 'm', 's'], isWhitespace c = false := by simp [isWhitespace]
  apply trim_of_no_whitespace
  intro c member
  cases List.mem_append.mp member with
  | inl digit => exact not_isWhitespace_of_isDigit (List.all_eq_true.mp (all_isDigit_toDigits n) c digit)
  | inr unit => exact plain c (letters unit)

theorem stripEnd_seconds (n : Nat) {c : Char} (letter : c.isDigit = false) :
    stripEnd (Nat.toDigits 10 n ++ ['s']) [c, 's'] = none := by
  cases stripped : stripEnd (Nat.toDigits 10 n ++ ['s']) [c, 's'] with
  | none => rfl
  | some front =>
    have same := stripEnd_eq_some.mp stripped
    have same : (front ++ [c]) ++ ['s'] = Nat.toDigits 10 n ++ ['s'] := by simpa using same
    have digits := List.append_cancel_right same
    have digit := List.all_eq_true.mp (all_isDigit_toDigits n) c (by simp [← digits])
    rw [letter] at digit
    cases digit

theorem parseDuration_seconds {n : Nat} (fits : n < 2 ^ 64) :
    parseDuration (Nat.toDigits 10 n ++ ['s']) = .ok (n * 1000000000) := by
  have unit : stripEnd (Nat.toDigits 10 n ++ ['s']) ['s'] = some (Nat.toDigits 10 n) :=
    stripEnd_eq_some.mpr rfl
  simp only [parseDuration, trim_written n (show ['s'] ⊆ ['u', 'm', 's'] by simp),
    stripEnd_seconds n (show Char.isDigit 'u' = false by decide),
    stripEnd_seconds n (show Char.isDigit 'm' = false by decide), unit, durationCount_toDigits fits]
  rfl

theorem parseDuration_millis {n : Nat} (fits : n < 2 ^ 64) :
    parseDuration (Nat.toDigits 10 n ++ ['m', 's']) = .ok (n * 1000000) := by
  have unit : stripEnd (Nat.toDigits 10 n ++ ['m', 's']) ['m', 's'] = some (Nat.toDigits 10 n) :=
    stripEnd_eq_some.mpr rfl
  have other : stripEnd (Nat.toDigits 10 n ++ ['m', 's']) ['u', 's'] = none := by
    cases stripped : stripEnd (Nat.toDigits 10 n ++ ['m', 's']) ['u', 's'] with
    | none => rfl
    | some front =>
      have same := List.append_inj_right' (stripEnd_eq_some.mp stripped) rfl
      cases same
  simp only [parseDuration, trim_written n (show ['m', 's'] ⊆ ['u', 'm', 's'] by simp),
    other, unit, durationCount_toDigits fits]
  rfl

theorem parseDuration_micros {n : Nat} (fits : n < 2 ^ 64) :
    parseDuration (Nat.toDigits 10 n ++ ['u', 's']) = .ok (n * 1000) := by
  have unit : stripEnd (Nat.toDigits 10 n ++ ['u', 's']) ['u', 's'] = some (Nat.toDigits 10 n) :=
    stripEnd_eq_some.mpr rfl
  simp only [parseDuration, trim_written n (show ['u', 's'] ⊆ ['u', 'm', 's'] by simp),
    unit, durationCount_toDigits fits]
  rfl

/-- What is written for a duration in one of the units is read as that duration: the
    largest unit that divides it never needs a count beyond 64 bits. -/
theorem parseDuration_serializeDuration {duration : Nat} (units : InUnits duration) :
    parseDuration (serializeDuration duration) = .ok duration := by
  obtain ⟨n, fits, exact⟩ := units
  simp only [serializeDuration]
  split
  · rw [parseDuration_seconds (by omega)]
    congr 1
    omega
  · split
    · rw [parseDuration_millis (by omega)]
      congr 1
      omega
    · rw [parseDuration_micros (by omega)]
      congr 1
      omega

example : parseDuration [' ', '9', '0', ' ', 'm', 's', '\n'] = .ok 90000000 := by decide +kernel

example : serializeDuration 90000000 = ['9', '0', 'm', 's'] := by decide

end Gfe
