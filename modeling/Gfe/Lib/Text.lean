import Mathlib
import Gfe.Lib.Separated

/-! # Text as the source handles it

A string is its list of Unicode scalar values. Lengths are in UTF-8 bytes, case
folding is ASCII only, and trimming removes every scalar with the Unicode
property `White_Space`.
-/

abbrev Str := List Char

instance lawfulBEqStr : LawfulBEq Str := inferInstance

namespace Text

variable {c : Char}

/-- The length in bytes. -/
def len (s : Str) : Nat := (s.map Char.utf8Size).sum

def toAsciiLowercase (s : Str) : Str := s.map Char.toLower

def eqIgnoreAsciiCase (a b : Str) : Bool := toAsciiLowercase a == toAsciiLowercase b

def isWhitespace (c : Char) : Bool :=
  let n := c.toNat
  (9 ≤ n && n ≤ 13) || n == 32 || n == 0x85 || n == 0xa0 || n == 0x1680 ||
    (0x2000 ≤ n && n ≤ 0x200a) || n == 0x2028 || n == 0x2029 || n == 0x202f ||
    n == 0x205f || n == 0x3000

def trim (s : Str) : Str :=
  ((s.dropWhile isWhitespace).reverse.dropWhile isWhitespace).reverse

def startsWith (s start : Str) : Bool := start.isPrefixOf s

def endsWith (s ending : Str) : Bool := ending.isSuffixOf s

/-- What follows `start`, if `s` begins with it. -/
def stripStart (s start : Str) : Option Str := start.isPrefixOf? s

/-- What precedes `ending`, if `s` ends with it. -/
def stripEnd (s ending : Str) : Option Str := ending.isSuffixOf? s

def utf8 (s : Str) : List UInt8 := s.flatMap String.utf8EncodeChar

/-- `String::from_utf8`. -/
def fromUtf8 (bytes : List UInt8) : Option Str := bytes.toByteArray.utf8Decode?.map Array.toList

/-- The lines of a text, `line` being what was read of the one at hand. A line
    break is `\n` or `\r\n`, and the last line need not have one. -/
def linesFrom : (line : Str) → Str → List Str
  | line, [] => if line.isEmpty then [] else [line]
  | line, c :: rest =>
    if c = '\n' then (stripEnd line ['\r']).getD line :: linesFrom [] rest
    else linesFrom (line ++ [c]) rest

def lines (s : Str) : List Str := linesFrom [] s

/-- What is before and after the first `c`. -/
def splitOnce (c : Char) : Str → Option (Str × Str)
  | [] => none
  | d :: rest =>
    if d = c then some ([], rest)
    else (splitOnce c rest).map fun (before, after) => (d :: before, after)

/-- `str::parse` for an unsigned integer below `bound`: decimal digits, with a sign
    in front or not. -/
def parseUnsigned (bound : Nat) (s : Str) : Option Nat :=
  let digits := if s.head? = some '+' then s.tail else s
  let value := digits.foldl (fun value c => value * 10 + (c.toNat - '0'.toNat)) 0
  if digits.isEmpty || !digits.all Char.isDigit then none
  else if value < bound then some value
  else none

@[simp] theorem toAsciiLowercase_idem (s : Str) :
    toAsciiLowercase (toAsciiLowercase s) = toAsciiLowercase s := by
  simp [toAsciiLowercase]

theorem toAsciiLowercase_of_no_upper {s : Str} (lower : s.any Char.isUpper = false) :
    toAsciiLowercase s = s := by
  induction s with
  | nil => rfl
  | cons c s ih =>
    simp only [List.any_cons, Bool.or_eq_false_iff] at lower
    have rest := ih lower.2
    simp only [toAsciiLowercase, List.map_cons] at rest ⊢
    rw [rest, Char.toLower_eq_of_not_isUpper (by simp [lower.1])]

theorem toLower_eq_iff {c d : Char} (symbol : d.isAlpha = false) : c.toLower = d ↔ c = d := by
  have fixed : ∀ e : Char, e.isAlpha = false → e.toLower = e := by
    intro e other
    apply Char.toLower_eq_of_not_isUpper
    intro upper
    simp [Char.isAlpha, upper] at other
  constructor
  · intro folded
    have letter : c.isAlpha = false := by
      rw [← Char.isAlpha_toLower_eq_isAlpha, folded, symbol]
    rwa [fixed c letter] at folded
  · rintro rfl
    exact fixed c symbol

theorem toAsciiLowercase_eq_iff {s t : Str} (symbols : t.all (fun c => !c.isAlpha) = true) :
    toAsciiLowercase s = t ↔ s = t := by
  induction s generalizing t with
  | nil => cases t <;> simp [toAsciiLowercase]
  | cons c s ih =>
    cases t with
    | nil => simp [toAsciiLowercase]
    | cons d t =>
      simp only [List.all_cons, Bool.and_eq_true, Bool.not_eq_true'] at symbols
      have rest := ih symbols.2
      simp only [toAsciiLowercase, List.map_cons, List.cons.injEq] at rest ⊢
      rw [toLower_eq_iff symbols.1, rest]

theorem startsWith_toAsciiLowercase {s start : Str}
    (symbols : start.all (fun c => !c.isAlpha) = true) :
    startsWith (toAsciiLowercase s) start = startsWith s start := by
  induction start generalizing s with
  | nil => simp [startsWith]
  | cons d start ih =>
    cases s with
    | nil => rfl
    | cons c s =>
      simp only [List.all_cons, Bool.and_eq_true, Bool.not_eq_true'] at symbols
      have rest := ih (s := s) symbols.2
      simp only [startsWith, toAsciiLowercase, List.map_cons, List.isPrefixOf] at rest ⊢
      have head : (d == c.toLower) = (d == c) := by
        rw [Bool.eq_iff_iff, beq_iff_eq, beq_iff_eq, eq_comm, toLower_eq_iff symbols.1, eq_comm]
      rw [rest, head]

theorem stripStart_eq_some {s start rest : Str} :
    stripStart s start = some rest ↔ start ++ rest = s :=
  List.isPrefixOf?_eq_some_iff_append_eq

theorem stripEnd_eq_some {s ending front : Str} :
    stripEnd s ending = some front ↔ front ++ ending = s :=
  List.isSuffixOf?_eq_some_iff_append_eq

theorem startsWith_iff {s start : Str} : startsWith s start = true ↔ ∃ rest, start ++ rest = s :=
  List.isPrefixOf_iff_prefix

@[simp] theorem utf8_append (s t : Str) : utf8 (s ++ t) = utf8 s ++ utf8 t := List.flatMap_append

@[simp] theorem fromUtf8_utf8 (s : Str) : fromUtf8 (utf8 s) = some s := by
  have decoded := List.utf8Decode?_utf8Encode (l := s)
  rw [List.utf8Encode] at decoded
  simp [fromUtf8, utf8, decoded]

theorem utf8_ne_nil {s : Str} (some : s ≠ []) : utf8 s ≠ [] := by
  cases s with
  | nil => exact absurd rfl some
  | cons c s => simp [utf8]

theorem splitOnce_append {before : Str} (absent : c ∉ before) (after : Str) :
    splitOnce c (before ++ c :: after) = some (before, after) := by
  induction before with
  | nil => simp [splitOnce]
  | cons d before ih =>
    simp only [List.mem_cons, not_or] at absent
    simp [splitOnce, Ne.symm absent.1, ih absent.2]

/-- A text that can stand on a line. -/
def OnOneLine (s : Str) : Prop := '\n' ∉ s ∧ '\r' ∉ s

instance (s : Str) : Decidable (OnOneLine s) := inferInstanceAs (Decidable (_ ∧ _))

theorem linesFrom_append {line front : Str} (one : '\n' ∉ front) (rest : Str) :
    linesFrom line (front ++ rest) = linesFrom (line ++ front) rest := by
  induction front generalizing line with
  | nil => simp
  | cons c front ih =>
    simp only [List.mem_cons, not_or] at one
    simp [linesFrom, Ne.symm one.1, ih one.2]

theorem lines_cons {line : Str} (one : OnOneLine line) (rest : Str) :
    lines (line ++ '\n' :: rest) = line :: lines rest := by
  have plain : stripEnd line ['\r'] = none := by
    cases ended : stripEnd line ['\r'] with
    | none => rfl
    | some front =>
      have same := stripEnd_eq_some.mp ended
      exact absurd (same ▸ (by simp : '\r' ∈ front ++ ['\r'])) one.2
  rw [lines, linesFrom_append one.1]
  simp [linesFrom, plain, lines]

/-- A text of whole lines. -/
theorem lines_flatMap {texts : List Str} (one : ∀ text ∈ texts, OnOneLine text) :
    lines (texts.flatMap fun text => text ++ ['\n']) = texts := by
  induction texts with
  | nil => rfl
  | cons text texts ih =>
    rw [List.flatMap_cons, List.append_assoc]
    exact (lines_cons (one text List.mem_cons_self) _).trans
      (congrArg _ (ih fun other member => one other (List.mem_cons_of_mem _ member)))

theorem mem_toDigits {base n : Nat} (member : c ∈ Nat.toDigits base n) :
    ∃ d, c = Nat.digitChar d := by
  have digits : ∀ fuel n after, (∀ c ∈ after, ∃ d, c = Nat.digitChar d) →
      ∀ c ∈ Nat.toDigitsCore base fuel n after, ∃ d, c = Nat.digitChar d := by
    intro fuel
    induction fuel with
    | zero => exact fun _ _ known => known
    | succ fuel ih =>
      intro n after known
      have more : ∀ c ∈ Nat.digitChar (n % base) :: after, ∃ d, c = Nat.digitChar d := by
        intro c member
        cases List.mem_cons.mp member with
        | inl first => exact ⟨_, first⟩
        | inr rest => exact known c rest
      simp only [Nat.toDigitsCore]
      split
      · exact more
      · exact ih _ _ more
  exact digits _ _ _ (fun c none => absurd none List.not_mem_nil) c member

theorem digitChar_rule {P : Char → Prop} (listed : ∀ d < 16, P (Nat.digitChar d)) (other : P '*')
    (d : Nat) : P (Nat.digitChar d) := by
  by_cases small : d < 16
  · exact listed d small
  · obtain ⟨k, same⟩ := Nat.exists_eq_add_of_le' (Nat.not_lt.mp small)
    have beyond : Nat.digitChar (k + 16) = '*' := by simp [Nat.digitChar]
    rwa [same, beyond]

theorem visible_of_isAlphanum (letter : c.isAlphanum = true) :
    32 < c.toNat ∧ c.toNat < 127 := by
  simp only [Char.isAlphanum, Char.isAlpha, Char.isUpper, Char.isLower, Char.isDigit,
    Bool.or_eq_true, Bool.and_eq_true, decide_eq_true_eq, UInt32.le_iff_toNat_le,
    ge_iff_le] at letter
  change ((65 ≤ c.toNat ∧ c.toNat ≤ 90) ∨ (97 ≤ c.toNat ∧ c.toNat ≤ 122)) ∨
    (48 ≤ c.toNat ∧ c.toNat ≤ 57) at letter
  omega

theorem visible_or {known : Char → Bool}
    (visible : ∀ {c}, known c = true → 32 < c.toNat ∧ c.toNat < 127) {marks : Str}
    (listed : marks.all (fun c => decide (32 < c.toNat ∧ c.toNat < 127)) = true)
    (either : (known c || marks.contains c) = true) : 32 < c.toNat ∧ c.toNat < 127 := by
  rw [Bool.or_eq_true] at either
  rcases either with here | mark
  · exact visible here
  · exact of_decide_eq_true (List.all_eq_true.mp listed c (List.contains_iff_mem.mp mark))

theorem digitChar_visible (d : Nat) :
    32 < (Nat.digitChar d).toNat ∧ (Nat.digitChar d).toNat < 127 ∧ Nat.digitChar d ≠ ',' :=
  digitChar_rule (P := fun c => 32 < c.toNat ∧ c.toNat < 127 ∧ c ≠ ',') (by decide) (by decide) d

theorem digitChar_plain (d : Nat) : Nat.digitChar d ≠ '\n' ∧ Nat.digitChar d ≠ '\r' := by
  have visible := (digitChar_visible d).1
  constructor
  · intro same
    rw [same] at visible
    exact absurd visible (by decide)
  · intro same
    rw [same] at visible
    exact absurd visible (by decide)

theorem onOneLine_toDigits (base n : Nat) : OnOneLine (Nat.toDigits base n) := by
  constructor
  · intro member
    obtain ⟨d, same⟩ := mem_toDigits member
    exact (digitChar_plain d).1 same.symm
  · intro member
    obtain ⟨d, same⟩ := mem_toDigits member
    exact (digitChar_plain d).2 same.symm

/-- The byte 10 is a line break, and no part of another character. -/
theorem newline_notMem_utf8 {s : Str} (one : '\n' ∉ s) : 10 ∉ utf8 s := by
  intro member
  obtain ⟨c, listed, here⟩ := List.mem_flatMap.mp member
  have other : ∀ n : Nat, n % 256 ≠ 10 → (10 : UInt8) ≠ UInt8.ofNat n := by
    intro n differ same
    have equal := congrArg UInt8.toNat same
    rw [UInt8.toNat_ofNat'] at equal
    exact differ equal.symm
  unfold String.utf8EncodeChar at here
  dsimp only at here
  split at here
  · rename_i small
    have equal : c.val.toNat % 256 = 10 := by
      by_contra differ
      exact other _ differ (List.mem_singleton.mp here)
    have newline : c = '\n' := by
      apply Char.ext
      apply UInt32.toNat_inj.mp
      change c.val.toNat = 10
      omega
    exact one (newline ▸ listed)
  · have beyond : ∀ n : Nat, 128 ≤ n → n < 256 → (10 : UInt8) ≠ UInt8.ofNat n :=
      fun n low high => other n (by omega)
    split at here
    · simp only [List.mem_cons, List.not_mem_nil, or_false] at here
      rcases here with here | here
      · exact beyond _ (by omega) (by omega) here
      · exact beyond _ (by omega) (by omega) here
    · split at here
      · simp only [List.mem_cons, List.not_mem_nil, or_false] at here
        rcases here with here | here | here
        · exact beyond _ (by omega) (by omega) here
        · exact beyond _ (by omega) (by omega) here
        · exact beyond _ (by omega) (by omega) here
      · simp only [List.mem_cons, List.not_mem_nil, or_false] at here
        rcases here with here | here | here | here
        · exact beyond _ (by omega) (by omega) here
        · exact beyond _ (by omega) (by omega) here
        · exact beyond _ (by omega) (by omega) here
        · exact beyond _ (by omega) (by omega) here

theorem OnOneLine.append {s t : Str} (one : OnOneLine s) (two : OnOneLine t) : OnOneLine (s ++ t) :=
  ⟨by simp [one.1, two.1], by simp [one.2, two.2]⟩

/-! ### Numbers that are written out are read back -/

theorem trim_of_no_whitespace {s : Str} (plain : ∀ c ∈ s, isWhitespace c = false) : trim s = s :=
  Separated.trim_of_none plain

theorem trim_cons (white : isWhitespace c = true) (s : Str) : trim (c :: s) = trim s :=
  Separated.trim_cons white s

theorem not_isWhitespace_of_isDigit (digit : c.isDigit = true) : isWhitespace c = false := by
  obtain ⟨low, high⟩ := Char.isDigit_iff_toNat.mp digit
  have low : 48 ≤ c.toNat := low
  have high : c.toNat ≤ 57 := high
  simp only [isWhitespace, Bool.or_eq_false_iff, Bool.and_eq_false_iff, decide_eq_false_iff_not,
    beq_eq_false_iff_ne, ne_eq]
  omega

theorem trim_toDigits (n : Nat) : trim (Nat.toDigits 10 n) = Nat.toDigits 10 n := by
  apply trim_of_no_whitespace
  intro c member
  exact not_isWhitespace_of_isDigit (Nat.isDigit_of_mem_toDigits (by omega) le_rfl member)

theorem all_isDigit_toDigits (n : Nat) : (Nat.toDigits 10 n).all Char.isDigit = true := by
  rw [List.all_eq_true]
  intro c member
  exact Nat.isDigit_of_mem_toDigits (by omega) le_rfl member

theorem head_toDigits_ne_plus (n : Nat) : (Nat.toDigits 10 n).head? ≠ some '+' := by
  intro sign
  have digit := List.all_eq_true.mp (all_isDigit_toDigits n) '+' (List.mem_of_head? sign)
  cases digit

theorem foldl_toDigits (n : Nat) :
    (Nat.toDigits 10 n).foldl (fun value c => value * 10 + (c.toNat - '0'.toNat)) 0 = n := by
  have read : Nat.ofDigitChars 10 (Nat.toDigits 10 n) 0 = n :=
    Nat.ofDigitChars_toDigits (by omega) le_rfl
  simpa only [Nat.ofDigitChars, Nat.mul_comm 10] using read

theorem parseUnsigned_toDigits {bound n : Nat} (fits : n < bound) :
    parseUnsigned bound (Nat.toDigits 10 n) = some n := by
  have some : (Nat.toDigits 10 n).isEmpty = false := by
    cases written : Nat.toDigits 10 n with
    | nil => exact absurd written Nat.toDigits_ne_nil
    | cons c rest => rfl
  simp only [parseUnsigned, if_neg (head_toDigits_ne_plus n), foldl_toDigits, some,
    all_isDigit_toDigits, fits, Bool.not_true, Bool.or_self, Bool.false_eq_true, if_false, if_true]

/-! ### What is wrong with a number -/

inductive IntErrorKind where
  | empty
  | invalidDigit
  | posOverflow
  deriving DecidableEq, Repr

def IntErrorKind.message : IntErrorKind → Str
  | .empty => "cannot parse integer from empty string".toList
  | .invalidDigit => "invalid digit found in string".toList
  | .posOverflow => "number too large to fit in target type".toList

/-- The digits that are left, after those that gave `value`. -/
def readDigits (bound : Nat) : (value : Nat) → Str → Except IntErrorKind Nat
  | value, [] => .ok value
  | value, c :: rest =>
    if !c.isDigit then .error .invalidDigit
    else
      let value := value * 10 + (c.toNat - '0'.toNat)
      if value < bound then readDigits bound value rest else .error .posOverflow

/-- `str::parse` for an unsigned integer below `bound`, and what it fails with. -/
def parseInteger (bound : Nat) : Str → Except IntErrorKind Nat
  | [] => .error .empty
  | ['+'] => .error .invalidDigit
  | '+' :: digits => readDigits bound 0 digits
  | digits => readDigits bound 0 digits

theorem le_foldl_digits (digits : Str) (value : Nat) :
    value ≤ digits.foldl (fun value c => value * 10 + (c.toNat - '0'.toNat)) value := by
  induction digits generalizing value with
  | nil => exact le_rfl
  | cons c rest ih =>
    have more := ih (value * 10 + (c.toNat - '0'.toNat))
    simp only [List.foldl_cons]
    omega

theorem readDigits_eq_ok {bound value : Nat} {digits : Str}
    (decimal : digits.all Char.isDigit = true)
    (fits : digits.foldl (fun value c => value * 10 + (c.toNat - '0'.toNat)) value < bound) :
    readDigits bound value digits =
      .ok (digits.foldl (fun value c => value * 10 + (c.toNat - '0'.toNat)) value) := by
  induction digits generalizing value with
  | nil => rfl
  | cons c rest ih =>
    simp only [List.all_cons, Bool.and_eq_true] at decimal
    simp only [List.foldl_cons] at fits ⊢
    have here := lt_of_le_of_lt (le_foldl_digits rest _) fits
    simp only [readDigits, decimal.1, here, ih decimal.2 fits, Bool.not_true, Bool.false_eq_true,
      if_false, if_true]

theorem readDigits_lt {bound value n : Nat} {digits : Str} (small : value < bound)
    (result : readDigits bound value digits = .ok n) : n < bound := by
  induction digits generalizing value with
  | nil =>
    cases result
    exact small
  | cons c rest ih =>
    simp only [readDigits] at result
    split at result
    · cases result
    · split at result
      · exact ih ‹_› result
      · cases result

theorem parseInteger_lt {bound n : Nat} (some : 0 < bound) {s : Str}
    (result : parseInteger bound s = .ok n) : n < bound := by
  unfold parseInteger at result
  split at result
  · cases result
  · cases result
  · exact readDigits_lt some result
  · exact readDigits_lt some result

theorem parseInteger_toDigits {bound n : Nat} (fits : n < bound) :
    parseInteger bound (Nat.toDigits 10 n) = .ok n := by
  have sign := head_toDigits_ne_plus n
  have read : readDigits bound 0 (Nat.toDigits 10 n) = .ok n := by
    rw [readDigits_eq_ok (all_isDigit_toDigits n) (by rwa [foldl_toDigits]), foldl_toDigits]
  unfold parseInteger
  split
  · exact absurd ‹_› Nat.toDigits_ne_nil
  · simp_all
  · simp_all
  · exact read

end Text
