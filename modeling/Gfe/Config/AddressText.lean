import Gfe.Config.Address

/-! # Addresses are read as they are written

The reader takes at each place the longest number it can, and looks for an embedded
IPv4 address first. What is written for an address has a separator or its end where
a number ends, and a dot only in an IPv4 address, so each group is read as it was.
-/

namespace Gfe.Address

variable {rest : Str} {radix : Nat} {groups : List Nat}

/-! ## Numbers -/

theorem toDigit_digitChar {radix digit : Nat} (small : radix ≤ 16) (lt : digit < radix) :
    toDigit radix digit.digitChar = some digit := by
  have : digit < 16 := by omega
  interval_cases digit <;> simp [toDigit, Nat.digitChar, lt]

/-- The digits of a number, as they are read. -/
def digitsOf (radix n : Nat) : List Nat := (Nat.toDigits radix n).filterMap (toDigit radix)

theorem digitsOf_eq (base : 1 < radix) (small : radix ≤ 16) (n : Nat) :
    digitsOf radix n = if n < radix then [n] else digitsOf radix (n / radix) ++ [n % radix] := by
  unfold digitsOf
  rw [Nat.toDigits_eq_if base]
  split
  · simp [toDigit_digitChar small ‹_›]
  · simp [toDigit_digitChar small (Nat.mod_lt n (by omega))]

theorem foldl_digitsOf (base : 1 < radix) (small : radix ≤ 16) (n : Nat) :
    (digitsOf radix n).foldl (fun result digit => result * radix + digit) 0 = n := by
  induction n using Nat.strong_induction_on with
  | _ n ih =>
    rw [digitsOf_eq base small]
    split
    · simp
    · have less : n / radix < n := Nat.div_lt_self (by omega) base
      simp only [List.foldl_append, ih _ less, List.foldl_cons, List.foldl_nil]
      exact Nat.div_add_mod' n radix

theorem length_digitsOf (base : 1 < radix) (small : radix ≤ 16) {n places : Nat}
    (some : 0 < places) (fits : n < radix ^ places) : (digitsOf radix n).length ≤ places := by
  induction places, some using Nat.le_induction generalizing n with
  | base =>
    rw [digitsOf_eq base small, if_pos (by simpa using fits)]
    simp
  | succ places some ih =>
    rw [digitsOf_eq base small]
    split
    · simp
    · have less : n / radix < radix ^ places := by
        apply Nat.div_lt_of_lt_mul
        rw [mul_comm, ← pow_succ]
        exact fits
      simpa using ih less

theorem digitsOf_ne_nil (base : 1 < radix) (small : radix ≤ 16) (n : Nat) :
    digitsOf radix n ≠ [] := by
  rw [digitsOf_eq base small]
  split <;> simp

theorem head_digitsOf (base : 1 < radix) (small : radix ≤ 16) {n : Nat} (some : n ≠ 0) :
    (digitsOf radix n).head? ≠ .some 0 := by
  induction n using Nat.strong_induction_on with
  | _ n ih =>
    rw [digitsOf_eq base small]
    split
    · simpa using some
    · have less : n / radix < n := Nat.div_lt_self (by omega) base
      have positive : n / radix ≠ 0 := by
        have := Nat.div_pos (show radix ≤ n by omega) (by omega)
        omega
      rw [List.head?_append_of_ne_nil _ (digitsOf_ne_nil base small _)]
      exact ih _ less positive

def EndsNumber (radix : Nat) (rest : Str) : Prop := ∀ c ∈ rest.head?, toDigit radix c = none

theorem takeDigits_append {digits rest : Str}
    (all : ∀ c ∈ digits, (toDigit radix c).isSome) (ends : EndsNumber radix rest) :
    takeDigits radix (digits ++ rest) = (digits.filterMap (toDigit radix), rest) := by
  induction digits with
  | nil =>
    cases rest with
    | nil => rfl
    | cons c rest => simp [takeDigits, ends c rfl]
  | cons c digits ih =>
    obtain ⟨digit, read⟩ := Option.isSome_iff_exists.mp (all c (by simp))
    simp [takeDigits, read, ih fun d member => all d (by simp [member])]

theorem mem_toDigits_lt (base : 1 < radix) {n : Nat} {c : Char}
    (member : c ∈ Nat.toDigits radix n) : ∃ digit < radix, c = digit.digitChar := by
  induction n using Nat.strong_induction_on with
  | _ n ih =>
    rw [Nat.toDigits_eq_if base] at member
    split at member
    · exact ⟨n, ‹_›, by simpa using member⟩
    · cases List.mem_append.mp member with
      | inl front => exact ih (n / radix) (Nat.div_lt_self (by omega) base) front
      | inr last => exact ⟨n % radix, Nat.mod_lt n (by omega), by simpa using last⟩

theorem takeDigits_toDigits (base : 1 < radix) (small : radix ≤ 16) (n : Nat)
    (ends : EndsNumber radix rest) :
    takeDigits radix (Nat.toDigits radix n ++ rest) = (digitsOf radix n, rest) := by
  apply takeDigits_append _ ends
  intro c member
  obtain ⟨digit, lt, rfl⟩ := mem_toDigits_lt base member
  simp [toDigit_digitChar small lt]

theorem readNumber_toDigits {radix places bound n : Nat} (base : 1 < radix) (small : radix ≤ 16)
    (fits : n < bound) (some : 0 < places) (short : bound ≤ radix ^ places) (allowZeroPrefix : Bool)
    (ends : EndsNumber radix rest) :
    readNumber radix places allowZeroPrefix bound (Nat.toDigits radix n ++ rest) = .some (n, rest) := by
  have length := length_digitsOf base small some (lt_of_lt_of_le fits short)
  have plain : ((digitsOf radix n).head? == .some 0 && decide (1 < (digitsOf radix n).length)) = false := by
    by_cases zero : n = 0
    · rw [zero, digitsOf_eq base small, if_pos (by omega)]
      rfl
    · simp [head_digitsOf base small zero]
  simp only [readNumber, takeDigits_toDigits base small n ends, foldl_digitsOf base small]
  rw [if_neg, if_neg, if_pos fits]
  · simp_all
  · simp [digitsOf_ne_nil base small n, length]

/-! ## IPv4 -/

theorem endsNumber_nil (radix : Nat) : EndsNumber radix [] := nofun

theorem endsNumber_dot (radix : Nat) (rest : Str) : EndsNumber radix ('.' :: rest) := by
  simp [EndsNumber, toDigit]

theorem endsNumber_colon (radix : Nat) (rest : Str) : EndsNumber radix (':' :: rest) := by
  simp [EndsNumber, toDigit]

theorem readOctet {n : Nat} (fits : n < 256) (ends : EndsNumber 10 rest) :
    readNumber 10 3 false 256 (Nat.toDigits 10 n ++ rest) = some (n, rest) :=
  readNumber_toDigits (by omega) (by omega) fits (by omega) (by omega) false ends

theorem readIpv4Addr_octets {a b c d : Nat} (one : a < 256) (two : b < 256) (three : c < 256)
    (four : d < 256) (ends : EndsNumber 10 rest) :
    readIpv4Addr (Nat.toDigits 10 a ++ '.' :: (Nat.toDigits 10 b ++ '.' ::
      (Nat.toDigits 10 c ++ '.' :: (Nat.toDigits 10 d ++ rest)))) =
      some (BitVec.ofNat 32 (((a * 256 + b) * 256 + c) * 256 + d), rest) := by
  simp [readIpv4Addr, readSeparator, readGivenChar, readOctet one (endsNumber_dot 10 _),
    readOctet two (endsNumber_dot 10 _), readOctet three (endsNumber_dot 10 _), readOctet four ends]

theorem readIpv4Addr_displayIpv4 (bits : BitVec 32) (ends : EndsNumber 10 rest) :
    readIpv4Addr (displayIpv4 bits ++ rest) = some (bits, rest) := by
  have octet (place : Nat) : bits.toNat / 256 ^ place % 256 < 256 := Nat.mod_lt _ (by omega)
  have joined : ((bits.toNat / 256 ^ 3 % 256 * 256 + bits.toNat / 256 ^ 2 % 256) * 256 +
      bits.toNat / 256 ^ 1 % 256) * 256 + bits.toNat / 256 ^ 0 % 256 = bits.toNat := by
    have := bits.isLt
    omega
  simp only [displayIpv4, List.append_assoc, List.cons_append, List.nil_append]
  rw [readIpv4Addr_octets (octet 3) (octet 2) (octet 1) (octet 0) ends, joined,
    BitVec.ofNat_toNat, BitVec.setWidth_eq]

theorem takeDigits_subset (radix : Nat) (text : Str) : (takeDigits radix text).2 ⊆ text := by
  induction text with
  | nil => simp [takeDigits]
  | cons c rest ih =>
    simp only [takeDigits]
    split
    · exact List.subset_cons_of_subset c ih
    · exact List.Subset.refl _

theorem rest_subset_of_readNumber {radix places bound value : Nat} {allowZeroPrefix : Bool}
    {text rest : Str}
    (result : readNumber radix places allowZeroPrefix bound text = some (value, rest)) :
    rest ⊆ text := by
  simp only [readNumber] at result
  split at result
  · cases result
  · split at result
    · cases result
    · split at result
      · cases result
        exact takeDigits_subset radix text
      · cases result

theorem readGivenChar_of_notMem {c : Char} {text : Str} (absent : c ∉ text) :
    readGivenChar c text = none := by
  cases text with
  | nil => rfl
  | cons d rest =>
    simp only [List.mem_cons, not_or] at absent
    simp [readGivenChar, Ne.symm absent.1]

theorem readIpv4Addr_of_no_dot {text : Str} (absent : '.' ∉ text) : readIpv4Addr text = none := by
  cases result : readNumber 10 3 false 256 text with
  | none => simp [readIpv4Addr, readSeparator, result]
  | some octet =>
    have absent : '.' ∉ octet.2 := fun member =>
      absent (rest_subset_of_readNumber result member)
    simp [readIpv4Addr, readSeparator, result, readGivenChar_of_notMem absent]

/-! ## IPv6 -/

theorem readNumber_of_no_digit {c : Char} (other : toDigit radix c = none)
    (places bound : Nat) (allowZeroPrefix : Bool) (rest : Str) :
    readNumber radix places allowZeroPrefix bound (c :: rest) = none := by
  simp [readNumber, takeDigits, other]

theorem readNumber_colon (radix places bound : Nat) (allowZeroPrefix : Bool) (rest : Str) :
    readNumber radix places allowZeroPrefix bound (':' :: rest) = none :=
  readNumber_of_no_digit (endsNumber_colon radix rest ':' rfl) places bound allowZeroPrefix rest

theorem readIpv4Addr_colon (rest : Str) : readIpv4Addr (':' :: rest) = none := by
  simp [readIpv4Addr, readSeparator, readNumber_colon]

theorem readGroup {n : Nat} (fits : n < 65536) (ends : EndsNumber 16 rest) :
    readNumber 16 4 true 65536 (Nat.toDigits 16 n ++ rest) = some (n, rest) :=
  readNumber_toDigits (by omega) (by omega) fits (by omega) (by omega) true ends

theorem dot_notMem_toDigits (n : Nat) : '.' ∉ Nat.toDigits 16 n := by
  intro member
  obtain ⟨digit, lt, same⟩ := mem_toDigits_lt (by omega) member
  have plain : ∀ digit < 16, '.' ≠ Nat.digitChar digit := by decide
  exact plain digit lt same

/-- The groups after the first. -/
def displayTail (groups : List Nat) : Str :=
  groups.flatMap fun segment => ':' :: Nat.toDigits 16 segment

theorem displayTail_cons (group : Nat) (groups : List Nat) :
    displayTail (group :: groups) = ':' :: (Nat.toDigits 16 group ++ displayTail groups) :=
  rfl

theorem dot_notMem_displayTail (groups : List Nat) : '.' ∉ displayTail groups := by
  simp [displayTail, dot_notMem_toDigits]

theorem dot_notMem_displaySegments (groups : List Nat) : '.' ∉ displaySegments groups := by
  cases groups with
  | nil => simp [displaySegments]
  | cons first tail =>
    simp [displaySegments, dot_notMem_toDigits]

/-- Where the groups of an address end: at its end, or at `::`. -/
inductive EndsGroups : Str → Prop where
  | text : EndsGroups []
  | zeroes {rest : Str} : '.' ∉ rest → EndsGroups (':' :: ':' :: rest)

theorem EndsGroups.dot_notMem (ends : EndsGroups rest) : '.' ∉ rest := by
  cases ends with
  | text => simp
  | zeroes absent => simpa using absent

theorem EndsGroups.endsNumber (ends : EndsGroups rest) : EndsNumber 16 rest := by
  cases ends with
  | text => exact endsNumber_nil 16
  | zeroes => exact endsNumber_colon 16 _

theorem EndsGroups.readSeparator {α : Type} {inner : Reader α} (ends : EndsGroups rest)
    (nothing : inner [] = none) (colon : ∀ rest, inner (':' :: rest) = none) (index : Nat) :
    readSeparator ':' index inner rest = none := by
  unfold Address.readSeparator
  cases ends with
  | text => simp [nothing, readGivenChar]
  | zeroes => simp [colon, readGivenChar]

theorem readGroups_end (ends : EndsGroups rest) (index limit : Nat) :
    readGroups index limit rest = ([], false, rest) := by
  cases limit with
  | zero => rfl
  | succ limit =>
    have v4 : readSeparator ':' index readIpv4Addr rest = none :=
      ends.readSeparator (readIpv4Addr_of_no_dot (by simp)) readIpv4Addr_colon index
    have group : readSeparator ':' index (readNumber 16 4 true 65536) rest = none :=
      ends.readSeparator rfl (readNumber_colon 16 4 65536 true) index
    simp [readGroups, v4, group]

theorem readGroups_group {index limit group : Nat} {text rest : Str} (absent : '.' ∉ text)
    (read : readSeparator ':' index (readNumber 16 4 true 65536) text = some (group, rest)) :
    readGroups index (limit + 1) text =
      (group :: (readGroups (index + 1) limit rest).1, (readGroups (index + 1) limit rest).2) := by
  have v4 : readSeparator ':' index readIpv4Addr text = none := by
    unfold readSeparator
    split
    · exact readIpv4Addr_of_no_dot absent
    · cases text with
      | nil => rfl
      | cons c text =>
        have : readIpv4Addr text = none :=
          readIpv4Addr_of_no_dot fun member => absent (List.mem_cons_of_mem c member)
        by_cases colon : c = ':' <;> simp [readGivenChar, colon, this]
  simp [readGroups, v4, read]

theorem endsNumber_displayTail (groups : List Nat) (ends : EndsGroups rest) :
    EndsNumber 16 (displayTail groups ++ rest) := by
  cases groups with
  | nil => exact ends.endsNumber
  | cons group groups => exact endsNumber_colon 16 _

theorem readGroups_displayTail (fit : ∀ group ∈ groups, group < 65536)
    (ends : EndsGroups rest) {index limit : Nat} (later : index ≠ 0)
    (room : groups.length ≤ limit) :
    readGroups index limit (displayTail groups ++ rest) = (groups, false, rest) := by
  induction groups generalizing index limit with
  | nil => exact readGroups_end ends index limit
  | cons group groups ih =>
    obtain ⟨limit, rfl⟩ := Nat.exists_eq_add_one_of_ne_zero (show limit ≠ 0 by simp at room; omega)
    have read : readSeparator ':' index (readNumber 16 4 true 65536)
        (displayTail (group :: groups) ++ rest) = some (group, displayTail groups ++ rest) := by
      rw [displayTail_cons]
      simpa [readSeparator, later, readGivenChar] using
        readGroup (fit group (by simp)) (endsNumber_displayTail groups ends)
    have absent : '.' ∉ displayTail (group :: groups) ++ rest := by
      simp [dot_notMem_displayTail, ends.dot_notMem]
    rw [readGroups_group absent read, ih (fun next member => fit next (by simp [member])) (by omega)
      (by simpa using room)]

theorem readGroups_displaySegments (fit : ∀ group ∈ groups, group < 65536)
    (ends : EndsGroups rest) {limit : Nat} (room : groups.length ≤ limit) :
    readGroups 0 limit (displaySegments groups ++ rest) = (groups, false, rest) := by
  cases groups with
  | nil => exact readGroups_end ends 0 limit
  | cons group groups =>
    obtain ⟨limit, rfl⟩ := Nat.exists_eq_add_one_of_ne_zero (show limit ≠ 0 by simp at room; omega)
    have shown : displaySegments (group :: groups) ++ rest =
        Nat.toDigits 16 group ++ (displayTail groups ++ rest) := List.append_assoc _ _ _
    have absent : '.' ∉ displaySegments (group :: groups) ++ rest := by
      simp [dot_notMem_displaySegments, ends.dot_notMem]
    have read : readSeparator ':' 0 (readNumber 16 4 true 65536)
        (displaySegments (group :: groups) ++ rest) = some (group, displayTail groups ++ rest) := by
      rw [shown]
      exact readGroup (fit group (by simp)) (endsNumber_displayTail groups ends)
    rw [readGroups_group absent read, readGroups_displayTail
      (fun next member => fit next (by simp [member])) ends (by omega) (by simpa using room)]

/-! ## The zeroes that are left out -/

def Span.Zero (groups : List Nat) (span : Span) : Prop :=
  ∀ index, span.start ≤ index → index < span.start + span.len → groups[index]? = some 0

theorem longestZeroes_zero {index : Nat} {longest current : Span} {rest : List Nat}
    (left : groups.drop index = rest) (known : longest.Zero groups) (going : current.Zero groups)
    (here : current.len = 0 ∨ current.start + current.len = index) :
    (longestZeroes index longest current rest).Zero groups := by
  induction rest generalizing index longest current with
  | nil => exact known
  | cons segment rest ih =>
    have next : groups.drop (index + 1) = rest := by
      rw [← List.tail_drop, left]
      rfl
    have this : groups[index]? = some segment := by
      rw [← List.head?_drop, left]
      rfl
    simp only [longestZeroes]
    split
    · have more : Span.Zero groups
          ⟨if current.len = 0 then index else current.start, current.len + 1⟩ := by
        intro place low high
        by_cases last : place = index
        · rw [last, this, ‹segment = 0›]
        · simp only at low high
          split at low <;> split at high
          · omega
          · contradiction
          · contradiction
          · exact going place low (by omega)
      apply ih next _ more
      · right
        simp only
        split <;> omega
      · split
        · exact more
        · exact known
    · exact ih next known (fun place low high => absurd high (by simp)) (.inl rfl)

theorem Span.Zero.within {span : Span} (zero : span.Zero groups)
    (some : 0 < span.len) : span.start + span.len ≤ groups.length := by
  have last := zero (span.start + span.len - 1) (by omega) (by omega)
  have := (List.getElem?_eq_some_iff.mp last).1
  omega

/-- Zeroes stand for the groups that are left out. -/
theorem Span.Zero.joined {span : Span} (zero : span.Zero groups)
    (within : span.start + span.len ≤ groups.length) :
    groups.take span.start ++ List.replicate span.len 0 ++ groups.drop (span.start + span.len) =
      groups := by
  have middle : (groups.drop span.start).take span.len = List.replicate span.len 0 := by
    apply List.eq_replicate_iff.mpr
    constructor
    · simp
      omega
    · intro group member
      obtain ⟨index, found⟩ := List.getElem?_of_mem member
      rw [List.getElem?_take] at found
      split at found
      · rw [List.getElem?_drop, zero _ (by omega) (by omega)] at found
        exact (Option.some.inj found).symm
      · cases found
  rw [← middle, ← List.take_add, List.take_append_drop]

/-! ## Addresses -/

theorem length_segments (bits : BitVec 128) : (segments bits).length = 8 := by
  simp [segments]

theorem segments_lt (bits : BitVec 128) : ∀ group ∈ segments bits, group < 65536 := by
  intro group member
  simp only [segments, List.mem_map] at member
  obtain ⟨index, _, rfl⟩ := member
  exact Nat.mod_lt _ (by omega)

theorem ofGroups_segments (bits : BitVec 128) : ofGroups (segments bits) = bits := by
  have := bits.isLt
  apply BitVec.eq_of_toNat_eq
  simp only [ofGroups, segments, List.range_succ, List.range_zero, List.nil_append, List.cons_append, List.map_cons, List.map_nil,
    List.foldl_cons, List.foldl_nil, BitVec.toNat_ofNat]
  omega

theorem segments_of_mapped {bits : BitVec 128}
    (mapped : (segments bits).take 6 = [0, 0, 0, 0, 0, 0xffff]) :
    segments bits = List.replicate 5 0 ++ [65535, (bits.setWidth 32).toNat / 65536,
      (bits.setWidth 32).toNat % 65536] := by
  have last : (segments bits).drop 6 = [(bits.setWidth 32).toNat / 65536,
      (bits.setWidth 32).toNat % 65536] := by
    have high : bits.toNat % 2 ^ 32 / 65536 = bits.toNat / 65536 % 65536 := by omega
    have low : bits.toNat % 2 ^ 32 % 65536 = bits.toNat % 65536 := by omega
    rw [BitVec.toNat_setWidth, high, low]
    simp [segments, List.range_succ]
  rw [← List.take_append_drop 6 (segments bits), mapped, last]
  rfl

theorem readIpv6Addr_groups (fit : ∀ group ∈ groups, group < 65536)
    (all : groups.length = 8) : readIpv6Addr (displaySegments groups) = some (ofGroups groups, []) := by
  have read := readGroups_displaySegments fit .text all.le
  rw [List.append_nil] at read
  simp [readIpv6Addr, read, all]

theorem readIpv6Addr_zeroes {head tail : List Nat} (before : ∀ group ∈ head, group < 65536)
    (after : ∀ group ∈ tail, group < 65536) (fewer : head.length + tail.length < 8) :
    readIpv6Addr (displaySegments head ++ [':', ':'] ++ displaySegments tail) =
      some (ofGroups (head ++ List.replicate (8 - (head.length + tail.length)) 0 ++ tail), []) := by
  have ends : EndsGroups (':' :: ':' :: displaySegments tail) :=
    .zeroes (dot_notMem_displaySegments tail)
  have first : readGroups 0 8 (displaySegments head ++ ':' :: ':' :: displaySegments tail) =
      (head, false, ':' :: ':' :: displaySegments tail) :=
    readGroups_displaySegments before ends (by omega)
  have second : readGroups 0 (7 - head.length) (displaySegments tail) = (tail, false, []) := by
    have read := readGroups_displaySegments after .text (show tail.length ≤ 7 - head.length by omega)
    rwa [List.append_nil] at read
  have short : head.length ≠ 8 := by omega
  simp [readIpv6Addr, first, second, short, readGivenChar]

theorem readIpv6Addr_mapped (v4 : BitVec 32) :
    readIpv6Addr ([':', ':', 'f', 'f', 'f', 'f', ':'] ++ displayIpv4 v4) =
      some (ofGroups (List.replicate 5 0 ++ [65535, v4.toNat / 65536, v4.toNat % 65536]), []) := by
  have first (rest : Str) : readGroups 0 8 (':' :: rest) = ([], false, ':' :: rest) := by
    simp [readGroups, readSeparator, readIpv4Addr_colon, readNumber_colon]
  have embedded : readIpv4Addr (displayIpv4 v4) = some (v4, []) := by
    have read := readIpv4Addr_displayIpv4 v4 (endsNumber_nil 10)
    rwa [List.append_nil] at read
  have name (rest : Str) : readIpv4Addr ('f' :: rest) = none := by
    have letter : toDigit 10 'f' = none := by decide
    simp [readIpv4Addr, readSeparator, readNumber_of_no_digit letter]
  have marked : readNumber 16 4 true 65536 ('f' :: 'f' :: 'f' :: 'f' :: ':' :: displayIpv4 v4) =
      some (65535, ':' :: displayIpv4 v4) :=
    readGroup (n := 65535) (by omega) (endsNumber_colon 16 _)
  have second : readGroups 0 7 ('f' :: 'f' :: 'f' :: 'f' :: ':' :: displayIpv4 v4) =
      ([65535, v4.toNat / 65536, v4.toNat % 65536], true, []) := by
    simp [readGroups, readSeparator, readGivenChar, name, marked, embedded]
  simp [readIpv6Addr, first, second, readGivenChar]

theorem readIpv6Addr_displayIpv6 (bits : BitVec 128) :
    readIpv6Addr (displayIpv6 bits) = some (bits, []) := by
  have fit := segments_lt bits
  have all := length_segments bits
  have whole := ofGroups_segments bits
  unfold displayIpv6
  dsimp only
  split
  · rw [readIpv6Addr_mapped, ← segments_of_mapped ‹_›, whole]
  · split
    · have zero : (longestZeroes 0 ⟨0, 0⟩ ⟨0, 0⟩ (segments bits)).Zero (segments bits) :=
        longestZeroes_zero rfl (fun index low high => absurd high (by simp))
          (fun index low high => absurd high (by simp)) (.inl rfl)
      generalize longestZeroes 0 ⟨0, 0⟩ ⟨0, 0⟩ (segments bits) = span at *
      have within := zero.within (by omega)
      rw [readIpv6Addr_zeroes (fun group member => fit group (List.mem_of_mem_take member))
        (fun group member => fit group (List.mem_of_mem_drop member)) (by simp; omega)]
      have length : 8 - (((segments bits).take span.start).length +
          ((segments bits).drop (span.start + span.len)).length) = span.len := by
        simp
        omega
      rw [length, zero.joined within, whole]
    · rw [readIpv6Addr_groups fit all, whole]

theorem readIpv4Addr_displayIpv6 (bits : BitVec 128) : readIpv4Addr (displayIpv6 bits) = none := by
  unfold displayIpv6
  dsimp only
  split
  · exact readIpv4Addr_colon _
  · apply readIpv4Addr_of_no_dot
    split <;> simp [dot_notMem_displaySegments]

/-- An address is read as what it was written for. -/
theorem parseIpAddr_displayIpAddr (address : IpAddr) :
    parseIpAddr (displayIpAddr address) = some address := by
  unfold parseIpAddr parseWith
  cases address with
  | v4 bits =>
    have read := readIpv4Addr_displayIpv4 bits (endsNumber_nil 10)
    rw [List.append_nil] at read
    simp [displayIpAddr, read]
  | v6 bits =>
    simp [displayIpAddr, readIpv4Addr_displayIpv6, readIpv6Addr_displayIpv6]

end Gfe.Address
