import Gfe.Config.Types

/-! # Address literals

The standard library's reader of IP address literals, which decides whether an
upstream's host is an address or a name, and whether its authority is written
in brackets. A reader takes a front part of the text and returns the rest, or
fails without consuming anything. Then how addresses are written.
-/

namespace Gfe.Address

/-- A reader of a front part of the text. -/
abbrev Reader (α : Type) := Str → Option (α × Str)

def toDigit (radix : Nat) (c : Char) : Option Nat :=
  let value :=
    if c.isDigit then some (c.toNat - '0'.toNat)
    else if 'a' ≤ c ∧ c ≤ 'f' then some (c.toNat - 'a'.toNat + 10)
    else if 'A' ≤ c ∧ c ≤ 'F' then some (c.toNat - 'A'.toNat + 10)
    else none
  value.filter (· < radix)

def readGivenChar (c : Char) : Reader Unit
  | d :: rest => if d == c then some ((), rest) else none
  | [] => none

/-- The digits at the front, most significant first, and what follows them. -/
def takeDigits (radix : Nat) : Str → List Nat × Str
  | [] => ([], [])
  | c :: rest =>
    match toDigit radix c with
    | some digit => (digit :: (takeDigits radix rest).1, (takeDigits radix rest).2)
    | none => ([], c :: rest)

/-- A number below `bound`, of at most `maxDigits` digits. -/
def readNumber (radix maxDigits : Nat) (allowZeroPrefix : Bool) (bound : Nat) : Reader Nat
  | text =>
    let (digits, rest) := takeDigits radix text
    let value := digits.foldl (fun result digit => result * radix + digit) 0
    if digits.isEmpty || digits.length > maxDigits then none
    else if !allowZeroPrefix && digits.head? == some 0 && digits.length > 1 then none
    else if value < bound then some (value, rest)
    else none

/-- What stands at position `index` of a separated sequence. -/
def readSeparator {α : Type} (separator : Char) (index : Nat) (inner : Reader α) : Reader α
  | text =>
    if index == 0 then inner text
    else (readGivenChar separator text).bind fun (_, rest) => inner rest

def readIpv4Addr : Reader (BitVec 32)
  | text => do
    let octet := readNumber 10 3 false 256
    let (a, text) ← readSeparator '.' 0 octet text
    let (b, text) ← readSeparator '.' 1 octet text
    let (c, text) ← readSeparator '.' 2 octet text
    let (d, text) ← readSeparator '.' 3 octet text
    return (BitVec.ofNat 32 (((a * 256 + b) * 256 + c) * 256 + d), text)

/-- At most `limit` groups of an IPv6 address, from position `index` on, and
    whether they end in an embedded IPv4 address. -/
def readGroups (index : Nat) : (limit : Nat) → Str → List Nat × Bool × Str
  | 0, text => ([], false, text)
  | limit + 1, text =>
    -- an embedded IPv4 address takes two groups
    match if 0 < limit then readSeparator ':' index readIpv4Addr text else none with
    | some (v4, rest) => ([v4.toNat / 65536, v4.toNat % 65536], true, rest)
    | none =>
      match readSeparator ':' index (readNumber 16 4 true 65536) text with
      | some (group, rest) =>
        let (groups, embedded, rest) := readGroups (index + 1) limit rest
        (group :: groups, embedded, rest)
      | none => ([], false, text)

def ofGroups (groups : List Nat) : BitVec 128 :=
  BitVec.ofNat 128 (groups.foldl (fun value group => value * 65536 + group) 0)

def readIpv6Addr : Reader (BitVec 128)
  | text => do
    let (head, embedded, text) := readGroups 0 8 text
    if head.length == 8 then return (ofGroups head, text)
    -- an embedded IPv4 address is not allowed before `::`
    if embedded then none
    let (_, text) ← readGivenChar ':' text
    let (_, text) ← readGivenChar ':' text
    let (tail, _, text) := readGroups 0 (8 - (head.length + 1)) text
    let zeroes := List.replicate (8 - (head.length + tail.length)) 0
    return (ofGroups (head ++ zeroes ++ tail), text)

/-- The whole text, or nothing. -/
def parseWith {α : Type} (reader : Reader α) (text : Str) : Option α :=
  match reader text with
  | some (value, []) => some value
  | _ => none

def parseIpv6Addr (text : Str) : Option (BitVec 128) := parseWith readIpv6Addr text

def parseIpAddr (text : Str) : Option IpAddr :=
  parseWith (fun text =>
    match readIpv4Addr text with
    | some (v4, rest) => some (.v4 v4, rest)
    | none => (readIpv6Addr text).map fun (v6, rest) => (.v6 v6, rest)) text

example : parseIpAddr ['1', '0', '.', '0', '.', '0', '.', '7'] = some (.v4 0x0a000007#32) := by decide

example : parseIpAddr ['1', '0', '.', '0', '.', '0', '.', '0', '7'] = none := by decide

example : parseIpAddr ['2', '0', '0', '1', ':', ':', '1'] =
    some (.v6 0x20010000000000000000000000000001#128) := by decide

/-! ## Writing -/

def displayIpv4 (bits : BitVec 32) : Str :=
  let octet (place : Nat) := Nat.toDigits 10 (bits.toNat / 256 ^ place % 256)
  octet 3 ++ ['.'] ++ octet 2 ++ ['.'] ++ octet 1 ++ ['.'] ++ octet 0

/-- The eight groups of an IPv6 address. -/
def segments (bits : BitVec 128) : List Nat :=
  (List.range 8).map fun index => bits.toNat / 65536 ^ (7 - index) % 65536

/-- A run of groups. -/
structure Span where
  start : Nat
  len : Nat
  deriving DecidableEq

/-- The first longest run of zeroes, with the run that goes on. -/
def longestZeroes : (index : Nat) → (longest current : Span) → List Nat → Span
  | _, longest, _, [] => longest
  | index, longest, current, segment :: rest =>
    if segment = 0 then
      let current := ⟨if current.len = 0 then index else current.start, current.len + 1⟩
      longestZeroes (index + 1) (if longest.len < current.len then current else longest) current
        rest
    else longestZeroes (index + 1) longest ⟨0, 0⟩ rest

def displaySegments : List Nat → Str
  | [] => []
  | first :: tail => Nat.toDigits 16 first ++ tail.flatMap fun segment => ':' :: Nat.toDigits 16 segment

def displayIpv6 (bits : BitVec 128) : Str :=
  let groups := segments bits
  if groups.take 6 = [0, 0, 0, 0, 0, 0xffff] then
    [':', ':', 'f', 'f', 'f', 'f', ':'] ++ displayIpv4 (bits.setWidth 32)
  else
    let zeroes := longestZeroes 0 ⟨0, 0⟩ ⟨0, 0⟩ groups
    if 1 < zeroes.len then
      displaySegments (groups.take zeroes.start) ++ [':', ':'] ++
        displaySegments (groups.drop (zeroes.start + zeroes.len))
    else displaySegments groups

/-- `IpAddr`'s `Display`. -/
def displayIpAddr : IpAddr → Str
  | .v4 bits => displayIpv4 bits
  | .v6 bits => displayIpv6 bits

/-- `SocketAddr`'s `Display`. -/
def displaySocketAddr (address : SocketAddr) : Str :=
  let port := Nat.toDigits 10 address.port.toNat
  match address.ip with
  | .v4 bits => displayIpv4 bits ++ [':'] ++ port
  | .v6 bits => ['['] ++ displayIpv6 bits ++ [']', ':'] ++ port

example : displayIpv6 0x20010db8000000000001000000000001#128 =
    ['2', '0', '0', '1', ':', 'd', 'b', '8', ':', ':', '1', ':', '0', ':', '0', ':', '1'] := by
  decide +kernel

example : displaySocketAddr ⟨.v4 0x0a000007#32, 443⟩ =
    ['1', '0', '.', '0', '.', '0', '.', '7', ':', '4', '4', '3'] := by decide +kernel

open Text

def IsAddressChar (c : Char) : Prop := (∃ d, c = Nat.digitChar d) ∨ c = '.' ∨ c = ':'

theorem isAddressChar_toDigits {base n : Nat} {c : Char} (member : c ∈ Nat.toDigits base n) :
    IsAddressChar c :=
  .inl (mem_toDigits member)

theorem IsAddressChar.visible {c : Char} (listed : IsAddressChar c) :
    32 < c.toNat ∧ c.toNat < 127 ∧ c ≠ ',' := by
  rcases listed with ⟨d, rfl⟩ | rfl | rfl
  · exact digitChar_visible d
  · decide
  · decide

theorem isAddressChar_displayIpv4 (bits : BitVec 32) : ∀ c ∈ displayIpv4 bits, IsAddressChar c := by
  intro c member
  simp only [displayIpv4, List.mem_append, List.mem_singleton] at member
  rcases member with (((((digit | dot) | digit) | dot) | digit) | dot) | digit
  all_goals first
    | exact isAddressChar_toDigits digit
    | exact .inr (.inl dot)

theorem isAddressChar_displaySegments (chunk : List Nat) :
    ∀ c ∈ displaySegments chunk, IsAddressChar c := by
  cases chunk with
  | nil => simp [displaySegments]
  | cons first tail =>
    intro c member
    simp only [displaySegments, List.mem_append, List.mem_flatMap, List.mem_cons] at member
    rcases member with digit | ⟨segment, _, colon | digit⟩
    · exact isAddressChar_toDigits digit
    · exact .inr (.inr colon)
    · exact isAddressChar_toDigits digit

theorem isAddressChar_displayIpv6 (bits : BitVec 128) :
    ∀ c ∈ displayIpv6 bits, IsAddressChar c := by
  have colon : ∀ c ∈ [':', ':'], IsAddressChar c := by simp [IsAddressChar]
  have mapped : ∀ c ∈ [':', ':', 'f', 'f', 'f', 'f', ':'], IsAddressChar c := by
    have letter : IsAddressChar 'f' := .inl ⟨15, rfl⟩
    have colon : IsAddressChar ':' := .inr (.inr rfl)
    simp [letter, colon]
  unfold displayIpv6
  dsimp only
  split
  · exact List.forall_mem_append.mpr ⟨mapped, isAddressChar_displayIpv4 _⟩
  · split
    · exact List.forall_mem_append.mpr ⟨List.forall_mem_append.mpr
        ⟨isAddressChar_displaySegments _, colon⟩, isAddressChar_displaySegments _⟩
    · exact isAddressChar_displaySegments _

theorem isAddressChar_displayIpAddr (address : IpAddr) :
    ∀ c ∈ displayIpAddr address, IsAddressChar c := by
  cases address with
  | v4 bits => exact isAddressChar_displayIpv4 bits
  | v6 bits => exact isAddressChar_displayIpv6 bits

theorem onOneLine_of_isAddressChar {text : Str} (listed : ∀ c ∈ text, IsAddressChar c) :
    OnOneLine text := by
  constructor
  · intro member
    exact absurd (listed _ member).visible.1 (by decide)
  · intro member
    exact absurd (listed _ member).visible.1 (by decide)

theorem onOneLine_displaySocketAddr (address : SocketAddr) :
    OnOneLine (displaySocketAddr address) := by
  unfold displaySocketAddr
  cases address.ip with
  | v4 bits =>
    have host := onOneLine_of_isAddressChar (isAddressChar_displayIpv4 bits)
    have colon : OnOneLine [':'] := by decide
    exact (host.append colon).append (onOneLine_toDigits 10 _)
  | v6 bits =>
    have host := onOneLine_of_isAddressChar (isAddressChar_displayIpv6 bits)
    have opening : OnOneLine ['['] := by decide
    have closing : OnOneLine [']', ':'] := by decide
    exact ((opening.append host).append closing).append (onOneLine_toDigits 10 _)

end Gfe.Address
