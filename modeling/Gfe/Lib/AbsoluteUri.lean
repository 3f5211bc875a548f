import Gfe.Lib.Text
import Mathlib.Data.List.TakeWhile

/-! # Absolute URIs

A scheme, `://`, an authority, and a path with a query. The authority ends at the first
slash, question mark or number sign, whatever it was glued from: a host and a text are read
back as the host and the path exactly if the host is one and the text begins where an
authority ends.
-/

namespace AbsoluteUri

variable {isLiteral : Text → Bool}

abbrev Text := List Char

/-- What an absolute URI with an authority says. -/
structure Parts where
  scheme : Text
  userinfo : Option Text
  host : Text
  port : Option Text
  pathAndQuery : Text
  deriving DecidableEq, Repr

def isSchemeChar (c : Char) : Bool := c.isAlphanum || ['+', '-', '.'].contains c

def isScheme : Text → Bool
  | [] => false
  | c :: rest => c.isAlpha && rest.all isSchemeChar

/-- The marks that may stand anywhere as they are, an apostrophe among them. -/
def plainMarks : Text :=
  ['-', '.', '_', '~', '!', '$', '&', '\x27', '(', ')', '*', '+', ',', ';', '=']

def isPlain (c : Char) : Bool := c.isAlphanum || plainMarks.contains c

def hexLetters : Text := ['a', 'b', 'c', 'd', 'e', 'f', 'A', 'B', 'C', 'D', 'E', 'F']

def isHexDigit (c : Char) : Bool := c.isDigit || hexLetters.contains c

/-- Allowed characters, and percent signs before two hexadecimal digits. -/
def isEncoded (allowed : Char → Bool) : Text → Bool
  | [] => true
  | '%' :: a :: b :: rest => isHexDigit a && isHexDigit b && isEncoded allowed rest
  | c :: rest => c != '%' && allowed c && isEncoded allowed rest

def endsAuthority (c : Char) : Bool := c == '/' || c == '?' || c == '#'

def isPathChar (c : Char) : Bool := isPlain c || [':', '@', '/', '?'].contains c

/-- A path and a query: nothing, or from a slash or a question mark on. -/
def isPathAndQuery : Text → Bool
  | [] => true
  | c :: rest => (c == '/' || c == '?') && isEncoded isPathChar rest

/-- A name or an IPv4 address, or in brackets what is a literal. -/
def isHost (isLiteral : Text → Bool) : Text → Bool
  | '[' :: inner =>
    let literal := inner.takeWhile (· != ']')
    literal.all (fun c => isPlain c || c == ':') && isLiteral literal &&
      inner.dropWhile (· != ']') == [']']
  | name => !name.isEmpty && isEncoded isPlain name

/-- What may be the host of an authority without userinfo, and what follows it. -/
def splitHost : Text → Text × Text
  | '[' :: inner =>
    match inner.dropWhile (· != ']') with
    | ']' :: rest => ('[' :: (inner.takeWhile (· != ']') ++ [']']), rest)
    | _ => ('[' :: inner, [])
  | text => (text.takeWhile (· != ':'), text.dropWhile (· != ':'))

/-- The port, if there is one: digits behind a colon. -/
def readPort : Text → Option (Option Text)
  | [] => some none
  | ':' :: port => if port.all Char.isDigit then some (some port) else none
  | _ => none

/-- The userinfo ends at the first `@`, if there is one. -/
def splitUserinfo (text : Text) : Option Text × Text :=
  match text.dropWhile (· != '@') with
  | '@' :: rest => (some (text.takeWhile (· != '@')), rest)
  | _ => (none, text)

def isUserinfo (text : Text) : Bool := isEncoded (fun c => isPlain c || c == ':') text

def read (isLiteral : Text → Bool) (text : Text) : Option Parts :=
  match text.dropWhile (· != ':') with
  | ':' :: '/' :: '/' :: rest => do
    let scheme := text.takeWhile (· != ':')
    let (userinfo, server) := splitUserinfo (rest.takeWhile fun c => !endsAuthority c)
    let (host, afterHost) := splitHost server
    let port ← readPort afterHost
    let pathAndQuery := rest.dropWhile fun c => !endsAuthority c
    if isScheme scheme && userinfo.all isUserinfo && isHost isLiteral host &&
        isPathAndQuery pathAndQuery then
      some ⟨scheme, userinfo, host, port, pathAndQuery⟩
    else none
  | _ => none

example : read (fun _ => true) "http://u:p@[::1]:80/a?b".toList =
    some ⟨"http".toList, some "u:p".toList, "[::1]".toList, some "80".toList, "/a?b".toList⟩ := by
  decide +kernel

/-! ## Which characters there are -/

theorem isPlain_of_isHexDigit {c : Char} (digit : isHexDigit c = true) : isPlain c = true := by
  rw [isHexDigit, Bool.or_eq_true] at digit
  rw [isPlain, Bool.or_eq_true, Char.isAlphanum, Bool.or_eq_true]
  rcases digit with digit | letter
  · exact .inl (.inr digit)
  · have listed : hexLetters.all Char.isAlpha = true := by decide
    exact .inl (.inl (List.all_eq_true.mp listed c (List.contains_iff_mem.mp letter)))

theorem mem_of_isEncoded {allowed : Char → Bool} (plain : ∀ c, isPlain c = true → allowed c = true)
    {text : Text} (encoded : isEncoded allowed text = true) :
    ∀ c ∈ text, c = '%' ∨ allowed c = true := by
  fun_induction isEncoded allowed text with
  | case1 => nofun
  | case2 a b rest ih =>
    simp only [Bool.and_eq_true] at encoded
    obtain ⟨⟨first, second⟩, others⟩ := encoded
    have digits : ∀ c ∈ a :: b :: rest, c = '%' ∨ allowed c = true := by
      simp only [List.forall_mem_cons]
      exact ⟨.inr (plain a (isPlain_of_isHexDigit first)),
        .inr (plain b (isPlain_of_isHexDigit second)), ih others⟩
    exact List.forall_mem_cons.mpr ⟨.inl rfl, digits⟩
  | case3 c rest _ ih =>
    simp only [Bool.and_eq_true] at encoded
    obtain ⟨⟨_, here⟩, others⟩ := encoded
    exact List.forall_mem_cons.mpr ⟨.inr here, ih others⟩

theorem visible_of_isPlain {c : Char} (plain : isPlain c = true) : 32 < c.toNat ∧ c.toNat < 127 :=
  Text.visible_or Text.visible_of_isAlphanum (by decide) plain

theorem visible_of_isScheme {scheme : Text} (valid : isScheme scheme = true) :
    ∀ c ∈ scheme, 32 < c.toNat ∧ c.toNat < 127 := by
  cases scheme with
  | nil => nofun
  | cons first rest =>
    rw [isScheme, Bool.and_eq_true, List.all_eq_true] at valid
    refine List.forall_mem_cons.mpr ⟨Text.visible_of_isAlphanum ?_, ?_⟩
    · rw [Char.isAlphanum, valid.1, Bool.true_or]
    · intro c later
      exact Text.visible_or Text.visible_of_isAlphanum (by decide) (valid.2 c later)

theorem visible_of_isPathAndQuery {text : Text} (valid : isPathAndQuery text = true) :
    ∀ c ∈ text, 32 < c.toNat ∧ c.toNat < 127 := by
  cases text with
  | nil => nofun
  | cons first rest =>
    rw [isPathAndQuery, Bool.and_eq_true, Bool.or_eq_true, beq_iff_eq, beq_iff_eq] at valid
    have larger : ∀ c, isPlain c = true → isPathChar c = true := by
      intro c plain
      rw [isPathChar, plain, Bool.true_or]
    refine List.forall_mem_cons.mpr ⟨?_, ?_⟩
    · rcases valid.1 with rfl | rfl
      · decide
      · decide
    · intro c later
      rcases mem_of_isEncoded larger valid.2 c later with rfl | char
      · decide
      · exact Text.visible_or visible_of_isPlain (by decide) char

def isHostChar (c : Char) : Bool := isPlain c || ['%', ':', '[', ']'].contains c

theorem isHostChar_of_isPlain {c : Char} (plain : isPlain c = true) : isHostChar c = true := by
  rw [isHostChar, plain, Bool.true_or]

theorem mem_of_isHost {host : Text}
    (valid : isHost isLiteral host = true) : ∀ c ∈ host, isHostChar c = true := by
  unfold isHost at valid
  split at valid
  · rename_i inner
    simp only [Bool.and_eq_true, List.all_eq_true, beq_iff_eq] at valid
    obtain ⟨⟨chars, _⟩, closed⟩ := valid
    have whole : inner.takeWhile (· != ']') ++ [']'] = inner := by
      rw [← closed, List.takeWhile_append_dropWhile]
    rw [← whole]
    simp only [List.forall_mem_cons, List.forall_mem_append]
    refine ⟨by decide, ?_, by decide, nofun⟩
    intro c member
    have char := chars c member
    rw [Bool.or_eq_true, beq_iff_eq] at char
    rcases char with plain | rfl
    · exact isHostChar_of_isPlain plain
    · decide
  · rw [Bool.and_eq_true] at valid
    intro c member
    rcases mem_of_isEncoded (fun _ plain => plain) valid.2 c member with rfl | plain
    · decide
    · exact isHostChar_of_isPlain plain

/-! ## Reading back -/

theorem splitHost_of_isHost {host : Text}
    (valid : isHost isLiteral host = true) : splitHost host = (host, []) := by
  unfold isHost at valid
  unfold splitHost
  split at valid
  · rename_i inner
    simp only [Bool.and_eq_true, beq_iff_eq] at valid
    have whole : inner.takeWhile (· != ']') ++ [']'] = inner := by
      rw [← valid.2, List.takeWhile_append_dropWhile]
    simp only [valid.2, whole]
  · rename_i bracketless
    rw [Bool.and_eq_true] at valid
    have colonless : ∀ c ∈ host, (c != ':') = true := by
      intro c member
      rcases mem_of_isEncoded (fun _ plain => plain) valid.2 c member with rfl | plain
      · decide
      · refine bne_iff_ne.mpr ?_
        rintro rfl
        exact absurd plain (by decide)
    rw [List.takeWhile_eq_self_iff.mpr colonless, List.dropWhile_eq_nil_iff.mpr colonless]

theorem splitUserinfo_of_isHost {host : Text}
    (valid : isHost isLiteral host = true) : splitUserinfo host = (none, host) := by
  have none : ∀ c ∈ host, (c != '@') = true := by
    intro c member
    refine bne_iff_ne.mpr ?_
    rintro rfl
    exact absurd (mem_of_isHost valid _ member) (by decide)
  rw [splitUserinfo, List.dropWhile_eq_nil_iff.mpr none]

theorem isPathAndQuery_stops {text : Text} (valid : isPathAndQuery text = true) :
    text.takeWhile (fun c => !endsAuthority c) = [] ∧
      text.dropWhile (fun c => !endsAuthority c) = text := by
  cases text with
  | nil => exact ⟨rfl, rfl⟩
  | cons c rest =>
    rw [isPathAndQuery, Bool.and_eq_true] at valid
    have stops : ¬ (!endsAuthority c) = true := by
      simp [endsAuthority, valid.1]
    exact ⟨List.takeWhile_cons_of_neg stops, List.dropWhile_cons_of_neg stops⟩

theorem colonless_of_isScheme {scheme : Text} (valid : isScheme scheme = true) :
    ∀ c ∈ scheme, (c != ':') = true := by
  intro c member
  refine bne_iff_ne.mpr ?_
  rintro rfl
  cases scheme with
  | nil => exact absurd member List.not_mem_nil
  | cons first rest =>
    rw [isScheme, Bool.and_eq_true, List.all_eq_true] at valid
    rcases List.mem_cons.mp member with rfl | later
    · exact absurd valid.1 (by decide)
    · exact absurd (valid.2 _ later) (by decide)

theorem checked_of_read {text : Text} {parts : Parts}
    (found : read isLiteral text = some parts) :
    isHost isLiteral parts.host = true ∧ isPathAndQuery parts.pathAndQuery = true := by
  unfold read at found
  split at found
  · simp only [Option.bind_eq_bind, Option.bind_eq_some_iff] at found
    obtain ⟨port, _, found⟩ := found
    split at found
    · rename_i checks
      simp only [Bool.and_eq_true] at checks
      cases found
      exact ⟨checks.1.2, checks.2⟩
    · cases found
  · cases found

section

variable {isLiteral : Text → Bool} {scheme host rest : Text}

theorem read_glued_of_checks (schemed : isScheme scheme = true) (named : isHost isLiteral host = true)
    (valid : isPathAndQuery rest = true) :
    read isLiteral (scheme ++ "://".toList ++ host ++ rest) =
      some ⟨scheme, none, host, none, rest⟩ := by
  have colonless := colonless_of_isScheme schemed
  obtain ⟨stopped, left⟩ := isPathAndQuery_stops valid
  have runs : ∀ c ∈ host, (!endsAuthority c) = true := by
    intro c member
    have char := mem_of_isHost named c member
    rw [Bool.not_eq_true', endsAuthority, Bool.or_eq_false_iff, Bool.or_eq_false_iff]
    refine ⟨⟨?_, ?_⟩, ?_⟩
    all_goals
      rw [beq_eq_false_iff_ne]
      rintro rfl
      exact absurd char (by decide)
  have text : scheme ++ "://".toList ++ host ++ rest = scheme ++ ':' :: '/' :: '/' :: (host ++ rest) := by
    simp
  have afterScheme : (scheme ++ ':' :: '/' :: '/' :: (host ++ rest)).dropWhile (· != ':') =
      ':' :: '/' :: '/' :: (host ++ rest) := by
    rw [List.dropWhile_append_of_pos colonless, List.dropWhile_cons_of_neg (by decide)]
  have schemeRead : (scheme ++ ':' :: '/' :: '/' :: (host ++ rest)).takeWhile (· != ':') = scheme := by
    rw [List.takeWhile_append_of_pos colonless, List.takeWhile_cons_of_neg (by decide),
      List.append_nil]
  rw [text, read, afterScheme]
  simp only [schemeRead, List.takeWhile_append_of_pos runs, List.dropWhile_append_of_pos runs,
    stopped, left, List.append_nil, splitUserinfo_of_isHost named, splitHost_of_isHost named,
    readPort, Option.bind_eq_bind, Option.bind_some, schemed, named, valid, Option.all_none,
    Bool.and_true, if_true]

/-- A host and a text, glued together under a scheme, are read back as the host and as the path
    and query exactly if they are ones. -/
theorem read_glued_iff (schemed : isScheme scheme = true) :
    (∃ parts, read isLiteral (scheme ++ "://".toList ++ host ++ rest) = some parts ∧
      parts.host = host ∧ parts.pathAndQuery = rest) ↔
      isHost isLiteral host = true ∧ isPathAndQuery rest = true := by
  constructor
  · rintro ⟨parts, found, rfl, rfl⟩
    exact checked_of_read found
  · rintro ⟨named, valid⟩
    exact ⟨_, read_glued_of_checks schemed named valid, rfl, rfl⟩

theorem visible_glued (schemed : isScheme scheme = true) (named : isHost isLiteral host = true)
    (valid : isPathAndQuery rest = true) :
    ∀ c ∈ scheme ++ "://".toList ++ host ++ rest, 32 < c.toNat ∧ c.toNat < 127 := by
  simp only [List.forall_mem_append]
  refine ⟨⟨⟨visible_of_isScheme schemed, by simp⟩, ?_⟩, visible_of_isPathAndQuery valid⟩
  intro c member
  exact Text.visible_or visible_of_isPlain (by decide) (mem_of_isHost named c member)

end

end AbsoluteUri
