import Gfe.Lib.Text

/-! # Parameters in a header value

Pairs `name=value` between semicolons, as several HTTP headers have them. A name is a
token; a value is a token too, or a quoted string, which may hold anything, semicolons
included. Pairs of tokens are read back as they were written.
-/

namespace Parameters

variable {pair : Text × Text} {pairs : List (Text × Text)}

abbrev Text := List Char

/-- The marks a token may have, an apostrophe and a backtick among them. -/
def tokenMarks : Text :=
  ['!', '#', '$', '%', '&', '\x27', '*', '+', '-', '.', '^', '_', '\x60', '|', '~']

def isTokenChar (c : Char) : Bool := c.isAlphanum || tokenMarks.contains c

def isToken (text : Text) : Bool := !text.isEmpty && text.all isTokenChar

/-- Where a reader is with quoted strings. -/
inductive Quoting where
  | outside
  | inside
  /-- After a backslash. -/
  | escaped

def Quoting.next : Quoting → Char → Quoting
  | .outside, '"' => .inside
  | .inside, '"' => .outside
  | .inside, '\\' => .escaped
  | .escaped, _ => .inside
  | quoting, _ => quoting

/-- What stands between the semicolons that are not quoted. -/
def split : Quoting → Text → List Text
  | _, [] => [[]]
  | .outside, ';' :: rest => [] :: split .outside rest
  | quoting, c :: rest =>
    match split (quoting.next c) rest with
    | part :: parts => (c :: part) :: parts
    | [] => [[c]]

/-- The content of a quoted string, from behind its opening quote to the end. -/
def unquote : Text → Option Text
  | ['"'] => some []
  | '"' :: _ => none
  | '\\' :: c :: rest => (unquote rest).map (c :: ·)
  | ['\\'] => none
  | c :: rest => (unquote rest).map (c :: ·)
  | [] => none

def readValue : Text → Option Text
  | '"' :: rest => unquote rest
  | text => if isToken text then some text else none

def readPair (part : Text) : Option (Text × Text) :=
  match part.dropWhile isTokenChar with
  | '=' :: value =>
    let name := part.takeWhile isTokenChar
    if name.isEmpty then none else (readValue value).map (name, ·)
  | _ => none

/-- The pairs of a value. Nothing need stand between two semicolons. -/
def parse (text : Text) : Option (List (Text × Text)) :=
  ((split .outside text).filter (· ≠ [])).mapM readPair

example : parse ['a', '=', '"', ';', '\\', '"', '"', ';', ';', 'b', '=', 'c'] =
    some [(['a'], [';', '"']), (['b'], ['c'])] := by decide

/-! ## Reading back -/

def writePair (pair : Text × Text) : Text := pair.1 ++ '=' :: pair.2

/-- A first pair, and others behind semicolons. -/
def write (first : Text × Text) (rest : List (Text × Text)) : Text :=
  writePair first ++ rest.flatMap fun pair => ';' :: writePair pair

theorem isToken_iff {text : Text} :
    isToken text = true ↔ text ≠ [] ∧ ∀ c ∈ text, isTokenChar c = true := by
  simp [isToken]

theorem visible_of_isTokenChar {c : Char} (token : isTokenChar c = true) :
    32 < c.toNat ∧ c.toNat < 127 :=
  Text.visible_or Text.visible_of_isAlphanum (by decide) token

/-- Neither quotes nor semicolons. -/
def Unquoted (text : Text) : Prop := ∀ c ∈ text, c ≠ '"' ∧ c ≠ ';'

theorem unquoted_of_isToken {text : Text} (token : isToken text = true) : Unquoted text := by
  intro c member
  have char := (isToken_iff.mp token).2 c member
  constructor
  · rintro rfl
    exact absurd char (by decide)
  · rintro rfl
    exact absurd char (by decide)

theorem split_cons {c : Char} (plain : c ≠ '"' ∧ c ≠ ';') (rest : Text) :
    split .outside (c :: rest) =
      match split .outside rest with
      | part :: parts => (c :: part) :: parts
      | [] => [[c]] := by
  have stays : Quoting.outside.next c = .outside := by
    unfold Quoting.next
    split <;> simp_all
  rw [split, stays]
  exact fun _ => plain.2

theorem split_unquoted {part : Text} (plain : Unquoted part) : split .outside part = [part] := by
  induction part with
  | nil => rfl
  | cons c part ih =>
    obtain ⟨here, rest⟩ := List.forall_mem_cons.mp plain
    rw [split_cons here, ih rest]

theorem split_append {part : Text} (plain : Unquoted part) (rest : Text) :
    split .outside (part ++ ';' :: rest) = part :: split .outside rest := by
  induction part with
  | nil => rfl
  | cons c part ih =>
    obtain ⟨here, later⟩ := List.forall_mem_cons.mp plain
    rw [List.cons_append, split_cons here, ih later]

theorem unquoted_writePair (name : isToken pair.1 = true)
    (value : Unquoted pair.2) : Unquoted (writePair pair) := by
  intro c member
  rcases List.mem_append.mp member with inName | inValue
  · exact unquoted_of_isToken name c inName
  · rcases List.mem_cons.mp inValue with rfl | inValue
    · decide
    · exact value c inValue

theorem readPair_append {name : Text} (token : isToken name = true) (value : Text) :
    readPair (name ++ '=' :: value) = (readValue value).map (name, ·) := by
  obtain ⟨some, chars⟩ := isToken_iff.mp token
  have stop : isTokenChar '=' = false := by decide
  have before : (name ++ '=' :: value).takeWhile isTokenChar = name := by
    rw [List.takeWhile_append_of_pos chars, List.takeWhile_cons_of_neg (by simp [stop]),
      List.append_nil]
  have after : (name ++ '=' :: value).dropWhile isTokenChar = '=' :: value := by
    rw [List.dropWhile_append_of_pos chars, List.dropWhile_cons_of_neg (by simp [stop])]
  simp only [readPair, before, after]
  rw [if_neg (by simpa using some)]

theorem readValue_of_isToken {value : Text} (token : isToken value = true) :
    readValue value = some value := by
  unfold readValue
  split
  · rename_i rest
    exact absurd ((isToken_iff.mp token).2 '"' List.mem_cons_self) (by decide)
  · rw [if_pos token]

theorem readPair_write (name : isToken pair.1 = true)
    (value : isToken pair.2 = true) : readPair (writePair pair) = some pair := by
  rw [writePair, readPair_append name, readValue_of_isToken value]
  rfl

theorem writePair_ne_nil (pair : Text × Text) : writePair pair ≠ [] := by simp [writePair]

theorem split_write {first : Text × Text} {rest : List (Text × Text)}
    (tokens : ∀ pair ∈ first :: rest, isToken pair.1 = true ∧ isToken pair.2 = true) :
    split .outside (write first rest) = (first :: rest).map writePair := by
  induction rest generalizing first with
  | nil =>
    obtain ⟨name, value⟩ := tokens first List.mem_cons_self
    rw [write, List.flatMap_nil, List.append_nil, split_unquoted (unquoted_writePair name (unquoted_of_isToken value))]
    rfl
  | cons second rest ih =>
    obtain ⟨⟨name, value⟩, others⟩ := List.forall_mem_cons.mp tokens
    rw [write, List.flatMap_cons, List.cons_append,
      split_append (unquoted_writePair name (unquoted_of_isToken value)), ← write, ih others]
    rfl

theorem mapM_readPair
    (tokens : ∀ pair ∈ pairs, isToken pair.1 = true ∧ isToken pair.2 = true) :
    (pairs.map writePair).mapM readPair = some pairs := by
  induction pairs with
  | nil => rfl
  | cons pair rest ih =>
    obtain ⟨⟨name, value⟩, others⟩ := List.forall_mem_cons.mp tokens
    rw [List.map_cons, List.mapM_cons, readPair_write name value, ih others]
    rfl

/-- Pairs of tokens are read as they were written. -/
theorem parse_write {first : Text × Text} {rest : List (Text × Text)}
    (tokens : ∀ pair ∈ first :: rest, isToken pair.1 = true ∧ isToken pair.2 = true) :
    parse (write first rest) = some (first :: rest) := by
  have kept : ((first :: rest).map writePair).filter (· ≠ []) = (first :: rest).map writePair := by
    rw [List.filter_eq_self]
    intro part member
    obtain ⟨pair, _, rfl⟩ := List.mem_map.mp member
    simpa using writePair_ne_nil pair
  rw [parse, split_write tokens, kept, mapM_readPair tokens]

/-! ## Where what is read stood -/

theorem split_eq_cons (quoting : Quoting) (text : Text) :
    ∃ part parts, split quoting text = part :: parts ∧ (∃ rest, text = part ++ rest) ∧
      (part = [] → text.head?.all (· = ';')) := by
  induction text generalizing quoting with
  | nil => exact ⟨[], [], by rw [split], ⟨[], rfl⟩, fun _ => rfl⟩
  | cons c text ih =>
    by_cases ends : quoting = .outside ∧ c = ';'
    · obtain ⟨rfl, rfl⟩ := ends
      exact ⟨[], _, rfl, ⟨_, rfl⟩, fun _ => rfl⟩
    · obtain ⟨part, parts, same, ⟨rest, rfl⟩, _⟩ := ih (quoting.next c)
      refine ⟨c :: part, parts, ?_, ⟨rest, rfl⟩, nofun⟩
      rw [split, same]
      exact fun outside semicolon => ends ⟨outside, semicolon⟩

theorem mem_of_mem_split {quoting : Quoting} {text part : Text} (split : part ∈ split quoting text) :
    ∀ c ∈ part, c ∈ text := by
  induction text generalizing quoting part with
  | nil => simp_all [Parameters.split]
  | cons c text ih =>
    by_cases ends : quoting = .outside ∧ c = ';'
    · obtain ⟨rfl, rfl⟩ := ends
      rw [Parameters.split, List.mem_cons] at split
      intro d member
      obtain rfl | later := split
      · cases member
      · exact .tail _ (ih later d member)
    · obtain ⟨first, parts, same, _⟩ := split_eq_cons (quoting.next c) text
      rw [Parameters.split, same] at split
      · intro d member
        obtain rfl | later := List.mem_cons.mp split
        · obtain rfl | member := List.mem_cons.mp member
          · exact .head _
          · exact .tail _ (ih (by rw [same]; exact .head _) d member)
        · exact .tail _ (ih (by rw [same]; exact .tail _ later) d member)
      · exact fun outside semicolon => ends ⟨outside, semicolon⟩

/-- A quoted string ends in its closing quote, and is longer than its content. -/
theorem unquote_eq_some {text content : Text} (read : unquote text = some content) :
    text.getLast? = some '"' ∧ content.length < text.length ∧ ∀ c ∈ content, c ∈ text := by
  fun_induction unquote text generalizing content with
  | case1 => simp_all
  | case2 => simp_all
  | case3 c rest ih =>
    obtain ⟨inner, found, rfl⟩ := Option.map_eq_some_iff.mp read
    obtain ⟨last, longer, inside⟩ := ih found
    cases rest with
    | nil => cases last
    | cons d rest =>
      refine ⟨by simpa using last, by simpa using Nat.lt_succ_of_lt longer, ?_⟩
      grind
  | case4 => simp_all
  | case5 c rest _ _ _ _ ih =>
    obtain ⟨inner, found, rfl⟩ := Option.map_eq_some_iff.mp read
    obtain ⟨last, longer, inside⟩ := ih found
    cases rest with
    | nil => cases last
    | cons d rest =>
      refine ⟨by simpa using last, by simpa using longer, ?_⟩
      grind
  | case6 => simp_all

theorem readValue_eq_some {text value : Text} (read : readValue text = some value) :
    (isToken text = true ∧ value = text) ∨
      ∃ rest, text = '"' :: rest ∧ unquote rest = some value := by
  unfold readValue at read
  split at read
  · exact .inr ⟨_, rfl, read⟩
  · obtain ⟨token, same⟩ := Option.ite_none_right_eq_some.mp read
    exact .inl ⟨token, (Option.some.inj same).symm⟩

theorem readPair_eq_some {part : Text} (read : readPair part = some pair) :
    ∃ value, part = pair.1 ++ '=' :: value ∧ (∀ c ∈ pair.1, isTokenChar c = true) ∧
      readValue value = some pair.2 := by
  unfold readPair at read
  split at read
  · rename_i value after
    dsimp only at read
    split at read
    · cases read
    · obtain ⟨content, found, rfl⟩ := Option.map_eq_some_iff.mp read
      refine ⟨value, ?_, fun c member => List.mem_takeWhile_imp member, found⟩
      rw [← after, List.takeWhile_append_dropWhile]
  · cases read

theorem mem_of_mem_mapM {parts : List Text}
    (read : parts.mapM readPair = some pairs) (listed : pair ∈ pairs) :
    ∃ part ∈ parts, readPair part = some pair := by
  induction parts generalizing pairs with
  | nil =>
    cases read
    cases listed
  | cons part parts ih =>
    simp only [List.mapM_cons, Option.pure_def, Option.bind_eq_bind, Option.bind_eq_some_iff,
      Option.some.injEq] at read
    obtain ⟨first, here, others, later, rfl⟩ := read
    obtain rfl | listed := List.mem_cons.mp listed
    · exact ⟨part, .head _, here⟩
    · obtain ⟨part', member, found⟩ := ih later listed
      exact ⟨part', .tail _ member, found⟩

theorem mem_of_parse {text : Text} (read : parse text = some pairs)
    (listed : pair ∈ pairs) : ∀ c ∈ pair.2, c ∈ text := by
  obtain ⟨part, member, found⟩ := mem_of_mem_mapM read listed
  obtain ⟨value, rfl, _, content⟩ := readPair_eq_some found
  intro c inside
  apply mem_of_mem_split (List.mem_of_mem_filter member)
  obtain ⟨_, same⟩ | ⟨rest, rfl, quoted⟩ := readValue_eq_some content
  · simp_all
  · have := (unquote_eq_some quoted).2.2 c inside
    simp_all
/-- Of a pair that was written as it is, with no quote behind it, the name is read back, and the
    value only if it is a token. -/
theorem token_of_split {name value behind part : Text} {parts : List Text}
    (token : isToken name = true) (plain : '"' ∉ behind)
    (first : split .outside (name ++ '=' :: (value ++ behind)) = part :: parts)
    (read : readPair part = some pair) :
    pair.1 = name ∧ (pair.2 = value → isToken value = true) := by
  obtain ⟨_, _, same, ⟨rest, whole⟩, _⟩ := split_eq_cons .outside (name ++ '=' :: (value ++ behind))
  obtain ⟨rfl, rfl⟩ := List.cons.inj (first.symm.trans same)
  obtain ⟨written, rfl, chars, content⟩ := readPair_eq_some read
  have stop : isTokenChar '=' = false := by decide
  have named : pair.1 = name := by
    have front := congrArg (List.takeWhile isTokenChar) whole
    simpa [List.takeWhile_append_of_pos (isToken_iff.mp token).2, List.takeWhile_append_of_pos chars,
      stop] using front.symm
  refine ⟨named, ?_⟩
  rintro rfl
  obtain ⟨isToken, same⟩ | ⟨quoted, rfl, unquoted⟩ := readValue_eq_some content
  · rwa [same]
  · rw [named, List.append_assoc, List.append_cancel_left_eq] at whole
    obtain ⟨last, longer, _⟩ := unquote_eq_some unquoted
    -- The closing quote would stand behind the value.
    obtain ⟨reach, long, tail⟩ | ⟨reach, short, _⟩ :=
      List.append_eq_append_iff.mp (List.cons.inj whole).2
    · have some : reach ≠ [] := by
        rintro rfl
        have := congrArg List.length long
        simp at this
        omega
      have closing : '"' ∈ reach := by
        apply List.mem_of_getLast?
        rw [← List.getLast?_append_of_ne_nil pair.2 some, ← long, List.getLast?_cons, last]
        rfl
      exact absurd (tail ▸ List.mem_append_left rest closing) plain
    · have := congrArg List.length short
      simp at this
      omega

end Parameters
