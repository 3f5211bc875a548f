import Gfe.Lib.Text

/-! # Reading data from JSON

The value a JSON text stands for, and what a derived deserializer reads from it: a
struct from an object or from an array of its fields, an enum from the name of a
variant or from an object that names it, and what a field holds when it is left
out. A reader returns `none` for an error.
-/

namespace Json

inductive Value where
  | null
  | bool (value : Bool)
  | integer (value : Int)
  /-- A number with a fraction or an exponent, as it is written. -/
  | decimal (literal : Str)
  | string (text : Str)
  | array (items : List Value)
  /-- The entries as they are written, a name that comes again included. -/
  | object (entries : List (Str × Value))

abbrev Reader (α : Type) := Value → Option α

/-! ## Readers -/

def readBool : Reader Bool
  | .bool value => some value
  | _ => none

def readString : Reader Str
  | .string text => some text
  | _ => none

/-- An unsigned integer below `bound`. -/
def readUnsigned (bound : Nat) : Reader Nat
  | .integer (.ofNat n) => if n < bound then some n else none
  | _ => none

section

variable {α : Type}

def readOption (read : Reader α) : Reader (Option α)
  | .null => some none
  | value => (read value).map some

def writeOption (write : α → Value) : Option α → Value
  | none => .null
  | some x => write x

def readList (read : Reader α) : Reader (List α)
  | .array items => items.mapM read
  | _ => none

def writeList (write : α → Value) (xs : List α) : Value := .array (xs.map write)

end

/-! ### Names -/

/-- The fields of a struct in their order, or the variants of an enum, and what they
    are called. -/
structure Names (κ : Type) where
  keys : List κ
  name : κ → Str
  all : ∀ key, key ∈ keys
  distinct : (keys.map name).Nodup

variable {κ : Type}

def Names.find (names : Names κ) (given : Str) : Option κ := names.keys.find? (names.name · = given)

@[simp] theorem Names.find_name (names : Names κ) (key : κ) : names.find (names.name key) = some key := by
  unfold Names.find
  cases result : names.keys.find? (names.name · = names.name key) with
  | none => simpa using List.find?_eq_none.mp result key (names.all key)
  | some other =>
    have same : names.name other = names.name key := by simpa using List.find?_some result
    rw [List.inj_on_of_nodup_map names.distinct (names.all other) (names.all key) same]

/-! ### Structs -/

/-- The fields of a struct that are given. An object gives each at most once and no
    others; an array gives the first ones. -/
def readFields [DecidableEq κ] (names : Names κ) : Reader (List (κ × Value))
  | .object entries => do
    let fields ← entries.mapM fun entry => (names.find entry.1).map (·, entry.2)
    if (fields.map Prod.fst).Nodup then some fields else none
  | .array items =>
    if items.length ≤ names.keys.length then some (names.keys.zip items) else none
  | _ => none

def writeFields (names : Names κ) (fields : List (κ × Value)) : Value :=
  .object (fields.map fun field => (names.name field.1, field.2))

def required {α : Type} [DecidableEq κ] (read : Reader α) (key : κ) (fields : List (κ × Value)) :
    Option α :=
  (fields.lookup key).bind read

def defaulted {α : Type} [DecidableEq κ] (default : α) (read : Reader α) (key : κ)
    (fields : List (κ × Value)) : Option α :=
  match fields.lookup key with
  | some value => read value
  | none => some default

section

variable {α : Type} [DecidableEq κ] {read : Reader α} {default : α} {key other : κ} {value : Value}
  {fields : List (κ × Value)}

@[simp] theorem required_cons_self : required read key ((key, value) :: fields) = read value := by
  simp [required]

@[simp] theorem required_cons_of_ne (skip : key ≠ other) :
    required read key ((other, value) :: fields) = required read key fields := by
  simp [required, List.lookup_cons, beq_false_of_ne skip]

@[simp] theorem defaulted_nil : defaulted default read key [] = some default := rfl

@[simp] theorem defaulted_cons_self :
    defaulted default read key ((key, value) :: fields) = read value := by
  simp [defaulted]

@[simp] theorem defaulted_cons_of_ne (skip : key ≠ other) :
    defaulted default read key ((other, value) :: fields) = defaulted default read key fields := by
  simp [defaulted, List.lookup_cons, beq_false_of_ne skip]

end

/-! ### Enums -/

def readVariant (names : Names κ) : Reader (κ × Option Value)
  | .string name => (names.find name).map (·, none)
  | .object [(name, content)] => (names.find name).map (·, some content)
  | _ => none

/-- An enum none of whose variants holds anything. -/
def readEnum (names : Names κ) (value : Value) : Option κ :=
  match readVariant names value with
  | some (variant, none) => some variant
  | some (variant, some .null) => some variant
  | _ => none

def writeEnum (names : Names κ) (variant : κ) : Value := .string (names.name variant)

def writeVariant (names : Names κ) (variant : κ) (content : Value) : Value :=
  .object [(names.name variant, content)]

/-! ## What is written is read back -/

/-- What is written for `x` is read as `x`. -/
def ReadsBack {α : Type} (write : α → Value) (read : Reader α) (x : α) : Prop :=
  read (write x) = some x

theorem readUnsigned_integer {bound n : Nat} (fits : n < bound) :
    readUnsigned bound (.integer n) = some n :=
  if_pos fits

section

variable {α : Type} {write : α → Value} {read : Reader α}

theorem readOption_of_ne_null {value : Value} (some : value ≠ .null) :
    readOption read value = (read value).map .some := by
  cases value with
  | null => exact absurd rfl some
  | _ => rfl

/-- What is written for a value is not `null`, or it would be read as no value. -/
theorem ReadsBack.option {x : Option α} (some : ∀ y ∈ x, write y ≠ .null)
    (back : ∀ y ∈ x, ReadsBack write read y) :
    ReadsBack (writeOption write) (readOption read) x := by
  cases x with
  | none => rfl
  | some y =>
    have back : read (write y) = .some y := back y rfl
    simp [ReadsBack, writeOption, readOption_of_ne_null (some y rfl), back]

theorem ReadsBack.list {xs : List α} (back : ∀ x ∈ xs, ReadsBack write read x) :
    ReadsBack (writeList write) (readList read) xs := by
  unfold ReadsBack writeList readList
  induction xs with
  | nil => rfl
  | cons x xs ih =>
    have head : read (write x) = some x := back x (by simp)
    have tail : (xs.map write).mapM read = some xs := ih fun y member => back y (by simp [member])
    simp [head, tail]

end

theorem ReadsBack.enum (names : Names κ) (variant : κ) :
    ReadsBack (writeEnum names) (readEnum names) variant := by
  simp [ReadsBack, writeEnum, readEnum, readVariant]

theorem readVariant_writeVariant (names : Names κ) (variant : κ) (content : Value) :
    readVariant names (writeVariant names variant content) = some (variant, some content) := by
  simp [writeVariant, readVariant]

theorem readFields_writeFields [DecidableEq κ] (names : Names κ) {fields : List (κ × Value)}
    (once : (fields.map Prod.fst).Nodup) : readFields names (writeFields names fields) = some fields := by
  have found : (fields.map fun field => (names.name field.1, field.2)).mapM
      (fun entry => (names.find entry.1).map (·, entry.2)) = some fields := by
    clear once
    induction fields with
    | nil => rfl
    | cons field fields ih => simp [ih]
  simp [writeFields, readFields, found, once]

/-! ## What can be read -/

def Yields {α : Type} (read : Reader α) (property : α → Prop) : Prop :=
  ∀ value x, read value = some x → property x

section

variable {α : Type} {read : Reader α} {property : α → Prop}

theorem Yields.option (yields : Yields read property) :
    Yields (readOption read) fun x => ∀ y ∈ x, property y := by
  intro value x result y member
  cases member
  cases value with
  | null => cases result
  | _ =>
    simp only [readOption, Option.map_eq_some_iff] at result
    obtain ⟨z, given, same⟩ := result
    cases same
    exact yields _ y given

theorem Yields.list (yields : Yields read property) :
    Yields (readList read) fun xs => ∀ x ∈ xs, property x := by
  intro value xs result x member
  cases value with
  | array items =>
    change items.mapM read = some xs at result
    induction items generalizing xs with
    | nil =>
      cases result
      cases member
    | cons item items ih =>
      simp only [List.mapM_cons, Option.pure_def, Option.bind_eq_bind, Option.bind_eq_some_iff,
        Option.some.injEq] at result
      obtain ⟨y, head, ys, tail, rfl⟩ := result
      cases member with
      | head => exact yields item x head
      | tail _ member => exact ih ys member tail
  | _ => cases result

theorem Yields.defaulted (yields : Yields read property) {default : α} (holds : property default)
    [DecidableEq κ] {key : κ} {fields : List (κ × Value)} {x : α}
    (result : defaulted default read key fields = some x) : property x := by
  unfold Json.defaulted at result
  cases given : fields.lookup key with
  | none =>
    simp only [given, Option.some.injEq] at result
    exact result ▸ holds
  | some value =>
    simp only [given] at result
    exact yields value x result

end

/-! ## Text -/

def quoted (text : Str) : Str :=
  '"' :: (text.flatMap fun c => if c = '"' ∨ c = '\\' then ['\\', c] else [c]) ++ ['"']

/-- What comes between brackets, each item on a line of its own. -/
def block (depth : Nat) (opening closing : Char) (items : List Str) : Str :=
  if items.isEmpty then [opening, closing]
  else
    let line (depth : Nat) : Str := '\n' :: List.replicate (2 * depth) ' '
    opening :: (line (depth + 1) ++ (items.intersperse (',' :: line (depth + 1))).flatten ++
      line depth ++ [closing])

mutual

/-- The text of a value, in lines, of strings without control characters. -/
def Value.print (depth : Nat) : Value → Str
  | .null => "null".toList
  | .bool value => if value then "true".toList else "false".toList
  | .integer (.ofNat n) => Nat.toDigits 10 n
  | .integer (.negSucc n) => '-' :: Nat.toDigits 10 (n + 1)
  | .decimal literal => literal
  | .string text => quoted text
  | .array items => block depth '[' ']' (printItems (depth + 1) items)
  | .object entries => block depth '\x7b' '\x7d' (printEntries (depth + 1) entries)

def printItems (depth : Nat) : List Value → List Str
  | [] => []
  | item :: items => item.print depth :: printItems depth items

def printEntries (depth : Nat) : List (Str × Value) → List Str
  | [] => []
  | (name, value) :: entries =>
    (quoted name ++ ": ".toList ++ value.print depth) :: printEntries depth entries

end

def skip (text : Str) : Str := text.dropWhile (· ∈ [' ', '\n', '\r', '\t'])

/-- The rest of a string and what follows it. -/
def parseString : Str → Option (Str × Str)
  | '"' :: rest => some ([], rest)
  | '\\' :: c :: rest => (parseString rest).map fun found => (c :: found.1, found.2)
  | c :: rest => (parseString rest).map fun found => (c :: found.1, found.2)
  | [] => none

def parseNumber (text : Str) : Option (Value × Str) :=
  let (digits, rest) := text.span Char.isDigit
  (Text.parseUnsigned (2 ^ 64) digits).map fun n => (.integer n, rest)

mutual

/-- The value a text starts with and what follows it. Of the escapes those of a character by itself
    are read, and of the numbers those without a sign. -/
def parseValue : Nat → Str → Option (Value × Str)
  | 0, _ => none
  | fuel + 1, text =>
    match skip text with
    | 'n' :: 'u' :: 'l' :: 'l' :: rest => some (.null, rest)
    | 't' :: 'r' :: 'u' :: 'e' :: rest => some (.bool true, rest)
    | 'f' :: 'a' :: 'l' :: 's' :: 'e' :: rest => some (.bool false, rest)
    | '"' :: rest => (parseString rest).map fun (text, rest) => (.string text, rest)
    | '[' :: rest =>
      match skip rest with
      | ']' :: rest => some (.array [], rest)
      | rest => (parseItems fuel rest).map fun (items, rest) => (.array items, rest)
    | '\x7b' :: rest =>
      match skip rest with
      | '\x7d' :: rest => some (.object [], rest)
      | rest => (parseEntries fuel rest).map fun (entries, rest) => (.object entries, rest)
    | rest => parseNumber rest

def parseItems : Nat → Str → Option (List Value × Str)
  | 0, _ => none
  | fuel + 1, text => do
    let (item, rest) ← parseValue fuel text
    match skip rest with
    | ',' :: rest => (parseItems fuel rest).map fun (items, rest) => (item :: items, rest)
    | ']' :: rest => some ([item], rest)
    | _ => none

def parseEntries : Nat → Str → Option (List (Str × Value) × Str)
  | 0, _ => none
  | fuel + 1, text => do
    let '"' :: rest := skip text | none
    let (name, rest) ← parseString rest
    let ':' :: rest := skip rest | none
    let (value, rest) ← parseValue fuel rest
    match skip rest with
    | ',' :: rest =>
      (parseEntries fuel rest).map fun (entries, rest) => ((name, value) :: entries, rest)
    | '\x7d' :: rest => some ([(name, value)], rest)
    | _ => none

end

def parse (text : Str) : Option Value := do
  let (value, rest) ← parseValue (text.length + 1) text
  if skip rest = [] then some value else none

end Json
