import Gfe.Tls.CertStore

/-! # Which host a request is for

The host is the one of the request target's authority, of the `Host` header, or
the connection's SNI, in this order; the first two must agree, and over TLS the
certificate store must have one entry for both the SNI and the host.

HTTP messages are those of the `http` crate. A header map is the list of its
lines; names are in lowercase. What counts as an authority or as a header name,
and how a port is read, is the crate's business: `Http` says what of it is used.
-/

namespace Gfe

/-! ## HTTP messages -/

abbrev HeaderName := Str

abbrev HeaderValue := Bytes

namespace HeaderValue

/-- A byte `to_str` accepts. -/
def isVisibleAscii (byte : UInt8) : Bool := (32 ≤ byte && byte < 127) || byte == 9

/-- A byte a header value may hold. -/
def isValid (byte : UInt8) : Bool := (32 ≤ byte && byte != 127) || byte == 9

def toStr (value : HeaderValue) : Option Str :=
  if value.all isVisibleAscii then some (value.map fun byte => Char.ofNat byte.toNat) else none

def fromStr (text : Str) : Option HeaderValue :=
  let bytes := text.flatMap String.utf8EncodeChar
  if bytes.all isValid then some bytes else none

end HeaderValue

/-- The lines of a message head, those of one name in their order. -/
abbrev HeaderMap := List (HeaderName × HeaderValue)

namespace HeaderMap

def getAll (headers : HeaderMap) (name : HeaderName) : List HeaderValue :=
  (headers.filter (·.1 = name)).map Prod.snd

def get (headers : HeaderMap) (name : HeaderName) : Option HeaderValue :=
  (headers.getAll name).head?

def remove (headers : HeaderMap) (name : HeaderName) : HeaderMap :=
  headers.filter (·.1 ≠ name)

/-- One line for this name, instead of all there were. -/
def insert (headers : HeaderMap) (name : HeaderName) (value : HeaderValue) : HeaderMap :=
  headers.remove name ++ [(name, value)]

@[simp] theorem getAll_remove (headers : HeaderMap) (name other : HeaderName) :
    (headers.remove name).getAll other = if other = name then [] else headers.getAll other := by
  unfold getAll remove
  rw [List.filter_filter]
  split
  · rename_i same
    subst same
    simp
  · rename_i differ
    congr 1
    apply List.filter_congr
    intro line _
    by_cases same : line.1 = other
    · simp [same, differ]
    · simp [same]

@[simp] theorem getAll_insert (headers : HeaderMap) (name other : HeaderName)
    (value : HeaderValue) :
    (headers.insert name value).getAll other =
      if other = name then [value] else headers.getAll other := by
  have appended : (headers.insert name value).getAll other =
      (headers.remove name).getAll other ++ (getAll [(name, value)] other) := by
    simp [insert, getAll]
  rw [appended, getAll_remove]
  split
  · rename_i same
    simp [getAll, same]
  · rename_i differ
    simp [getAll, Ne.symm differ]

end HeaderMap

/-- What the `http` crate decides about texts. -/
structure Http where
  authorityValid : Str → Bool
  portU16 : Str → Option UInt16
  headerName : Str → Option HeaderName
  /-- An authority is made of visible ASCII characters. -/
  authority_ascii : ∀ text, authorityValid text = true → ∀ c ∈ text, 32 < c.toNat ∧ c.toNat < 127

/-- Every text without blanks is an authority, and no authority has a port. -/
def Http.plain : Http where
  authorityValid text := text.all fun c => decide (32 < c.toNat ∧ c.toNat < 127)
  portU16 _ := none
  headerName := some
  authority_ascii _ valid c member := of_decide_eq_true (List.all_eq_true.mp valid c member)

/-- A text that was parsed as an authority. -/
structure Authority (http : Http) where
  text : Str
  valid : http.authorityValid text = true

/-- What follows the userinfo of an authority's text. -/
def afterUserinfo (text : Str) : Str := (text.reverse.takeWhile (· != '@')).reverse

/-- The host of an authority's text without userinfo: a bracketed literal, or
    what stands before the port. -/
def hostOf : Str → Str
  | '[' :: rest => '[' :: (rest.takeWhile (· != ']') ++ [']'])
  | text => text.takeWhile (· != ':')

namespace Authority

variable {http : Http}

def parse (http : Http) (text : Str) : Option (Authority http) :=
  if valid : http.authorityValid text = true then some ⟨text, valid⟩ else none

def host (authority : Authority http) : Str := hostOf (afterUserinfo authority.text)

def portU16 (authority : Authority http) : Option UInt16 := http.portU16 authority.text

end Authority

inductive Version where
  | http09
  | http10
  | http11
  | http2
  | http3
  deriving DecidableEq, Repr

structure Uri (http : Http) where
  authority : Option (Authority http)
  path : Str
  pathAndQuery : Option Str

/-- The head of a request, as far as it decides where it goes. -/
structure RequestHead (http : Http) where
  uri : Uri http
  headers : HeaderMap
  version : Version

/-- `host`, in lowercase as header names are. -/
def hostHeader : HeaderName := ['h', 'o', 's', 't']

/-! ## The host rules -/

inductive HostError where
  | conflict (target : Str)
  | missing
  | misdirected (host : Str)
  deriving DecidableEq, Repr

section

variable {http : Http}

/-- The authority a `Host` line names, if it names one. -/
def lineAuthority (http : Http) (value : HeaderValue) : Option (Authority http) :=
  (HeaderValue.toStr value).bind (Authority.parse http)

/-- A port that both carry must be the same. -/
def portsAgree (a b : Option UInt16) : Bool :=
  match a, b with
  | some a, some b => a == b
  | _, _ => true

def requestHost (uri : Uri http) (headers : HeaderMap) (version : Version) (sni : Option Str) :
    Except HostError Str :=
  let header := (headers.get hostHeader).map (lineAuthority http)
  match uri.authority, header with
  | some target, some header =>
    let agree := match header with
      | some header => Text.eqIgnoreAsciiCase header.host target.host &&
          portsAgree header.portU16 target.portU16
      | none => false
    let target := Text.toAsciiLowercase target.host
    if agree then .ok target else .error (.conflict target)
  | some target, none => .ok (Text.toAsciiLowercase target.host)
  | none, some (some header) => .ok (Text.toAsciiLowercase header.host)
  | none, some none => .error .missing
  | none, none =>
    match sni with
    | some sni => .ok (Text.toAsciiLowercase sni)
    | none => if version == .http10 then .ok [] else .error .missing

end

/-- Over TLS, a host other than the SNI must have the SNI's certificate entry. -/
def coveredBySni (sni : Option Str) (host : Str) (certificates : CertStore) :
    Except HostError Str :=
  match sni with
  | some sni =>
    if !Text.eqIgnoreAsciiCase sni host && !certificates.sameCertificate sni host then
      .error (.misdirected host)
    else .ok host
  | none => .ok host

end Gfe
