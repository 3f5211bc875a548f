import Gfe.Config.Address
import Gfe.Handler.Host

/-! # The request as the backend gets it

Whether a request can be forwarded at all, and the head that is sent on: without
the client's hop-by-hop headers, with the forwarding headers, and with the
`Host` of the request target when it names one.
-/

namespace Gfe

inductive Method where
  | get
  | head
  | options
  | trace
  | delete
  | post
  | put
  | patch
  | connect
  | other (name : Str)
  deriving DecidableEq, Repr

structure Parts (http : Http) extends RequestHead http where
  method : Method

/-! ## Headers -/

namespace HeaderValue

def ofText (text : Str) : HeaderValue := text.flatMap String.utf8EncodeChar

def toLower (byte : UInt8) : UInt8 := if 65 ≤ byte && byte ≤ 90 then byte + 32 else byte

def eqIgnoreAsciiCase (a b : HeaderValue) : Bool := a.map toLower == b.map toLower

end HeaderValue

def connectionHeader : HeaderName := "connection".toList

def teHeader : HeaderName := "te".toList

def upgradeHeader : HeaderName := "upgrade".toList

def contentTypeHeader : HeaderName := "content-type".toList

def xRequestId : HeaderName := "x-request-id".toList

def xForwardedFor : HeaderName := "x-forwarded-for".toList

def xForwardedProto : HeaderName := "x-forwarded-proto".toList

def xForwardedHost : HeaderName := "x-forwarded-host".toList

def forwardedHeader : HeaderName := "forwarded".toList

def hopByHop : List HeaderName :=
  [connectionHeader, "proxy-connection".toList, "keep-alive".toList, "proxy-authenticate".toList,
    "proxy-authorization".toList, teHeader, "trailer".toList, "transfer-encoding".toList,
    upgradeHeader]

/-- The comma-separated elements of all lines of a name that are text. -/
def elements (headers : HeaderMap) (name : HeaderName) : List Str :=
  ((headers.getAll name).filterMap HeaderValue.toStr).flatMap (List.splitOn ',')

/-! ## What can be forwarded -/

def maxRequestIdLen : Nat := 128

/-- The client's id if it is usable, else a new one. -/
def requestId (headers : HeaderMap) (random : Str) : Str :=
  match (headers.get xRequestId).bind HeaderValue.toStr with
  | some id => if !id.isEmpty && Text.len id ≤ maxRequestIdLen && id.all (·.toNat < 128) then id
      else random
  | none => random

def isGrpc (headers : HeaderMap) : Bool :=
  match headers.get contentTypeHeader with
  | some value => (HeaderValue.ofText "application/grpc".toList).isPrefixOf value
  | none => false

section

variable {http : Http}

/-- The target is in origin form or in absolute form. -/
def namesAPath (target : Uri http) : Bool := Text.startsWith target.path ['/']

/-- The request asks for a protocol it cannot do without; an offer of HTTP/2 is
    not that. -/
def asksForUpgrade (headers : HeaderMap) : Bool :=
  let namesUpgrade := (elements headers connectionHeader).any fun option =>
    Text.eqIgnoreAsciiCase (Text.trim option) "upgrade".toList
  let toAnotherProtocol := (elements headers upgradeHeader).any fun protocol =>
    !Text.eqIgnoreAsciiCase (Text.trim protocol) "h2c".toList
  namesUpgrade && toAnotherProtocol

/-- `te: trailers`, and nothing else in `te`. -/
def asksForTrailers (headers : HeaderMap) : Bool :=
  match headers.getAll teHeader with
  | [only] => HeaderValue.eqIgnoreAsciiCase only (HeaderValue.ofText "trailers".toList)
  | _ => false

/-! ## The head sent on -/

/-- The headers the `Connection` lines name. -/
def namedByConnection (http : Http) (headers : HeaderMap) : List HeaderName :=
  (elements headers connectionHeader).filterMap fun token => http.headerName (Text.trim token)

def stripHopByHop (http : Http) (headers : HeaderMap) : HeaderMap :=
  (hopByHop ++ namedByConnection http headers).foldl HeaderMap.remove headers

def set (headers : HeaderMap) (name : HeaderName) (value : Str) : HeaderMap :=
  match HeaderValue.fromStr value with
  | some value => headers.insert name value
  | none => headers

/-- What the forwarding headers say about a request. -/
structure Forwarding where
  client : IpAddr
  proto : Str
  host : Str
  requestId : Str

/-- The `Host` of a target that names one: its authority without userinfo. -/
def targetHost (uri : Uri http) : Option HeaderValue :=
  uri.authority.bind fun authority => HeaderValue.fromStr (afterUserinfo authority.text)

/-- The headers that say where a request came from. -/
def addForwarding (headers : HeaderMap) (forwarding : Forwarding) : HeaderMap :=
  let client := Address.displayIpAddr forwarding.client
  let forwardedFor :=
    match (headers.get xForwardedFor).bind HeaderValue.toStr with
    | some existing => existing ++ ", ".toList ++ client
    | none => client
  let headers := set headers xForwardedFor forwardedFor
  let headers := set headers xForwardedProto forwarding.proto
  let headers := set headers xForwardedHost forwarding.host
  let forwarded := "for=".toList ++ client ++ ";host=".toList ++ forwarding.host ++
    ";proto=".toList ++ forwarding.proto
  let headers := set headers forwardedHeader forwarded
  if (headers.getAll xRequestId).isEmpty then set headers xRequestId forwarding.requestId
  else headers

/-- The head of a client's request as the backend gets it. -/
def toBackend (head : Parts http) (forwarding : Forwarding) : Parts http :=
  let headers := stripHopByHop http head.headers
  let headers := if asksForTrailers head.headers then
      headers.insert teHeader (HeaderValue.ofText "trailers".toList)
    else headers
  let headers := addForwarding headers forwarding
  let headers := match targetHost head.uri with
    | some host => headers.insert hostHeader host
    | none => headers
  { head with headers := headers }

/-! ## The Host lines on the way -/

theorem getAll_set_of_ne {headers : HeaderMap} {name other : HeaderName} (differ : other ≠ name)
    (value : Str) : (set headers name value).getAll other = headers.getAll other := by
  unfold set
  split
  · rw [HeaderMap.getAll_insert, if_neg differ]
  · rfl

theorem getAll_foldl_remove (headers : HeaderMap) (names : List HeaderName) (other : HeaderName) :
    (names.foldl HeaderMap.remove headers).getAll other =
      if other ∈ names then [] else headers.getAll other := by
  induction names generalizing headers with
  | nil => rfl
  | cons name rest ih =>
    rw [List.foldl_cons, ih, HeaderMap.getAll_remove]
    by_cases same : other = name <;> simp [same]

theorem getAll_addForwarding_host (headers : HeaderMap) (forwarding : Forwarding) :
    (addForwarding headers forwarding).getAll hostHeader = headers.getAll hostHeader := by
  unfold addForwarding
  dsimp only
  split
  all_goals
    split
    all_goals repeat rw [getAll_set_of_ne (by decide)]

/-- The `Host` lines sent on: the one of the target if it names a host, else
    those of the client, unless it said they are for this hop only. -/
theorem getAll_toBackend_host (head : Parts http) (forwarding : Forwarding) :
    (toBackend head forwarding).headers.getAll hostHeader =
      match targetHost head.uri with
      | some host => [host]
      | none => if hostHeader ∈ namedByConnection http head.headers then []
          else head.headers.getAll hostHeader := by
  have kept : hostHeader ∉ hopByHop := by decide
  have stripped : (stripHopByHop http head.headers).getAll hostHeader =
      if hostHeader ∈ namedByConnection http head.headers then []
      else head.headers.getAll hostHeader := by
    rw [stripHopByHop, getAll_foldl_remove]
    simp [kept]
  have trailers : (if asksForTrailers head.headers then
        (stripHopByHop http head.headers).insert teHeader (HeaderValue.ofText "trailers".toList)
      else stripHopByHop http head.headers).getAll hostHeader =
        (stripHopByHop http head.headers).getAll hostHeader := by
    split
    · rw [HeaderMap.getAll_insert, if_neg (by decide)]
    · rfl
  unfold toBackend
  cases targetHost head.uri with
  | some host => simp only [HeaderMap.getAll_insert, if_true]
  | none =>
    dsimp only
    rw [getAll_addForwarding_host, trailers, stripped]

/-! ## Values that name a host -/

theorem utf8EncodeChar_ascii {c : Char} (ascii : c.toNat ≤ 127) :
    String.utf8EncodeChar c = [UInt8.ofNat c.toNat] := by
  simp [String.utf8EncodeChar, ascii]

theorem fromStr_visible {text : Str} (visible : ∀ c ∈ text, 32 < c.toNat ∧ c.toNat < 127) :
    ∃ value, HeaderValue.fromStr text = some value ∧ HeaderValue.toStr value = some text := by
  have encoded : text.flatMap String.utf8EncodeChar = text.map fun c => UInt8.ofNat c.toNat := by
    rw [List.map_eq_flatMap]
    exact List.flatMap_congr fun c member => utf8EncodeChar_ascii (visible c member).2.le
  have byte : ∀ c ∈ text, (UInt8.ofNat c.toNat).toNat = c.toNat := by
    intro c member
    have bound := (visible c member).2
    rw [UInt8.toNat_ofNat']
    omega
  refine ⟨text.map fun c => UInt8.ofNat c.toNat, ?_, ?_⟩
  · rw [HeaderValue.fromStr, encoded, if_pos]
    rw [List.all_map, List.all_eq_true]
    intro c member
    have bound := visible c member
    simp [HeaderValue.isValid, UInt8.le_iff_toNat_le, ← UInt8.toNat_inj, byte c member]
    omega
  · have visibleBytes : (text.map fun c => UInt8.ofNat c.toNat).all HeaderValue.isVisibleAscii =
        true := by
      rw [List.all_map, List.all_eq_true]
      intro c member
      have bound := visible c member
      simp [HeaderValue.isVisibleAscii, UInt8.le_iff_toNat_le, UInt8.lt_iff_toNat_lt,
        ← UInt8.toNat_inj, byte c member]
      omega
    rw [HeaderValue.toStr, if_pos visibleBytes, List.map_map]
    congr 1
    rw [List.map_congr_left, List.map_id]
    intro c member
    simp only [Function.comp_apply, byte c member, Char.ofNat_toNat, id]

theorem mem_of_mem_afterUserinfo {text : Str} {c : Char} (member : c ∈ afterUserinfo text) :
    c ∈ text := by
  rw [afterUserinfo, List.mem_reverse] at member
  exact List.mem_reverse.mp ((List.takeWhile_sublist _).subset member)

theorem afterUserinfo_idem (text : Str) :
    afterUserinfo (afterUserinfo text) = afterUserinfo text := by
  simp only [afterUserinfo, List.reverse_reverse, List.takeWhile_idem]

/-- The value names this host, as an authority does: after the userinfo, before
    the port, in any case. -/
def Names (value : HeaderValue) (host : Str) : Prop :=
  ∃ text, HeaderValue.toStr value = some text ∧
    Text.toAsciiLowercase (hostOf (afterUserinfo text)) = host

theorem targetHost_names {uri : Uri http} {authority : Authority http}
    (target : uri.authority = some authority) :
    ∃ value, targetHost uri = some value ∧ Names value (Text.toAsciiLowercase authority.host) := by
  have visible : ∀ c ∈ afterUserinfo authority.text, 32 < c.toNat ∧ c.toNat < 127 :=
    fun c member => http.authority_ascii _ authority.valid c (mem_of_mem_afterUserinfo member)
  obtain ⟨value, made, reads⟩ := fromStr_visible visible
  refine ⟨value, by rw [targetHost, target]; exact made, _, reads, ?_⟩
  rw [afterUserinfo_idem]
  rfl

theorem requestHost_of_target {uri : Uri http} {headers : HeaderMap} {version : Version}
    {sni : Option Str} {host : Str} {authority : Authority http}
    (target : uri.authority = some authority)
    (routed : requestHost uri headers version sni = .ok host) :
    host = Text.toAsciiLowercase authority.host := by
  unfold requestHost at routed
  rw [target] at routed
  generalize (headers.get hostHeader).map (lineAuthority http) = header at routed
  cases header with
  | none =>
    cases routed
    rfl
  | some line =>
    cases line with
    | none => cases routed
    | some header =>
      dsimp only at routed
      split at routed
      · cases routed
        rfl
      · cases routed

end

end Gfe
