import Gfe.Config.AddressText
import Gfe.Handler.ForwardedFor
import Gfe.Lib.Parameters

/-! # The Forwarded header

What a backend reads of `Forwarded`: parameters, of which `for` names a node, an IPv6
address in brackets and therefore quoted, `host` the host and `proto` the scheme. The node
writes all three as they are, so a backend reads them back if they are tokens, which
addresses with colons and hosts in brackets are not.
-/

namespace Gfe

/-! ## Reading -/

/-- What `Forwarded` says about a request. -/
structure ForwardedElement where
  client : IpAddr
  host : Str
  proto : Str
  deriving DecidableEq, Repr

namespace ForwardedElement

/-- A port of a node: up to five digits, or a name that hides it. -/
def isNodePort : Str → Bool
  | '_' :: name => !name.isEmpty && name.all fun c => c.isAlphanum || c == '.' || c == '_' || c == '-'
  | digits => !digits.isEmpty && digits.length ≤ 5 && digits.all Char.isDigit

/-- What may follow the name of a node. -/
def endsNode : Str → Bool
  | [] => true
  | ':' :: port => isNodePort port
  | _ => false

/-- The address a node is named by. Nodes may also be `unknown` or hidden, which is no address. -/
def readNode : Str → Option IpAddr
  | '[' :: inner =>
    match inner.dropWhile (· != ']') with
    | ']' :: rest =>
      if endsNode rest then (Address.parseIpv6Addr (inner.takeWhile (· != ']'))).map .v6 else none
    | _ => none
  | text =>
    if endsNode (text.dropWhile (· != ':')) then
      (Address.parseWith Address.readIpv4Addr (text.takeWhile (· != ':'))).map .v4
    else none

/-- The value of a parameter, which must not be there twice. -/
def parameter (pairs : List (Str × Str)) (name : Str) : Option Str :=
  match pairs.filter fun pair => Text.eqIgnoreAsciiCase pair.1 name with
  | [pair] => some pair.2
  | _ => none

def read (text : Str) : Option ForwardedElement := do
  let pairs ← Parameters.parse text
  let node ← parameter pairs ['f', 'o', 'r']
  let client ← readNode node
  let host ← parameter pairs ['h', 'o', 's', 't']
  let proto ← parameter pairs ['p', 'r', 'o', 't', 'o']
  return ⟨client, host, proto⟩

end ForwardedElement

/-! ## Reading back -/

theorem isTokenChar_digitChar (d : Nat) : Parameters.isTokenChar (Nat.digitChar d) = true :=
  @Text.digitChar_rule (Parameters.isTokenChar · = true) (by decide) (by decide) d

theorem isToken_displayIpv4 (bits : BitVec 32) :
    Parameters.isToken (Address.displayIpv4 bits) = true := by
  rw [Parameters.isToken_iff]
  refine ⟨by simp [Address.displayIpv4], ?_⟩
  intro c member
  simp only [Address.displayIpv4, List.mem_append, List.mem_singleton] at member
  have dot : Parameters.isTokenChar '.' = true := by decide
  have digit : ∀ {n : Nat}, c ∈ Nat.toDigits 10 n → Parameters.isTokenChar c = true := by
    intro n member
    obtain ⟨d, rfl⟩ := Text.mem_toDigits member
    exact isTokenChar_digitChar d
  rcases member with (((((here | rfl) | here) | rfl) | here) | rfl) | here
  all_goals first
    | exact dot
    | exact digit here

theorem readNode_displayIpv4 (bits : BitVec 32) :
    ForwardedElement.readNode (Address.displayIpv4 bits) = some (.v4 bits) := by
  have token := (Parameters.isToken_iff.mp (isToken_displayIpv4 bits)).2
  have differ : ∀ stop, Parameters.isTokenChar stop = false →
      ∀ c ∈ Address.displayIpv4 bits, c ≠ stop := by
    intro stop other c member same
    rw [← same, token c member] at other
    cases other
  have colonless : ∀ c ∈ Address.displayIpv4 bits, (c != ':') = true := fun c member =>
    bne_iff_ne.mpr (differ ':' (by decide) c member)
  have read : Address.parseWith Address.readIpv4Addr (Address.displayIpv4 bits) = some bits := by
    have whole := Address.readIpv4Addr_displayIpv4 bits (Address.endsNumber_nil 10)
    rw [List.append_nil] at whole
    rw [Address.parseWith, whole]
  unfold ForwardedElement.readNode
  split
  · rename_i inner same
    exact absurd rfl (differ '[' (by decide) '[' (by rw [same]; exact List.mem_cons_self))
  · rw [List.dropWhile_eq_nil_iff.mpr colonless, List.takeWhile_eq_self_iff.mpr colonless, read]
    rfl

theorem read_write {host proto : Str} (bits : BitVec 32) (hostToken : Parameters.isToken host = true)
    (protoToken : Parameters.isToken proto = true) :
    ForwardedElement.read (Parameters.write (['f', 'o', 'r'], Address.displayIpv4 bits)
      [(['h', 'o', 's', 't'], host), (['p', 'r', 'o', 't', 'o'], proto)]) =
        some ⟨.v4 bits, host, proto⟩ := by
  have tokens : ∀ pair ∈ [(['f', 'o', 'r'], Address.displayIpv4 bits),
      (['h', 'o', 's', 't'], host), (['p', 'r', 'o', 't', 'o'], proto)],
      Parameters.isToken pair.1 = true ∧ Parameters.isToken pair.2 = true := by
    simp only [List.forall_mem_cons, List.not_mem_nil, false_implies, implies_true, and_true]
    exact ⟨⟨by decide, isToken_displayIpv4 bits⟩, ⟨by decide, hostToken⟩, ⟨by decide, protoToken⟩⟩
  rw [ForwardedElement.read, Parameters.parse_write tokens]
  simp [ForwardedElement.parameter, Text.eqIgnoreAsciiCase, Text.toAsciiLowercase,
    readNode_displayIpv4]

theorem colon_mem_displayIpv6 (bits : BitVec 128) : ':' ∈ Address.displayIpv6 bits := by
  unfold Address.displayIpv6
  dsimp only
  split
  · simp
  · split
    · simp
    · simp [Address.segments, Address.displaySegments, List.range_succ]

theorem isToken_displayIpAddr_iff (address : IpAddr) :
    Parameters.isToken (Address.displayIpAddr address) = true ↔ ∃ bits, address = .v4 bits := by
  cases address with
  | v4 bits => simp [Address.displayIpAddr, isToken_displayIpv4]
  | v6 bits =>
    simp only [reduceCtorEq, exists_false, iff_false]
    intro token
    exact absurd ((Parameters.isToken_iff.mp token).2 ':' (colon_mem_displayIpv6 bits)) (by decide)

theorem unquoted_displayIpAddr (address : IpAddr) :
    Parameters.Unquoted (Address.displayIpAddr address) := by
  intro c member
  obtain ⟨d, rfl⟩ | rfl | rfl := Address.isAddressChar_displayIpAddr address c member
  · exact @Text.digitChar_rule (fun c => c ≠ '"' ∧ c ≠ ';') (by decide) (by decide) d
  · decide
  · decide

theorem parameter_eq_some {pairs : List (Str × Str)} {name value : Str}
    (found : ForwardedElement.parameter pairs name = some value) :
    (∃ pair ∈ pairs, pair.2 = value) ∧ ∀ pair ∈ pairs, pair.1 = name → pair.2 = value := by
  unfold ForwardedElement.parameter at found
  split at found
  · rename_i only one
    cases found
    refine ⟨⟨only, List.mem_of_mem_filter (one.symm ▸ List.mem_cons_self), rfl⟩, ?_⟩
    intro pair listed named
    have member : pair ∈ [only] := by
      rw [← one, List.mem_filter]
      exact ⟨listed, by simp [named, Text.eqIgnoreAsciiCase]⟩
    rw [List.mem_singleton.mp member]
  · cases found

theorem mem_of_read {text : Str} {element : ForwardedElement}
    (read : ForwardedElement.read text = some element) : ∀ c ∈ element.host, c ∈ text := by
  simp only [ForwardedElement.read, Option.bind_eq_bind, Option.bind_eq_some_iff, Option.pure_def,
    Option.some.injEq] at read
  obtain ⟨pairs, parsed, _, _, _, _, host, found, _, _, rfl⟩ := read
  obtain ⟨⟨pair, listed, rfl⟩, _⟩ := parameter_eq_some found
  exact Parameters.mem_of_parse parsed listed

/-- What is read of what the node writes: if the client and the host are in it, they were tokens. -/
theorem tokens_of_read {forwarding : Forwarding} {element : ForwardedElement}
    (proto : Parameters.isToken forwarding.proto = true)
    (read : ForwardedElement.read (forwardedText forwarding) = some element) :
    Parameters.isToken (Address.displayIpAddr forwarding.client) = true ∧
      (element.host = forwarding.host → Parameters.isToken forwarding.host = true) := by
  have token : Parameters.isToken ['f', 'o', 'r'] = true := by decide
  have parts : Parameters.split .outside (forwardedText forwarding) =
      Parameters.writePair (['f', 'o', 'r'], Address.displayIpAddr forwarding.client) ::
        Parameters.split .outside (['h', 'o', 's', 't'] ++ '=' ::
          (forwarding.host ++ ";proto=".toList ++ forwarding.proto)) := by
    have plain := @Parameters.unquoted_writePair
      (['f', 'o', 'r'], Address.displayIpAddr forwarding.client) token
      (unquoted_displayIpAddr forwarding.client)
    rw [← Parameters.split_append plain]
    simp [forwardedText, Parameters.writePair]
  obtain ⟨second, others, same, _, some⟩ := Parameters.split_eq_cons .outside
    (['h', 'o', 's', 't'] ++ '=' :: (forwarding.host ++ ";proto=".toList ++ forwarding.proto))
  have behind : '"' ∉ ";proto=".toList ++ forwarding.proto := by
    intro member
    obtain front | inside := List.mem_append.mp member
    · exact absurd front (by decide)
    · exact (Parameters.unquoted_of_isToken proto _ inside).1 rfl
  simp only [ForwardedElement.read, Parameters.parse, parts, same, Option.bind_eq_bind,
    Option.bind_eq_some_iff, Option.pure_def, Option.some.injEq] at read
  obtain ⟨pairs, parsed, node, _, client, _, host, found, _, _, rfl⟩ := read
  rw [List.filter_cons_of_pos (by simp [Parameters.writePair])] at parsed
  rw [List.filter_cons_of_pos (by simpa using some)] at parsed
  simp only [List.mapM_cons, Option.bind_eq_bind, Option.bind_eq_some_iff, Option.pure_def,
    Option.some.injEq] at parsed
  obtain ⟨first, readFirst, _, ⟨pair, readSecond, rest, _, rfl⟩, rfl⟩ := parsed
  rw [Parameters.writePair, Parameters.readPair_append token] at readFirst
  obtain ⟨value, readClient, rfl⟩ := Option.map_eq_some_iff.mp readFirst
  constructor
  · obtain ⟨isToken, _⟩ | ⟨quoted, starts, _⟩ := Parameters.readValue_eq_some readClient
    · exact isToken
    · have inside : '"' ∈ Address.displayIpAddr forwarding.client := by
        rw [show Address.displayIpAddr forwarding.client = _ from starts]
        exact List.mem_cons_self
      exact absurd rfl (unquoted_displayIpAddr forwarding.client _ inside).1
  · intro sameHost
    rw [List.append_assoc] at same
    obtain ⟨named, isToken⟩ := Parameters.token_of_split (by decide) behind same readSecond
    apply isToken
    rw [(parameter_eq_some found).2 pair (by simp) named]
    exact sameHost

/-! ## What the backend gets -/

/-- A character `to_str` may give. -/
def HeaderValue.IsTextChar (c : Char) : Prop :=
  ∃ byte, HeaderValue.isVisibleAscii byte = true ∧ Char.ofNat byte.toNat = c

theorem HeaderValue.isTextChar_of_visible {text : Str}
    (visible : ∀ c ∈ text, 32 < c.toNat ∧ c.toNat < 127) :
    ∀ c ∈ text, HeaderValue.IsTextChar c := by
  intro c member
  obtain ⟨shown, same⟩ := ofText_visible visible
  rw [← same] at member
  obtain ⟨byte, inside, rfl⟩ := List.mem_map.mp member
  exact ⟨byte, shown byte inside, rfl⟩

theorem HeaderValue.exists_toStr {text : Str} (chars : ∀ c ∈ text, HeaderValue.IsTextChar c) :
    ∃ value, HeaderValue.fromStr text = some value ∧ HeaderValue.toStr value = some text := by
  obtain ⟨value, visible, rfl⟩ : ∃ value : HeaderValue,
      (∀ byte ∈ value, HeaderValue.isVisibleAscii byte = true) ∧ value.text = text := by
    induction text with
    | nil => exact ⟨[], nofun, rfl⟩
    | cons c text ih =>
      obtain ⟨⟨byte, shown, rfl⟩, others⟩ := List.forall_mem_cons.mp chars
      obtain ⟨value, visible, rfl⟩ := ih others
      exact ⟨byte :: value, List.forall_mem_cons.mpr ⟨shown, visible⟩, rfl⟩
  exact ⟨value, HeaderValue.fromStr_text visible, HeaderValue.toStr_eq_some.mpr ⟨visible, rfl⟩⟩

theorem isTextChar_of_isToken {text : Str} (token : Parameters.isToken text = true) :
    ∀ c ∈ text, HeaderValue.IsTextChar c :=
  HeaderValue.isTextChar_of_visible fun c member =>
    Parameters.visible_of_isTokenChar ((Parameters.isToken_iff.mp token).2 c member)

theorem isTextChar_forwardedText {forwarding : Forwarding}
    (host : ∀ c ∈ forwarding.host, HeaderValue.IsTextChar c)
    (proto : Parameters.isToken forwarding.proto = true) :
    ∀ c ∈ forwardedText forwarding, HeaderValue.IsTextChar c := by
  have client : ∀ c ∈ Address.displayIpAddr forwarding.client, HeaderValue.IsTextChar c := by
    apply HeaderValue.isTextChar_of_visible
    intro c member
    obtain ⟨low, high, _⟩ := (Address.isAddressChar_displayIpAddr _ c member).visible
    exact ⟨low, high⟩
  have marks : ∀ {text : Str}, (∀ c ∈ text, 32 < c.toNat ∧ c.toNat < 127) →
      ∀ c ∈ text, HeaderValue.IsTextChar c := HeaderValue.isTextChar_of_visible
  simp only [forwardedText, List.forall_mem_append]
  exact ⟨⟨⟨⟨⟨marks (by simp), client⟩, marks (by simp)⟩, host⟩, marks (by simp)⟩,
    isTextChar_of_isToken proto⟩

/-- A client's connection, as the node keeps it: with the canonical form of its address. -/
def Connection.new (info : ConnInfo) (peer : IpAddr) (isTls : Bool) : Connection :=
  ⟨info, peer.toCanonical, isTls⟩

def Connection.proto (conn : Connection) : Str :=
  if conn.isTls then "https".toList else "http".toList

theorem Connection.isToken_proto (conn : Connection) : Parameters.isToken conn.proto = true := by
  have schemes : ∀ isTls : Bool,
      Parameters.isToken (if isTls then "https".toList else "http".toList) = true := by decide
  exact schemes conn.isTls

section Forwarding

open Interleaving

variable {ι : Type} [DecidableEq ι] {http : Http} {pool : Pool Scheme} {r : ι}

theorem forwarded_sent (forwarder : Forwarder) (conn : Connection) (request : Request http)
    (host requestId : Str) {env : Traffic ι → Traffic ι → Prop}
    (kept : ∀ s s', env s s' → s'.own r = s.own r) {s s' : Traffic ι}
    (untouched : Untouched (s.own r)) {p : Program (Traffic ι) (Forwarded × RequestRecord)}
    (steps : Program.Steps env
      (forward forwarder conn pool r request (.begin request host requestId), s) (p, s'))
    {t : Try} (made : t ∈ (s'.lanes r).tries) {sent : SentHead}
    (ended : send http t.scheme t.authority t.attempt = .ok sent)
    (chars : ∀ c ∈ host, HeaderValue.IsTextChar c) :
    ∃ value, sent.headers.getAll forwardedHeader = [value] ∧
      HeaderValue.toStr value = some (forwardedText (conn.forwarding host requestId)) := by
  have same := attempt_headers forwarder conn request host requestId kept untouched steps made
  have lookup := @lookup_forwardingLines forwardedHeader (onward http request.headers)
    (forwardedText (conn.forwarding host requestId)) (conn.forwarding host requestId)
    (by simp [forwardingLines])
  obtain ⟨value, made, back⟩ := HeaderValue.exists_toStr
    (@isTextChar_forwardedText (conn.forwarding host requestId) chars (conn.isToken_proto))
  refine ⟨value, ?_, back⟩
  rw [getAll_send ended, if_neg (by decide), same, getAll_toBackend, if_neg (by decide), lookup]
  simp only [Option.bind_some, made]

/-- Whatever a request has, and however often it is tried: every attempt sends one `Forwarded` in
    which a backend reads the client, the host and the protocol, exactly if the client has an IPv4
    address and the host is a token. -/
theorem forwarded_reads_back_iff (forwarder : Forwarder) (info : ConnInfo) (peer : IpAddr)
    (isTls : Bool) (request : Request http) (host requestId : Str)
    {env : Traffic ι → Traffic ι → Prop} (kept : ∀ s s', env s s' → s'.own r = s.own r)
    {s s' : Traffic ι} (untouched : Untouched (s.own r))
    {p : Program (Traffic ι) (Forwarded × RequestRecord)}
    (steps : Program.Steps env (forward forwarder (.new info peer isTls) pool r request
      (.begin request host requestId), s) (p, s')) :
    ∀ t ∈ (s'.lanes r).tries, ∀ sent, send http t.scheme t.authority t.attempt = .ok sent →
      ((∃ value text, sent.headers.getAll forwardedHeader = [value] ∧
        HeaderValue.toStr value = some text ∧
        ForwardedElement.read text =
          some ⟨peer.toCanonical, host, (Connection.new info peer isTls).proto⟩) ↔
      (∃ bits, peer.toCanonical = .v4 bits) ∧ Parameters.isToken host = true) := by
  intro t made sent ended
  have sends := forwarded_sent forwarder (.new info peer isTls) request host requestId kept untouched
    steps made ended
  have proto := (Connection.new info peer isTls).isToken_proto
  constructor
  · rintro ⟨value, text, one, back, read⟩
    have chars : ∀ c ∈ host, HeaderValue.IsTextChar c := by
      obtain ⟨visible, rfl⟩ := HeaderValue.toStr_eq_some.mp back
      intro c member
      obtain ⟨byte, inside, same⟩ := List.mem_map.mp (mem_of_read read c member)
      exact ⟨byte, visible byte inside, same⟩
    -- What was read is then the node's own line.
    obtain ⟨_, one', back'⟩ := sends chars
    obtain ⟨rfl, _⟩ := List.cons.inj (one.symm.trans one')
    cases back.symm.trans back'
    obtain ⟨client, isToken⟩ :=
      @tokens_of_read ((Connection.new info peer isTls).forwarding host requestId) _ proto read
    exact ⟨(isToken_displayIpAddr_iff _).mp client, isToken rfl⟩
  · rintro ⟨⟨bits, ipv4⟩, token⟩
    obtain ⟨value, one, back⟩ := sends (isTextChar_of_isToken token)
    refine ⟨value, _, one, back, ?_⟩
    have written : forwardedText ((Connection.new info peer isTls).forwarding host requestId) =
        Parameters.write (['f', 'o', 'r'], Address.displayIpv4 bits) [(['h', 'o', 's', 't'], host),
          (['p', 'r', 'o', 't', 'o'], (Connection.new info peer isTls).proto)] := by
      rw [forwardedText, show ((Connection.new info peer isTls).forwarding host requestId).client =
        .v4 bits from ipv4]
      simp [Parameters.write, Parameters.writePair, Address.displayIpAddr, Connection.forwarding,
        Connection.proto]
    rw [written, read_write bits token proto, ipv4]

/-! ## Clients with IPv4 and IPv6 addresses -/

/-- A request for `/` without headers. -/
def rootRequest : Request .plain where
  uri := ⟨none, ['/'], some ['/']⟩
  headers := []
  version := .http11
  method := .get
  content := ⟨0, true⟩

/-- The request and its lane once it was forwarded for this client. -/
def forwardedFrom (peer : IpAddr) : (Forwarded × RequestRecord) × Traffic Unit :=
  (forward .plain (.new ⟨0, none⟩ peer false) .single () rootRequest
    (.begin rootRequest ['h'] ['i'])).run (oneRequest .single (.error .reset))

/-- A client with an IPv4 address, on a socket for both. -/
theorem forwarded_reads_back_mapped :
    ∃ t ∈ ((forwardedFrom (.v6 0xffff0a000007)).2.lanes ()).tries,
      ∃ sent, send .plain t.scheme t.authority t.attempt = .ok sent ∧
      ∃ value text, sent.headers.getAll forwardedHeader = [value] ∧
        HeaderValue.toStr value = some text ∧
        ForwardedElement.read text = some ⟨.v4 0x0a000007, ['h'], "http".toList⟩ := by
  have kept : ∀ s s' : Traffic Unit, s'.own () = s.own () → s'.own () = s.own () :=
    fun _ _ same => same
  have some : ((forwardedFrom (.v6 0xffff0a000007)).2.lanes ()).tries.any
      (·.sends xForwardedProto [104, 116, 116, 112]) = true := by decide +kernel
  obtain ⟨t, made, sent, ended, _⟩ := exists_sends some
  exact ⟨t, made, sent, ended, (forwarded_reads_back_iff .plain ⟨0, none⟩ (.v6 0xffff0a000007) false
    rootRequest ['h'] ['i'] kept (untouched_oneRequest .single (.error .reset))
    (Program.steps_run _ _ _) t made sent ended).mpr ⟨⟨0x0a000007, by decide⟩, by decide⟩⟩

/-- For the client `::1` the backend gets `for=::1;host=h;proto=http`, which is no list of
    parameters. -/
theorem forwarded_of_ipv6_client_unreadable :
    ∃ t ∈ ((forwardedFrom (.v6 1)).2.lanes ()).tries,
      ∃ sent, send .plain t.scheme t.authority t.attempt = .ok sent ∧
      ∃ value text, sent.headers.getAll forwardedHeader = [value] ∧
        HeaderValue.toStr value = some text ∧ Parameters.parse text = none ∧
        ForwardedElement.read text = none := by
  have kept : ∀ s s' : Traffic Unit, s'.own () = s.own () → s'.own () = s.own () :=
    fun _ _ same => same
  have some : ((forwardedFrom (.v6 1)).2.lanes ()).tries.any
      (·.sends xForwardedProto [104, 116, 116, 112]) = true := by decide +kernel
  obtain ⟨t, made, sent, ended, _⟩ := exists_sends some
  obtain ⟨value, line, back⟩ := forwarded_sent .plain (.new ⟨0, none⟩ (.v6 1) false) rootRequest
    ['h'] ['i'] kept (untouched_oneRequest .single (.error .reset)) (Program.steps_run _ _ _) made
    ended (isTextChar_of_isToken (by decide))
  exact ⟨t, made, sent, ended, value, _, line, back, by decide +kernel, by decide +kernel⟩

end Forwarding

end Gfe
