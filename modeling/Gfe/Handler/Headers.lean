import Gfe.Handler.Relay

/-! # Headers on the way

What becomes of each header of a message as the node sends it on. A header that is
for one hop only, by its nature or because the sender says so in `Connection`, does
not cross the node; what goes out under its name is the node's own. Every other
header goes on as it came, unless it is one the node sets.
-/

namespace Gfe

variable {name : HeaderName} {value : HeaderValue} {scheme : ClientScheme}
  {lines : List (HeaderName × Str)} {headers : HeaderMap} {added : Str} {sent : SentHead}
  {authority : Str}

/-! ## Lists in header values -/

namespace HeaderValue

def isComma (byte : UInt8) : Bool := byte == 44

/-- A space or a tab. -/
def isBlank (byte : UInt8) : Bool := byte == 32 || byte == 9

def elements (value : HeaderValue) : List HeaderValue := Separated.elements isComma isBlank value

def text (value : HeaderValue) : Str := value.map fun byte => Char.ofNat byte.toNat

theorem toStr_eq_some {text : Str} :
    toStr value = some text ↔ (∀ byte ∈ value, isVisibleAscii byte = true) ∧ value.text = text := by
  simp [toStr, HeaderValue.text, List.all_eq_true]

theorem toNat_visible {byte : UInt8} (visible : isVisibleAscii byte = true) :
    (32 ≤ byte.toNat ∧ byte.toNat < 127) ∨ byte.toNat = 9 := by
  simp only [isVisibleAscii, Bool.or_eq_true, Bool.and_eq_true, decide_eq_true_eq, beq_iff_eq,
    UInt8.le_iff_toNat_le, UInt8.lt_iff_toNat_lt, ← UInt8.toNat_inj] at visible
  exact visible

theorem toNat_ofNat_byte (byte : UInt8) : (Char.ofNat byte.toNat).toNat = byte.toNat := by
  have small := byte.toNat_lt
  rw [Char.toNat_ofNat, if_pos]
  exact .inl (by omega)

theorem comma_iff (byte : UInt8) : (Char.ofNat byte.toNat == ',') = isComma byte := by
  rw [Bool.eq_iff_iff, beq_iff_eq, isComma, beq_iff_eq, ← Char.toNat_inj, toNat_ofNat_byte,
    ← UInt8.toNat_inj]
  rfl

theorem blank_iff {byte : UInt8} (visible : isVisibleAscii byte = true) :
    Text.isWhitespace (Char.ofNat byte.toNat) = isBlank byte := by
  have range := toNat_visible visible
  rw [Bool.eq_iff_iff]
  simp only [Text.isWhitespace, isBlank, toNat_ofNat_byte, Bool.or_eq_true, Bool.and_eq_true,
    decide_eq_true_eq, beq_iff_eq, ← UInt8.toNat_inj, UInt8.reduceToNat]
  omega

theorem trim_splitOn_text
    (visible : ∀ byte ∈ value, isVisibleAscii byte = true) :
    (value.text.splitOn ',').map Text.trim = value.elements.map text :=
  Separated.elements_map (fun byte _ => comma_iff byte) fun byte member =>
    blank_iff (visible byte member)

theorem fromStr_text (visible : ∀ byte ∈ value, isVisibleAscii byte = true) :
    fromStr value.text = some value := by
  have encoded : value.text.flatMap String.utf8EncodeChar = value := by
    rw [text, List.flatMap_map]
    calc value.flatMap (fun byte => String.utf8EncodeChar (Char.ofNat byte.toNat)) =
          value.flatMap fun byte => [byte] := by
          apply List.flatMap_congr
          intro byte member
          have small := toNat_visible (visible byte member)
          rw [utf8EncodeChar_ascii (by rw [toNat_ofNat_byte]; omega), toNat_ofNat_byte,
            UInt8.ofNat_toNat]
      _ = value := by simp
  rw [fromStr, encoded, if_pos]
  rw [List.all_eq_true]
  intro byte member
  have small := toNat_visible (visible byte member)
  simp only [isValid, Bool.or_eq_true, Bool.and_eq_true, decide_eq_true_eq, bne_iff_ne, ne_eq,
    beq_iff_eq, UInt8.le_iff_toNat_le, ← UInt8.toNat_inj, UInt8.reduceToNat]
  omega

end HeaderValue

/-! ## Names in `Connection` -/

section

variable {http : Http}

/-- The sender names this header in a `Connection` line. -/
def NamedBySender (http : Http) (headers : HeaderMap) (name : HeaderName) : Prop :=
  ∃ line ∈ headers.getAll connectionHeader, ∃ element ∈ line.elements,
    http.headerName element.text = some name

def ForThisHop (http : Http) (headers : HeaderMap) (name : HeaderName) : Prop :=
  name ∈ hopByHop ∨ NamedBySender http headers name

/-- What the node takes to be named is named in a line that is text. -/
theorem mem_namedByConnection :
    name ∈ namedByConnection http headers ↔
      ∃ line ∈ headers.getAll connectionHeader, (HeaderValue.toStr line).isSome ∧
        ∃ element ∈ line.elements, http.headerName element.text = some name := by
  simp only [namedByConnection, elements, List.mem_filterMap, List.mem_flatMap]
  constructor
  · rintro ⟨token, ⟨text, ⟨line, member, read⟩, one⟩, named⟩
    obtain ⟨visible, rfl⟩ := HeaderValue.toStr_eq_some.mp read
    have trimmed : Text.trim token ∈ line.elements.map HeaderValue.text :=
      HeaderValue.trim_splitOn_text visible ▸ List.mem_map_of_mem one
    obtain ⟨element, inside, same⟩ := List.mem_map.mp trimmed
    exact ⟨line, member, by simp [read], element, inside, same ▸ named⟩
  · rintro ⟨line, member, readable, element, inside, named⟩
    obtain ⟨text, read⟩ := Option.isSome_iff_exists.mp readable
    obtain ⟨visible, rfl⟩ := HeaderValue.toStr_eq_some.mp read
    have trimmed : element.text ∈ (line.text.splitOn ',').map Text.trim :=
      HeaderValue.trim_splitOn_text visible ▸ List.mem_map_of_mem inside
    obtain ⟨token, one, same⟩ := List.mem_map.mp trimmed
    exact ⟨token, ⟨line.text, ⟨line, member, read⟩, one⟩, same ▸ named⟩

/-- The node removes what it is sent under this name. -/
def Stripped (http : Http) (headers : HeaderMap) (name : HeaderName) : Prop :=
  name ∈ hopByHop ∨ name ∈ namedByConnection http headers

instance (headers : HeaderMap) (name : HeaderName) : Decidable (Stripped http headers name) :=
  inferInstanceAs (Decidable (_ ∨ _))

theorem forThisHop_of_stripped
    (stripped : Stripped http headers name) : ForThisHop http headers name := by
  refine stripped.imp_right fun named => ?_
  obtain ⟨line, member, _, element⟩ := mem_namedByConnection.mp named
  exact ⟨line, member, element⟩

theorem getAll_stripHopByHop (headers : HeaderMap) (name : HeaderName) :
    (stripHopByHop http headers).getAll name =
      if Stripped http headers name then [] else headers.getAll name := by
  rw [stripHopByHop, getAll_foldl_remove]
  exact if_congr List.mem_append rfl rfl

/-! ## A request, line by line -/

theorem mem_of_lookup
    (found : lines.lookup name = some added) : (name, added) ∈ lines := by
  obtain ⟨_, _, whole, _⟩ := List.lookup_eq_some_iff.mp found
  simp [whole]

theorem lookup_none
    (absent : ∀ added, (name, added) ∉ lines) : lines.lookup name = none := by
  cases found : lines.lookup name with
  | none => rfl
  | some added => exact absurd (mem_of_lookup found) (absent added)

def setAll (headers : HeaderMap) (lines : List (HeaderName × Str)) : HeaderMap :=
  lines.foldl (fun headers line => set headers line.1 line.2) headers

theorem getAll_setAll (headers : HeaderMap)
    (distinct : (lines.map Prod.fst).Nodup) (name : HeaderName) :
    (setAll headers lines).getAll name =
      match (lines.lookup name).bind HeaderValue.fromStr with
      | some value => [value]
      | none => headers.getAll name := by
  induction lines generalizing headers with
  | nil => rfl
  | cons line rest ih =>
    rw [List.map_cons, List.nodup_cons] at distinct
    rw [setAll, List.foldl_cons, ← setAll, ih _ distinct.2, List.lookup_cons]
    by_cases same : name = line.1
    · subst same
      have last : rest.lookup line.1 = none :=
        lookup_none fun added member => distinct.1 (List.mem_map.mpr ⟨_, member, rfl⟩)
      simp only [last, Option.bind_none, beq_self_eq_true, Option.bind_some, set]
      cases HeaderValue.fromStr line.2 with
      | none => rfl
      | some value => simp
    · rw [getAll_set_of_ne same, beq_false_of_ne same]

def forwardedForText (headers : HeaderMap) (client : IpAddr) : Str :=
  match (headers.get xForwardedFor).bind HeaderValue.toStr with
  | some existing => existing ++ ", ".toList ++ Address.displayIpAddr client
  | none => Address.displayIpAddr client

def forwardedText (forwarding : Forwarding) : Str :=
  "for=".toList ++ Address.displayIpAddr forwarding.client ++ ";host=".toList ++ forwarding.host ++
    ";proto=".toList ++ forwarding.proto

/-- The lines that say where a request came from. -/
def forwardingLines (headers : HeaderMap) (forwarding : Forwarding) :
    List (HeaderName × Str) :=
  [(xForwardedFor, forwardedForText headers forwarding.client),
    (xForwardedProto, forwarding.proto), (xForwardedHost, forwarding.host),
    (forwardedHeader, forwardedText forwarding)] ++
  if headers.getAll xRequestId = [] then [(xRequestId, forwarding.requestId)] else []

theorem addForwarding_eq (headers : HeaderMap) (forwarding : Forwarding) :
    addForwarding headers forwarding =
      setAll headers (forwardingLines headers forwarding) := by
  let four := set (set (set (set headers xForwardedFor
    (forwardedForText headers forwarding.client)) xForwardedProto forwarding.proto)
    xForwardedHost forwarding.host) forwardedHeader (forwardedText forwarding)
  have kept : four.getAll xRequestId = headers.getAll xRequestId := by
    iterate 4 rw [getAll_set_of_ne (by decide)]
  have unfolded : addForwarding headers forwarding =
      if (four.getAll xRequestId).isEmpty then set four xRequestId forwarding.requestId
      else four := rfl
  rw [unfolded, kept, forwardingLines]
  by_cases none : headers.getAll xRequestId = []
  · rw [if_pos (by simp [none]), if_pos none]
    rfl
  · rw [if_neg (by simpa using none), if_neg none]
    rfl

theorem nodup_forwardingLines (headers : HeaderMap) (forwarding : Forwarding) :
    ((forwardingLines headers forwarding).map Prod.fst).Nodup := by
  have names : [xForwardedFor, xForwardedProto, xForwardedHost, forwardedHeader, xRequestId].Nodup := by
    decide
  unfold forwardingLines
  split
  · exact names
  · exact names.sublist (List.sublist_append_left _ [xRequestId])

theorem lookup_forwardingLines {forwarding : Forwarding}
    (listed : (name, added) ∈ forwardingLines headers forwarding) :
    (forwardingLines headers forwarding).lookup name = some added := by
  cases found : (forwardingLines headers forwarding).lookup name with
  | none => simpa using List.lookup_eq_none_iff.mp found _ listed
  | some other =>
    have same := List.inj_on_of_nodup_map (nodup_forwardingLines headers forwarding) listed
      (mem_of_lookup found) rfl
    rw [(Prod.mk.inj same).2]

/-- What a client's headers leave for the node to add to. -/
def onward (http : Http) (headers : HeaderMap) : HeaderMap :=
  if asksForTrailers headers then
    (stripHopByHop http headers).insert teHeader (HeaderValue.ofText "trailers".toList)
  else stripHopByHop http headers

theorem getAll_onward (headers : HeaderMap) (name : HeaderName) :
    (onward http headers).getAll name =
      if name = teHeader ∧ asksForTrailers headers = true then
        [HeaderValue.ofText "trailers".toList]
      else if Stripped http headers name then []
      else headers.getAll name := by
  unfold onward
  by_cases asks : asksForTrailers headers = true
  · rw [if_pos asks, HeaderMap.getAll_insert, getAll_stripHopByHop]
    simp only [asks, and_true]
  · rw [if_neg asks, getAll_stripHopByHop]
    rw [if_neg (fun both : name = teHeader ∧ _ => asks both.2)]

/-- What is sent under a name, of these headers and of what the node adds to them. -/
theorem getAll_toBackend (head : Parts http) (forwarding : Forwarding) (name : HeaderName) :
    (toBackend head forwarding).headers.getAll name =
      match if name = hostHeader then targetHost head.uri else none with
      | some value => [value]
      | none =>
        match ((forwardingLines (onward http head.headers) forwarding).lookup name).bind
          HeaderValue.fromStr with
        | some value => [value]
        | none => (onward http head.headers).getAll name := by
  have unfolded : (toBackend head forwarding).headers =
      match targetHost head.uri with
      | some host => (addForwarding (onward http head.headers) forwarding).insert hostHeader host
      | none => addForwarding (onward http head.headers) forwarding := rfl
  rw [unfolded, ← getAll_setAll _ (nodup_forwardingLines ..), ← addForwarding_eq]
  cases targetHost head.uri with
  | none => simp
  | some host => by_cases same : name = hostHeader <;> simp [same]

theorem getAll_send {request : Attempt}
    (ended : send http scheme authority request = .ok sent) (name : HeaderName) :
    sent.headers.getAll name =
      if name = hostHeader then
        if overHttp1 scheme request.version then
          if request.headers.getAll hostHeader = [] then
            (HeaderValue.fromStr (filledHost http (scheme == .https) authority)).toList
          else request.headers.getAll hostHeader
        else []
      else request.headers.getAll name := by
  unfold send at ended
  split at ended
  · cases ended
    dsimp only
    by_cases same : name = hostHeader
    · subst same
      rw [if_pos rfl]
      by_cases plain : overHttp1 scheme request.version = true
      · rw [if_pos plain, if_pos plain]
        by_cases none : request.headers.getAll hostHeader = []
        · rw [if_pos none, if_pos (by simp [none]), set]
          cases HeaderValue.fromStr (filledHost http (scheme == .https) authority) with
          | none => exact none
          | some value => simp
        · rw [if_neg none, if_neg (by simpa using none)]
      · rw [if_neg plain, if_neg plain, HeaderMap.getAll_remove, if_pos rfl]
    · rw [if_neg same]
      by_cases plain : overHttp1 scheme request.version = true
      · rw [if_pos plain]
        split
        · exact getAll_set_of_ne same _
        · rfl
      · rw [if_neg plain, HeaderMap.getAll_remove, if_neg same]
  · cases ended

/-! ## What crosses the node -/

/-- A line of a request that is the node's own, not its client's. -/
inductive OwnLine (head : Parts http) (forwarding : Forwarding) (server : Str) :
    HeaderName → HeaderValue → Prop where
  | trailers : asksForTrailers head.headers = true →
      OwnLine head forwarding server teHeader (HeaderValue.ofText "trailers".toList)
  | forwardedFor {value : HeaderValue} :
      HeaderValue.fromStr (Address.displayIpAddr forwarding.client) = some value →
      OwnLine head forwarding server xForwardedFor value
  | forwardedProto {value : HeaderValue} : HeaderValue.fromStr forwarding.proto = some value →
      OwnLine head forwarding server xForwardedProto value
  | forwardedHost {value : HeaderValue} : HeaderValue.fromStr forwarding.host = some value →
      OwnLine head forwarding server xForwardedHost value
  | forwarded {value : HeaderValue} :
      HeaderValue.fromStr (forwardedText forwarding) = some value →
      OwnLine head forwarding server forwardedHeader value
  | requestId {value : HeaderValue} : HeaderValue.fromStr forwarding.requestId = some value →
      OwnLine head forwarding server xRequestId value
  | targetHost {value : HeaderValue} : targetHost head.uri = some value →
      OwnLine head forwarding server hostHeader value
  | server {value : HeaderValue} : HeaderValue.fromStr server = some value →
      OwnLine head forwarding server hostHeader value

def SetOnRequest (head : Parts http) (plain : Bool) (name : HeaderName) : Prop :=
  name ∈ [xForwardedFor, xForwardedProto, xForwardedHost, forwardedHeader] ∨
    (name = xRequestId ∧ head.headers.getAll xRequestId = []) ∨
    (name = hostHeader ∧ ((targetHost head.uri).isSome ∨ head.headers.getAll hostHeader = [] ∨
      plain = false))

theorem onward_stripped {head : Parts http}
    (stripped : Stripped http head.headers name) :
    (onward http head.headers).getAll name =
      if name = teHeader ∧ asksForTrailers head.headers = true then
        [HeaderValue.ofText "trailers".toList] else [] := by
  rw [getAll_onward, if_pos stripped]

theorem onward_kept {head : Parts http}
    (kept : ¬ Stripped http head.headers name) :
    (onward http head.headers).getAll name = head.headers.getAll name := by
  have own : teHeader ∈ hopByHop := by decide
  rw [getAll_onward, if_neg, if_neg kept]
  rintro ⟨rfl, _⟩
  exact kept (.inl own)

theorem ownLine_of_lookup {head : Parts http}
    {forwarding : Forwarding} {server : Str}
    (stripped : Stripped http head.headers name)
    (found : (forwardingLines (onward http head.headers) forwarding).lookup name = some added)
    (made : HeaderValue.fromStr added = some value) :
    OwnLine head forwarding server name value := by
  have member := mem_of_lookup found
  have bare : (onward http head.headers).getAll xForwardedFor = [] →
      forwardedForText (onward http head.headers) forwarding.client =
        Address.displayIpAddr forwarding.client := by
    intro none
    simp only [forwardedForText, HeaderMap.get, none]
    rfl
  simp only [forwardingLines, List.mem_append, List.mem_cons, Prod.mk.injEq, List.not_mem_nil,
    or_false] at member
  rcases member with (⟨rfl, rfl⟩ | ⟨rfl, rfl⟩ | ⟨rfl, rfl⟩ | ⟨rfl, rfl⟩) | last
  · rw [bare] at made
    · exact .forwardedFor made
    · rw [onward_stripped stripped, if_neg]
      exact fun both => absurd both.1 (by decide)
  · exact .forwardedProto made
  · exact .forwardedHost made
  · exact .forwarded made
  · split at last
    · obtain ⟨rfl, rfl⟩ := Prod.mk.inj (List.mem_singleton.mp last)
      exact .requestId made
    · cases last

theorem ownLine_of_toBackend {head : Parts http}
    {forwarding : Forwarding} (server : Str)
    (stripped : Stripped http head.headers name)
    (sent : value ∈ (toBackend head forwarding).headers.getAll name) :
    OwnLine head forwarding server name value := by
  rw [getAll_toBackend] at sent
  split at sent
  · rename_i host named
    split at named
    · rename_i same
      subst same
      cases List.mem_singleton.mp sent
      exact .targetHost named
    · cases named
  · split at sent
    · rename_i added set
      obtain ⟨line, found, made⟩ := Option.bind_eq_some_iff.mp set
      cases List.mem_singleton.mp sent
      exact ownLine_of_lookup stripped found made
    · rw [onward_stripped stripped] at sent
      split at sent
      · rename_i trailers
        obtain ⟨rfl, asks⟩ := trailers
        cases List.mem_singleton.mp sent
        exact .trailers asks
      · cases sent

theorem ownLine_of_send {head : Parts http}
    {forwarding : Forwarding} {attempt : Attempt}
    (same : attempt.headers = (toBackend head forwarding).headers)
    (ended : send http scheme authority attempt = .ok sent)
    (stripped : Stripped http head.headers name)
    (member : value ∈ sent.headers.getAll name) :
    OwnLine head forwarding (filledHost http (scheme == .https) authority) name value := by
  rw [getAll_send ended] at member
  split at member
  · rename_i host
    subst host
    split at member
    · split at member
      · exact .server (Option.mem_toList.mp member)
      · exact ownLine_of_toBackend _ stripped (same ▸ member)
    · cases member
  · exact ownLine_of_toBackend _ stripped (same ▸ member)

theorem setOnRequest_of_line {head : Parts http} {forwarding : Forwarding} {plain : Bool}
    (kept : (onward http head.headers).getAll name = head.headers.getAll name)
    (member : (name, added) ∈ forwardingLines (onward http head.headers) forwarding) :
    SetOnRequest head plain name := by
  simp only [forwardingLines, List.mem_append, List.mem_cons, Prod.mk.injEq, List.not_mem_nil,
    or_false] at member
  rcases member with (⟨rfl, _⟩ | ⟨rfl, _⟩ | ⟨rfl, _⟩ | ⟨rfl, _⟩) | last
  · exact .inl (by simp)
  · exact .inl (by simp)
  · exact .inl (by simp)
  · exact .inl (by simp)
  · split at last
    · rename_i none
      obtain ⟨rfl, _⟩ := Prod.mk.inj (List.mem_singleton.mp last)
      exact .inr (.inl ⟨rfl, kept ▸ none⟩)
    · cases last

theorem lookup_host (headers : HeaderMap) (forwarding : Forwarding) :
    (forwardingLines headers forwarding).lookup hostHeader = none := by
  have others : hostHeader ∉
      [xForwardedFor, xForwardedProto, xForwardedHost, forwardedHeader, xRequestId] := by decide
  apply lookup_none
  intro added member
  have named := List.mem_map_of_mem (f := Prod.fst) member
  unfold forwardingLines at named
  split at named
  · exact others named
  · exact others (List.mem_append_left [xRequestId] named)

/-- What is sent under a name that is not removed. -/
theorem getAll_sent_kept {head : Parts http} {forwarding : Forwarding}
    {attempt : Attempt}
    (same : attempt.headers = (toBackend head forwarding).headers)
    (ended : send http scheme authority attempt = .ok sent)
    (kept : ¬ Stripped http head.headers name) :
    sent.headers.getAll name =
      if name = hostHeader then
        if overHttp1 scheme attempt.version then
          match targetHost head.uri with
          | some value => [value]
          | none =>
            if head.headers.getAll hostHeader = [] then
              (HeaderValue.fromStr (filledHost http (scheme == .https) authority)).toList
            else head.headers.getAll hostHeader
        else []
      else match ((forwardingLines (onward http head.headers) forwarding).lookup name).bind
          HeaderValue.fromStr with
        | some value => [value]
        | none => head.headers.getAll name := by
  rw [getAll_send ended, same]
  by_cases host : name = hostHeader
  · subst host
    simp only [if_true, getAll_toBackend, lookup_host, onward_kept kept, Option.bind_none]
    cases targetHost head.uri <;> rfl
  · simp only [host, if_false, getAll_toBackend, onward_kept kept]

theorem sent_as_it_came {head : Parts http} {forwarding : Forwarding}
    {attempt : Attempt}
    (same : attempt.headers = (toBackend head forwarding).headers)
    (ended : send http scheme authority attempt = .ok sent)
    (passes : ¬ Stripped http head.headers name)
    (free : ¬ SetOnRequest head (overHttp1 scheme attempt.version) name) :
    sent.headers.getAll name = head.headers.getAll name := by
  rw [getAll_sent_kept same ended passes]
  split
  · rename_i host
    subst host
    have plain : overHttp1 scheme attempt.version = true := by
      by_contra other
      exact free (.inr (.inr ⟨rfl, .inr (.inr (Bool.not_eq_true _ ▸ other))⟩))
    have unnamed : targetHost head.uri = none :=
      Option.not_isSome_iff_eq_none.mp fun some => free (.inr (.inr ⟨rfl, .inl some⟩))
    have lines : head.headers.getAll hostHeader ≠ [] :=
      fun none => free (.inr (.inr ⟨rfl, .inr (.inl none)⟩))
    rw [if_pos plain, unnamed]
    exact if_neg lines
  · rw [lookup_none fun added member => free (setOnRequest_of_line (onward_kept passes) member)]
    rfl

/-! ## A response, line by line -/

/-- A line of a response that is the node's own, not its backend's. -/
inductive OwnAnswerLine (isTls : Bool) (hsts requestId : Str) : HeaderName → HeaderValue → Prop where
  | hsts {value : HeaderValue} : isTls = true → HeaderValue.fromStr hsts = some value →
      OwnAnswerLine isTls hsts requestId strictTransportSecurity value
  | requestId {value : HeaderValue} : HeaderValue.fromStr requestId = some value →
      OwnAnswerLine isTls hsts requestId xRequestId value

def SetOnAnswer (response : Response) (isTls : Bool) (hsts : Str) (name : HeaderName) : Prop :=
  (name = strictTransportSecurity ∧ isTls = true ∧ hsts ≠ []) ∨
    (name = xRequestId ∧ response.headers.getAll xRequestId = [])

/-- The lines the node sets on a response. -/
def answerLines (headers : HeaderMap) (isTls : Bool) (hsts requestId : Str) :
    List (HeaderName × Str) :=
  (if isTls = true ∧ hsts ≠ [] then [(strictTransportSecurity, hsts)] else []) ++
    if headers.getAll xRequestId = [] then [(xRequestId, requestId)] else []

theorem toClient_headers (response : Response) (isTls : Bool) (hsts requestId : Str) :
    (toClient http response isTls hsts requestId).headers =
      setAll (stripHopByHop http response.headers)
        (answerLines (stripHopByHop http response.headers) isTls hsts requestId) := by
  let first := if isTls && !hsts.isEmpty then
    set (stripHopByHop http response.headers) strictTransportSecurity hsts
    else stripHopByHop http response.headers
  have unfolded : (toClient http response isTls hsts requestId).headers =
      if (first.getAll xRequestId).isEmpty then set first xRequestId requestId else first := rfl
  have kept : first.getAll xRequestId =
      (stripHopByHop http response.headers).getAll xRequestId := by
    unfold first
    split
    · exact getAll_set_of_ne (by decide) hsts
    · rfl
  have secured : (isTls && !hsts.isEmpty) = true ↔ isTls = true ∧ hsts ≠ [] := by simp
  rw [unfolded, kept, answerLines]
  simp only [first, secured, List.isEmpty_iff]
  -- each line that is set is set on what the others left
  split <;> split <;>
    simp only [setAll, List.cons_append, List.nil_append, List.foldl_cons, List.foldl_nil]

theorem nodup_answerLines (headers : HeaderMap) (isTls : Bool) (hsts requestId : Str) :
    ((answerLines headers isTls hsts requestId).map Prod.fst).Nodup := by
  have names : [strictTransportSecurity, xRequestId].Nodup := by decide
  unfold answerLines
  split
  · split
    · exact names
    · exact List.nodup_singleton _
  · split
    · exact List.nodup_singleton _
    · exact .nil

theorem mem_answerLines {isTls : Bool} {hsts requestId : Str}
  (member : (name, added) ∈ answerLines headers isTls hsts requestId) :
    (name = strictTransportSecurity ∧ added = hsts ∧ isTls = true ∧ hsts ≠ []) ∨
      (name = xRequestId ∧ added = requestId ∧ headers.getAll xRequestId = []) := by
  rw [answerLines, List.mem_append] at member
  cases member with
  | inl first =>
    split at first
    · rename_i secured
      obtain ⟨rfl, rfl⟩ := Prod.mk.inj (List.mem_singleton.mp first)
      exact .inl ⟨rfl, rfl, secured⟩
    · cases first
  | inr last =>
    split at last
    · rename_i none
      obtain ⟨rfl, rfl⟩ := Prod.mk.inj (List.mem_singleton.mp last)
      exact .inr ⟨rfl, rfl, none⟩
    · cases last

theorem ownAnswerLine_of_toClient {response : Response} {isTls : Bool} {hsts requestId : Str}
    (stripped : Stripped http response.headers name)
    (member : value ∈ (toClient http response isTls hsts requestId).headers.getAll name) :
    OwnAnswerLine isTls hsts requestId name value := by
  rw [toClient_headers, getAll_setAll _ (nodup_answerLines ..)] at member
  split at member
  · rename_i own set
    obtain ⟨added, found, made⟩ := Option.bind_eq_some_iff.mp set
    cases List.mem_singleton.mp member
    rcases mem_answerLines (mem_of_lookup found) with ⟨rfl, rfl, tls, _⟩ | ⟨rfl, rfl, _⟩
    · exact .hsts tls made
    · exact .requestId made
  · rw [getAll_stripHopByHop, if_pos stripped] at member
    cases member

theorem answered_as_it_came {response : Response} {isTls : Bool} {hsts requestId : Str}
    (passes : ¬ Stripped http response.headers name)
    (free : ¬ SetOnAnswer response isTls hsts name) :
    (toClient http response isTls hsts requestId).headers.getAll name =
      response.headers.getAll name := by
  have kept : (stripHopByHop http response.headers).getAll name = response.headers.getAll name := by
    rw [getAll_stripHopByHop, if_neg passes]
  have unset : (answerLines (stripHopByHop http response.headers) isTls hsts requestId).lookup name =
      none := by
    apply lookup_none
    intro added member
    rcases mem_answerLines member with ⟨rfl, _, secured⟩ | ⟨rfl, _, none⟩
    · exact free (.inl ⟨rfl, secured⟩)
    · exact free (.inr ⟨rfl, kept ▸ none⟩)
  rw [toClient_headers, getAll_setAll _ (nodup_answerLines ..), unset]
  exact kept

end

def Connection.forwarding (conn : Connection) (host requestId : Str) : Forwarding :=
  ⟨conn.client, if conn.isTls then "https".toList else "http".toList, host, requestId⟩

open Interleaving in
theorem attempt_headers {ι : Type} [DecidableEq ι] {http : Http} {pool : Pool Scheme} {r : ι}
    (forwarder : Forwarder) (conn : Connection) (request : Request http) (host requestId : Str)
    {env : Traffic ι → Traffic ι → Prop} (kept : ∀ s s', env s s' → s'.own r = s.own r)
    {s s' : Traffic ι} (untouched : Untouched (s.own r))
    {p : Program (Traffic ι) (Forwarded × RequestRecord)}
    (steps : Program.Steps env
      (forward forwarder conn pool r request (.begin request host requestId), s) (p, s'))
    {t : Try} (made : t ∈ (s'.lanes r).tries) :
    t.attempt.headers = (toBackend request.toParts (conn.forwarding host requestId)).headers := by
  rw [(forward_allowed forwarder conn request host requestId kept untouched steps).2.same t made]
  rfl

end Gfe
