import Gfe.Handler.Headers

/-! # The clients a request came through

`X-Forwarded-For` is a list over all its lines, and the node adds the client it
talks to. It reads the first line only, and only if that is text, and then sets the
header in place of all lines: the list is kept if it was in one line of text.
-/

namespace Gfe

section

variable {http : Http}

def listOf (headers : HeaderMap) (name : HeaderName) : List HeaderValue :=
  (headers.getAll name).flatMap HeaderValue.elements

instance (headers : HeaderMap) (name : HeaderName) : Decidable (NamedBySender http headers name) :=
  inferInstanceAs (Decidable (∃ line ∈ headers.getAll connectionHeader,
    ∃ element ∈ line.elements, http.headerName element.text = some name))

def clientsSent (http : Http) (headers : HeaderMap) : List HeaderValue :=
  if NamedBySender http headers xForwardedFor then [] else listOf headers xForwardedFor

/-! ## One more element -/

theorem ofText_visible {text : Str} (visible : ∀ c ∈ text, 32 < c.toNat ∧ c.toNat < 127) :
    (∀ byte ∈ HeaderValue.ofText text, HeaderValue.isVisibleAscii byte = true) ∧
      (HeaderValue.ofText text).text = text := by
  obtain ⟨value, made, read⟩ := fromStr_visible visible
  have same : HeaderValue.ofText text = value := by
    simp only [HeaderValue.fromStr, Option.ite_none_right_eq_some, Option.some.injEq] at made
    exact made.2
  rw [same]
  exact HeaderValue.toStr_eq_some.mp read

theorem ofText_address (address : IpAddr) :
    (∀ byte ∈ HeaderValue.ofText (Address.displayIpAddr address),
        HeaderValue.isVisibleAscii byte = true) ∧
      (HeaderValue.ofText (Address.displayIpAddr address)).text = Address.displayIpAddr address := by
  apply ofText_visible
  intro c member
  obtain ⟨low, high, _⟩ := (Address.isAddressChar_displayIpAddr address c member).visible
  exact ⟨low, high⟩

theorem address_isElement (address : IpAddr) :
    ∀ byte ∈ HeaderValue.ofText (Address.displayIpAddr address),
      HeaderValue.isVisibleAscii byte = true ∧ HeaderValue.isComma byte = false ∧
        HeaderValue.isBlank byte = false := by
  obtain ⟨visible, text⟩ := ofText_address address
  intro byte member
  have char : Char.ofNat byte.toNat ∈ Address.displayIpAddr address := text ▸ List.mem_map_of_mem member
  obtain ⟨low, _, comma⟩ := (Address.isAddressChar_displayIpAddr address _ char).visible
  refine ⟨visible byte member, ?_, ?_⟩
  · rw [← HeaderValue.comma_iff]
    simpa using comma
  · rw [HeaderValue.toNat_ofNat_byte] at low
    simp only [HeaderValue.isBlank, Bool.or_eq_false_iff, beq_eq_false_iff_ne, ne_eq,
      ← UInt8.toNat_inj, UInt8.reduceToNat]
    omega

theorem elements_address (address : IpAddr) :
    (HeaderValue.ofText (Address.displayIpAddr address)).elements =
      [HeaderValue.ofText (Address.displayIpAddr address)] := by
  have one := address_isElement address
  rw [HeaderValue.elements, Separated.elements,
    List.splitOnP_eq_singleton fun byte member => (one byte member).2.1, List.map_singleton,
    Separated.trim_of_none fun byte member => (one byte member).2.2]

def appended (line : HeaderValue) (address : IpAddr) : HeaderValue :=
  line ++ 44 :: 32 :: HeaderValue.ofText (Address.displayIpAddr address)

theorem elements_appended (line : HeaderValue)
    (address : IpAddr) :
    (appended line address).elements =
      line.elements ++ [HeaderValue.ofText (Address.displayIpAddr address)] := by
  have one := address_isElement address
  have inside : ∀ byte ∈ 32 :: HeaderValue.ofText (Address.displayIpAddr address),
      HeaderValue.isComma byte = false := by
    intro byte member
    cases List.mem_cons.mp member with
    | inl space => exact space ▸ rfl
    | inr byte => exact (one _ byte).2.1
  rw [appended, HeaderValue.elements, Separated.elements_append line rfl inside,
    Separated.trim_cons rfl, Separated.trim_of_none fun byte member => (one byte member).2.2]
  rfl

theorem fromStr_appended {line : HeaderValue}
    (visible : ∀ byte ∈ line, HeaderValue.isVisibleAscii byte = true) (address : IpAddr) :
    HeaderValue.fromStr (line.text ++ ", ".toList ++ Address.displayIpAddr address) =
      some (appended line address) := by
  obtain ⟨client, text⟩ := ofText_address address
  have all : ∀ byte ∈ appended line address, HeaderValue.isVisibleAscii byte = true := by
    intro byte member
    simp only [appended, List.mem_append, List.mem_cons] at member
    rcases member with old | rfl | rfl | new
    · exact visible byte old
    · rfl
    · rfl
    · exact client byte new
  have same : (appended line address).text =
      line.text ++ ", ".toList ++ Address.displayIpAddr address := by
    rw [← text]
    simp [appended, HeaderValue.text]
  rw [← same]
  exact HeaderValue.fromStr_text all

/-! ## What the backend gets -/

/-- The elements the node reads of what a client's headers leave: those of the first line, if it
    is text. -/
def clientsRead (http : Http) (headers : HeaderMap) : List HeaderValue :=
  match (onward http headers).get xForwardedFor with
  | some line => if (HeaderValue.toStr line).isSome then line.elements else []
  | none => []

theorem fromStr_forwardedForText (http : Http) (headers : HeaderMap)
    (address : IpAddr) :
    ∃ value, HeaderValue.fromStr (forwardedForText (onward http headers) address) =
        some value ∧
      value.elements = clientsRead http headers ++ [HeaderValue.ofText (Address.displayIpAddr address)] := by
  obtain ⟨visible, text⟩ := ofText_address address
  have alone : HeaderValue.fromStr (Address.displayIpAddr address) =
      some (HeaderValue.ofText (Address.displayIpAddr address)) := by
    have sent := HeaderValue.fromStr_text visible
    rwa [text] at sent
  unfold forwardedForText clientsRead
  cases (onward http headers).get xForwardedFor with
  | none => exact ⟨_, alone, elements_address address⟩
  | some line =>
    cases read : HeaderValue.toStr line with
    | none =>
      simp only [Option.bind_some, read]
      exact ⟨_, alone, elements_address address⟩
    | some existing =>
      obtain ⟨shown, rfl⟩ := HeaderValue.toStr_eq_some.mp read
      simp only [Option.bind_some, read, Option.isSome_some, if_true]
      exact ⟨_, fromStr_appended shown address,
        elements_appended line address⟩

theorem listOf_toBackend (head : Parts http)
    (forwarding : Forwarding) :
    listOf (toBackend head forwarding).headers xForwardedFor =
      clientsRead http head.headers ++ [HeaderValue.ofText (Address.displayIpAddr forwarding.client)] := by
  obtain ⟨value, made, elements⟩ :=
    fromStr_forwardedForText http head.headers forwarding.client
  have lookup := @lookup_forwardingLines xForwardedFor (onward http head.headers)
    (forwardedForText (onward http head.headers) forwarding.client) forwarding
    (by simp [forwardingLines])
  rw [listOf, getAll_toBackend, if_neg (by decide), lookup]
  simp only [Option.bind_some, made, List.flatMap_cons, List.flatMap_nil, List.append_nil, elements]

/-- What a client may send for its list to be kept: one line, of text. What it says is for this
    hop only must not be read. -/
def ListIsRead (http : Http) (headers : HeaderMap) : Prop :=
  if NamedBySender http headers xForwardedFor then
    ∀ line, (onward http headers).get xForwardedFor = some line → HeaderValue.toStr line = none
  else
    headers.getAll xForwardedFor = [] ∨
      ∃ line, headers.getAll xForwardedFor = [line] ∧ (HeaderValue.toStr line).isSome

theorem clientsRead_eq_nil_iff {headers : HeaderMap} :
    clientsRead http headers = [] ↔
      ∀ line, (onward http headers).get xForwardedFor = some line →
        HeaderValue.toStr line = none := by
  unfold clientsRead
  cases (onward http headers).get xForwardedFor with
  | none => simp
  | some line =>
    have some := Separated.elements_ne_nil HeaderValue.isComma HeaderValue.isBlank line
    cases read : HeaderValue.toStr line with
    | none => simp [read]
    | some text => simpa [read, HeaderValue.elements] using some

theorem onward_forwardedFor {headers : HeaderMap}
    (free : ¬ NamedBySender http headers xForwardedFor) :
    (onward http headers).getAll xForwardedFor = headers.getAll xForwardedFor := by
  have other : xForwardedFor ≠ teHeader := by decide
  have passes : xForwardedFor ∉ hopByHop := by decide
  have kept : ¬ Stripped http headers xForwardedFor := fun stripped =>
    (forThisHop_of_stripped stripped).elim passes free
  rw [getAll_onward, if_neg fun both => other both.1, if_neg kept]

/-- The list that is read is the one that was sent, exactly then. -/
theorem clientsRead_eq_iff (headers : HeaderMap) :
    clientsRead http headers = clientsSent http headers ↔ ListIsRead http headers := by
  unfold clientsSent ListIsRead
  by_cases named : NamedBySender http headers xForwardedFor
  · rw [if_pos named, if_pos named]
    exact clientsRead_eq_nil_iff
  · rw [if_neg named, if_neg named, clientsRead, HeaderMap.get, onward_forwardedFor named, listOf]
    cases headers.getAll xForwardedFor with
    | nil => simp
    | cons line rest =>
      have some : ∀ value : HeaderValue, value.elements ≠ [] :=
        Separated.elements_ne_nil HeaderValue.isComma HeaderValue.isBlank
      rw [List.head?_cons, List.flatMap_cons]
      by_cases read : (HeaderValue.toStr line).isSome = true
      · cases rest with
        | nil => simp [read]
        | cons second others => simp [read, some]
      · simp [read, some]

end

/-! ## Every request that is forwarded -/

section Forwarding

open Interleaving

variable {ι : Type} [DecidableEq ι] {http : Http} {pool : Pool Scheme} {r : ι}

theorem listOf_sent (forwarder : Forwarder) (conn : Connection) (request : Request http)
    (host requestId : Str) {env : Traffic ι → Traffic ι → Prop}
    (kept : ∀ s s', env s s' → s'.own r = s.own r) {s s' : Traffic ι}
    (untouched : Untouched (s.own r)) {p : Program (Traffic ι) (Forwarded × RequestRecord)}
    (steps : Program.Steps env
      (forward forwarder conn pool r request (.begin request host requestId), s) (p, s'))
    {t : Try} (made : t ∈ (s'.lanes r).tries) {sent : SentHead}
    (ended : send http t.scheme t.authority t.attempt = .ok sent) :
    listOf sent.headers xForwardedFor =
      clientsRead http request.headers ++ [HeaderValue.ofText (Address.displayIpAddr conn.client)] := by
  have other : xForwardedFor ≠ hostHeader := by decide
  have same := attempt_headers forwarder conn request host requestId kept untouched steps made
  rw [listOf, getAll_send ended, if_neg other, same]
  exact listOf_toBackend request.toParts (conn.forwarding host requestId)

/-- Whatever client headers a request has: the list every attempt sends is the client's with its
    address at the end, exactly if the client sent its list in one line of text. -/
theorem forwarded_for_is_appended_iff (forwarder : Forwarder) (conn : Connection)
    (request : Request http) (host requestId : Str)
    {env : Traffic ι → Traffic ι → Prop} (kept : ∀ s s', env s s' → s'.own r = s.own r)
    {s s' : Traffic ι} (untouched : Untouched (s.own r))
    {p : Program (Traffic ι) (Forwarded × RequestRecord)}
    (steps : Program.Steps env
      (forward forwarder conn pool r request (.begin request host requestId), s) (p, s')) :
    ∀ t ∈ (s'.lanes r).tries, ∀ sent, send http t.scheme t.authority t.attempt = .ok sent →
      (listOf sent.headers xForwardedFor = clientsSent http request.headers ++
        [HeaderValue.ofText (Address.displayIpAddr conn.client)] ↔ ListIsRead http request.headers) := by
  intro t made sent ended
  rw [listOf_sent forwarder conn request host requestId kept untouched steps made ended,
    List.append_left_inj]
  exact clientsRead_eq_iff request.headers

def twoLines : HeaderMap := [(xForwardedFor, [97]), (xForwardedFor, [98])]

/-- The second line is lost. -/
theorem second_forwarded_for_line_is_lost :
    clientsSent .plain twoLines = [[97], [98]] ∧
    ∃ t ∈ ((forwarded twoLines (.error .reset)).2.lanes ()).tries,
      ∃ sent, send .plain t.scheme t.authority t.attempt = .ok sent ∧
        listOf sent.headers xForwardedFor = [[97], [48, 46, 48, 46, 48, 46, 48]] := by
  have kept : ∀ s s' : Traffic Unit, s'.own () = s.own () → s'.own () = s.own () :=
    fun _ _ same => same
  have some : ((forwarded twoLines (.error .reset)).2.lanes ()).tries.any
      (·.sends xForwardedFor [97, 44, 32, 48, 46, 48, 46, 48, 46, 48]) = true := by decide +kernel
  obtain ⟨t, made, sent, ended, _⟩ := exists_sends some
  have list := listOf_sent .plain .plain (getRoot twoLines) ['h'] ['i'] kept
    (untouched_oneRequest .single (.error .reset)) (Program.steps_run _ _ _) made ended
  exact ⟨by decide +kernel, t, made, sent, ended, list.trans (by decide +kernel)⟩

def oneLine : HeaderMap := [(xForwardedFor, [97, 44, 98])]

/-- It is kept, with the client at its end. -/
theorem forwarded_for_line_is_kept :
    ∃ t ∈ ((forwarded oneLine (.error .reset)).2.lanes ()).tries,
      ∃ sent, send .plain t.scheme t.authority t.attempt = .ok sent ∧
        listOf sent.headers xForwardedFor = [[97], [98], [48, 46, 48, 46, 48, 46, 48]] := by
  have kept : ∀ s s' : Traffic Unit, s'.own () = s.own () → s'.own () = s.own () :=
    fun _ _ same => same
  have good : ListIsRead .plain (getRoot oneLine).headers := by
    unfold ListIsRead
    rw [if_neg (by decide)]
    exact .inr ⟨[97, 44, 98], by decide, by decide⟩
  have some : ((forwarded oneLine (.error .reset)).2.lanes ()).tries.any
      (·.sends xForwardedFor [97, 44, 98, 44, 32, 48, 46, 48, 46, 48, 46, 48]) = true := by decide +kernel
  obtain ⟨t, made, sent, ended, _⟩ := exists_sends some
  have list := (forwarded_for_is_appended_iff .plain .plain (getRoot oneLine) ['h'] ['i']
    kept (untouched_oneRequest .single (.error .reset))
    (Program.steps_run _ _ _) t made sent ended).mpr good
  exact ⟨t, made, sent, ended, list.trans (by decide +kernel)⟩

end Forwarding

end Gfe
