import Gfe.Handler.ForwardedFor

/-! # Headers for one hop

A header that is for one hop, or that `Connection` names, is not sent on. `Connection` is
read line by line, and a line with a byte that is not text is not read at all, so what it
names is overlooked. That matters only for names under which the sender's own lines would
go on: exactly those let a header cross.
-/

namespace Gfe

section

variable {http : Http}

/-- The sender says that this header is for one hop, and the node does not notice. -/
def Overlooked (http : Http) (headers : HeaderMap) (name : HeaderName) : Prop :=
  NamedBySender http headers name ∧ ¬ Stripped http headers name

theorem forThisHop_cases {headers : HeaderMap} {name : HeaderName}
    (hop : ForThisHop http headers name) :
    Stripped http headers name ∨ Overlooked http headers name := by
  by_cases stripped : Stripped http headers name
  · exact .inl stripped
  · exact .inr ⟨hop.resolve_left fun listed => stripped (.inl listed), stripped⟩

/-! ## Requests -/

/-- Nothing of a client goes on under this name: the node replaces its lines, or drops them. -/
def Replaced (head : Parts http) (forwarding : Forwarding) (plain : Bool) (name : HeaderName) :
    Prop :=
  (name = hostHeader ∧ ((targetHost head.uri).isSome ∨ plain = false)) ∨
    (name = xForwardedFor ∧ (head.headers.get xForwardedFor).bind HeaderValue.toStr = none) ∨
    ∃ line ∈ [(xForwardedProto, forwarding.proto), (xForwardedHost, forwarding.host),
      (forwardedHeader, forwardedText forwarding)], line.1 = name ∧
        (HeaderValue.fromStr line.2).isSome

/-- A name the node overlooks, without anything of the client going on under it. -/
def Harmless (head : Parts http) (forwarding : Forwarding) (plain : Bool) (server : Str)
    (name : HeaderName) : Prop :=
  Replaced head forwarding plain name ∨ (name ≠ xForwardedFor ∧
    ∀ value ∈ head.headers.getAll name, OwnLine head forwarding server name value)

section

variable {head : Parts http} {forwarding : Forwarding} {plain : Bool} {server : Str}
  {name : HeaderName} {value : HeaderValue}

theorem forwardedForText_onward (kept : ¬ Stripped http head.headers xForwardedFor) :
    forwardedForText (onward http head.headers) forwarding.client =
      forwardedForText head.headers forwarding.client := by
  rw [forwardedForText, HeaderMap.get, onward_kept kept]
  rfl

/-- A list that goes on is not the node's own line. -/
theorem not_ownLine_forwardedFor
    (listed : (head.headers.get xForwardedFor).bind HeaderValue.toStr ≠ none)
    (made : HeaderValue.fromStr (forwardedForText head.headers forwarding.client) = some value) :
    ¬ OwnLine head forwarding server xForwardedFor value := by
  obtain ⟨existing, found⟩ := Option.ne_none_iff_exists'.mp listed
  rw [forwardedForText, found] at made
  generalize named : xForwardedFor = name
  intro own
  cases own with
  | forwardedFor own =>
    have bytes : ∀ {text : Str}, HeaderValue.fromStr text = some value →
        value.length = (text.flatMap String.utf8EncodeChar).length := by
      intro text made
      rw [← Option.some.inj (Option.ite_none_right_eq_some.mp made).2]
    have longer := (bytes made).symm.trans (bytes own)
    have comma : ','.utf8Size = 1 := by decide
    simp [List.flatMap_append] at longer
    omega
  | _ => exact absurd named (by decide)

theorem lookup_of_replaced (host : name ≠ hostHeader) (client : name ≠ xForwardedFor)
    (replaced : Replaced head forwarding plain name) :
    (((forwardingLines (onward http head.headers) forwarding).lookup name).bind
      HeaderValue.fromStr).isSome := by
  obtain ⟨same, _⟩ | ⟨same, _⟩ | ⟨line, listed, rfl, valid⟩ := replaced
  · exact absurd same host
  · exact absurd same client
  · rw [lookup_forwardingLines (List.mem_append_left _ (List.mem_cons_of_mem _ listed))]
    exact valid

theorem ownLine_iff_of_set (kept : ¬ Stripped http head.headers name) {added : Str}
    (member : (name, added) ∈ forwardingLines (onward http head.headers) forwarding)
    (made : HeaderValue.fromStr added = some value) :
    OwnLine head forwarding server name value ↔ Harmless head forwarding plain server name := by
  have replaced : (name, added) ∈ [(xForwardedProto, forwarding.proto),
      (xForwardedHost, forwarding.host), (forwardedHeader, forwardedText forwarding)] →
      Harmless head forwarding plain server name := fun listed =>
    .inl (.inr (.inr ⟨(name, added), listed, rfl, by simp [made]⟩))
  simp only [forwardingLines, List.mem_append, List.mem_cons, Prod.mk.injEq, List.not_mem_nil,
    or_false] at member
  rcases member with (⟨rfl, rfl⟩ | ⟨rfl, rfl⟩ | ⟨rfl, rfl⟩ | ⟨rfl, rfl⟩) | last
  · rw [forwardedForText_onward kept] at made
    by_cases unread : (head.headers.get xForwardedFor).bind HeaderValue.toStr = none
    · have alone := made
      rw [forwardedForText, unread] at alone
      exact iff_of_true (.forwardedFor alone) (.inl (.inr (.inl ⟨rfl, unread⟩)))
    · refine iff_of_false (not_ownLine_forwardedFor unread made) ?_
      rintro ((⟨same, _⟩ | ⟨_, none⟩ | ⟨line, listed, same, _⟩) | ⟨other, _⟩)
      · exact absurd same (by decide)
      · exact unread none
      · have others : xForwardedFor ∉ [xForwardedProto, xForwardedHost, forwardedHeader] := by decide
        exact others (same ▸ List.mem_map_of_mem listed)
      · exact other rfl
  · exact iff_of_true (.forwardedProto made) (replaced (by simp))
  · exact iff_of_true (.forwardedHost made) (replaced (by simp))
  · exact iff_of_true (.forwarded made) (replaced (by simp))
  · split at last
    · rename_i none
      obtain ⟨rfl, rfl⟩ := Prod.mk.inj (List.mem_singleton.mp last)
      rw [onward_kept kept] at none
      exact iff_of_true (.requestId made) (.inr ⟨by decide, by simp [none]⟩)
    · cases last

/-- What goes on under a name that is not removed is the node's own, exactly then. -/
theorem ownLines_iff_harmless {scheme : ClientScheme} {authority : Str} {attempt : Attempt}
    (same : attempt.headers = (toBackend head forwarding).headers) {sent : SentHead}
    (ended : send http scheme authority attempt = .ok sent)
    (kept : ¬ Stripped http head.headers name) :
    (∀ value ∈ sent.headers.getAll name,
        OwnLine head forwarding (filledHost http (scheme == .https) authority) name value) ↔
      Harmless head forwarding (overHttp1 scheme attempt.version)
        (filledHost http (scheme == .https) authority) name := by
  rw [getAll_sent_kept same ended kept]
  by_cases host : name = hostHeader
  · subst host
    rw [if_pos rfl]
    cases plain : overHttp1 scheme attempt.version with
    | false => exact iff_of_true (by simp) (.inl (.inl ⟨rfl, .inr rfl⟩))
    | true =>
      cases target : targetHost head.uri with
      | some value =>
        refine iff_of_true ?_ (.inl (.inl ⟨rfl, .inl (by simp [target])⟩))
        simpa using OwnLine.targetHost target
      | none =>
        by_cases none : head.headers.getAll hostHeader = []
        · refine iff_of_true ?_ (.inr ⟨by decide, by simp [none]⟩)
          intro value filled
          simp only [none, if_true, Option.mem_toList] at filled
          exact .server filled
        · simp only [none, if_true, if_false]
          refine ⟨fun own => .inr ⟨by decide, own⟩, ?_⟩
          rintro ((⟨_, some | ⟨⟨⟩⟩⟩ | ⟨same, _⟩ | ⟨line, listed, same, _⟩) | ⟨_, own⟩)
          · simp [target] at some
          · exact absurd same (by decide)
          · have others : hostHeader ∉ [xForwardedProto, xForwardedHost, forwardedHeader] := by
              decide
            exact absurd (same ▸ List.mem_map_of_mem listed) others
          · exact own
  · rw [if_neg host]
    split
    · rename_i value set
      obtain ⟨added, found, made⟩ := Option.bind_eq_some_iff.mp set
      simpa using ownLine_iff_of_set kept (mem_of_lookup found) made
    · rename_i unset
      have client : name ≠ xForwardedFor := by
        rintro rfl
        obtain ⟨value, made, _⟩ := fromStr_forwardedForText http head.headers forwarding.client
        rw [@lookup_forwardingLines _ _ (forwardedForText (onward http head.headers)
          forwarding.client) _ (by simp [forwardingLines]), Option.bind_some, made] at unset
        cases unset
      refine ⟨fun own => .inr ⟨client, own⟩, ?_⟩
      rintro (replaced | ⟨_, own⟩)
      · simpa [unset] using lookup_of_replaced host client replaced
      · exact own

end

/-! ## Responses -/

/-- A name the node overlooks, without anything of the backend going on under it. -/
def HarmlessAnswer (response : Response) (isTls : Bool) (hsts requestId : Str) (name : HeaderName) :
    Prop :=
  (name = strictTransportSecurity ∧ isTls = true ∧ hsts ≠ [] ∧ (HeaderValue.fromStr hsts).isSome) ∨
    ∀ value ∈ response.headers.getAll name, OwnAnswerLine isTls hsts requestId name value

theorem ownAnswerLines_iff_harmless {response : Response} {isTls : Bool} {hsts requestId : Str}
    {name : HeaderName} (kept : ¬ Stripped http response.headers name) :
    (∀ value ∈ (toClient http response isTls hsts requestId).headers.getAll name,
        OwnAnswerLine isTls hsts requestId name value) ↔
      HarmlessAnswer response isTls hsts requestId name := by
  have lines : (stripHopByHop http response.headers).getAll name =
      response.headers.getAll name := by rw [getAll_stripHopByHop, if_neg kept]
  rw [toClient_headers, getAll_setAll _ (nodup_answerLines ..), lines]
  split
  · rename_i value set
    obtain ⟨added, found, made⟩ := Option.bind_eq_some_iff.mp set
    rcases mem_answerLines (mem_of_lookup found) with ⟨rfl, rfl, tls, some⟩ | ⟨rfl, rfl, none⟩
    · refine iff_of_true ?_ (.inl ⟨rfl, tls, some, by simp [made]⟩)
      simpa using OwnAnswerLine.hsts tls made
    · refine iff_of_true ?_ (.inr (by simp [← lines, none]))
      simpa using OwnAnswerLine.requestId made
  · rename_i unset
    refine ⟨.inr, ?_⟩
    rintro (⟨rfl, tls, some, valid⟩ | own)
    · simp [answerLines, tls, some] at unset
      simp [unset] at valid
    · exact own

end

/-! ## Every message -/

section Forwarding

open Interleaving

variable {ι : Type} [DecidableEq ι] {http : Http} {pool : Pool Scheme} {r : ι}

/-- Whatever is sent to a backend or answered to a client: what goes out under the names that are
    for one hop only is the node's own, exactly if the names it overlooks are harmless, and every
    other header that the node does not set goes on as it came. -/
theorem hop_headers_do_not_cross_iff (forwarder : Forwarder) (conn : Connection)
    (request : Request http) (host requestId : Str) {env : Traffic ι → Traffic ι → Prop}
    (kept : ∀ s s', env s s' → s'.own r = s.own r) {s s' : Traffic ι}
    (untouched : Untouched (s.own r)) {p : Program (Traffic ι) (Forwarded × RequestRecord)}
    (steps : Program.Steps env
      (forward forwarder conn pool r request (.begin request host requestId), s) (p, s')) :
    (∀ t ∈ (s'.lanes r).tries, ∀ sent, send http t.scheme t.authority t.attempt = .ok sent →
      ((∀ name value, ForThisHop http request.headers name → value ∈ sent.headers.getAll name →
        OwnLine request.toParts (conn.forwarding host requestId)
          (filledHost http (t.scheme == .https) t.authority) name value) ↔
        ∀ name, Overlooked http request.headers name →
          Harmless request.toParts (conn.forwarding host requestId)
            (overHttp1 t.scheme t.attempt.version)
            (filledHost http (t.scheme == .https) t.authority) name) ∧
      ∀ name, ¬ ForThisHop http request.headers name →
        ¬ SetOnRequest request.toParts (overHttp1 t.scheme t.attempt.version) name →
        sent.headers.getAll name = request.headers.getAll name) ∧
    ∀ answer record, p = .ret (.responded answer, record) →
      ∃ t ∈ (s'.lanes r).tries, ∃ response, t.outcome = some (.responded response) ∧
        ((∀ name value, ForThisHop http response.headers name →
            value ∈ answer.headers.getAll name →
            OwnAnswerLine conn.isTls forwarder.hsts requestId name value) ↔
          ∀ name, Overlooked http response.headers name →
            HarmlessAnswer response conn.isTls forwarder.hsts requestId name) ∧
        ∀ name, ¬ ForThisHop http response.headers name →
          ¬ SetOnAnswer response conn.isTls forwarder.hsts name →
          answer.headers.getAll name = response.headers.getAll name := by
  constructor
  · intro t made sent ended
    have same := attempt_headers forwarder conn request host requestId kept untouched steps made
    refine ⟨⟨?_, ?_⟩, ?_⟩
    · intro own name overlooked
      rw [← ownLines_iff_harmless same ended overlooked.2]
      exact fun value member => own name value (.inr overlooked.1) member
    · intro harmless name value hop member
      cases forThisHop_cases hop with
      | inl stripped => exact ownLine_of_send same ended stripped member
      | inr overlooked =>
        exact (ownLines_iff_harmless same ended overlooked.2).mpr (harmless name overlooked) value
          member
    · intro name passes free
      exact sent_as_it_came same ended (fun stripped => passes (forThisHop_of_stripped stripped)) free
  · intro answer record returned
    subst returned
    obtain ⟨_, relayed⟩ := forward_relays forwarder conn kept steps
    obtain ⟨t, made, response, got, rfl⟩ := relayed answer rfl
    refine ⟨t, made, response, got, ⟨?_, ?_⟩, ?_⟩
    · intro own name overlooked
      rw [← ownAnswerLines_iff_harmless overlooked.2]
      exact fun value member => own name value (.inr overlooked.1) member
    · intro harmless name value hop member
      cases forThisHop_cases hop with
      | inl stripped => exact ownAnswerLine_of_toClient stripped member
      | inr overlooked =>
        exact (ownAnswerLines_iff_harmless overlooked.2).mpr (harmless name overlooked) value member
    · intro name passes free
      exact answered_as_it_came (fun stripped => passes (forThisHop_of_stripped stripped)) free

/-- A `Connection` line that names `x`, and then has a byte that is not text. -/
def halfReadable : HeaderMap := [(connectionHeader, [120, 44, 255]), (['x'], [97])]

/-- The header it names is sent on. -/
theorem named_header_crosses :
    NamedBySender .plain halfReadable ['x'] ∧
      ∃ t ∈ ((forwarded halfReadable (.error .reset)).2.lanes ()).tries,
        ∃ sent, send .plain t.scheme t.authority t.attempt = .ok sent ∧
          [97] ∈ sent.headers.getAll ['x'] := by
  refine ⟨⟨[120, 44, 255], by decide, [120], by decide, rfl⟩, exists_sends ?_⟩
  decide +kernel

/-- A `Connection` line that is text and names `x`, and one that is not and names `z`, which is not
    among the headers. -/
def harmlessLines : HeaderMap :=
  [(connectionHeader, [120]), (connectionHeader, [122, 44, 255]), (['x'], [97]), (['y'], [98])]

/-- What is sent under the name that is read is the node's own, and another header goes on. -/
theorem named_header_stays :
    ∃ t ∈ ((forwarded harmlessLines (.error .reset)).2.lanes ()).tries,
      ∃ sent, send .plain t.scheme t.authority t.attempt = .ok sent ∧
        (∀ value ∈ sent.headers.getAll ['x'], OwnLine (getRoot harmlessLines).toParts
          (Connection.plain.forwarding ['h'] ['i'])
          (filledHost .plain (t.scheme == .https) t.authority) ['x'] value) ∧
        sent.headers.getAll ['y'] = [[98]] := by
  have kept : ∀ s s' : Traffic Unit, s'.own () = s.own () → s'.own () = s.own () :=
    fun _ _ same => same
  have named : NamedBySender .plain (getRoot harmlessLines).headers ['x'] :=
    ⟨[120], by decide, [120], by decide, rfl⟩
  have passes : ¬ ForThisHop .plain (getRoot harmlessLines).headers ['y'] := by
    unfold ForThisHop NamedBySender
    decide
  have some : ((forwarded harmlessLines (.error .reset)).2.lanes ()).tries.any
      (·.sends ['y'] [98]) = true := by decide +kernel
  obtain ⟨t, made, sent, ended, _⟩ := exists_sends some
  have free : ¬ SetOnRequest (getRoot harmlessLines).toParts (overHttp1 t.scheme t.attempt.version)
      ['y'] := by
    simp only [SetOnRequest, not_or]
    refine ⟨by decide, ?_, ?_⟩
    · exact fun both => absurd both.1 (by decide)
    · exact fun both => absurd both.1 (by decide)
  obtain ⟨own, onward⟩ := (hop_headers_do_not_cross_iff .plain .plain (getRoot harmlessLines) ['h']
    ['i'] kept (untouched_oneRequest .single (.error .reset)) (Program.steps_run _ _ _)).1 t made sent
    ended
  have harmless : ∀ name, Overlooked .plain (getRoot harmlessLines).headers name →
      (getRoot harmlessLines).headers.getAll name = [] ∧ name ≠ xForwardedFor := by
    have names : ∀ line ∈ (getRoot harmlessLines).headers.getAll connectionHeader,
        ∀ element ∈ line.elements, Stripped .plain (getRoot harmlessLines).headers element.text ∨
          (getRoot harmlessLines).headers.getAll element.text = [] ∧ element.text ≠ xForwardedFor := by
      decide
    rintro _ ⟨⟨line, member, element, inside, ⟨⟩⟩, kept⟩
    exact (names line member element inside).resolve_left kept
  refine ⟨t, made, sent, ended, fun value member => own.mpr ?_ ['x'] value (.inr named) member,
    onward ['y'] passes free⟩
  intro name overlooked
  obtain ⟨none, other⟩ := harmless name overlooked
  exact .inr ⟨other, by simp [none]⟩

end Forwarding

end Gfe
