import Gfe.Handler.Headers
import Gfe.Handler.Respond

/-! # The id of a request

The id a request is logged under is the client's if that is usable, else a new one.
What the backend gets as `X-Request-Id` is decided apart from it: the client's lines
if any are left, else the id. The two agree unless the client sends what is not
usable, or several lines.
-/

namespace Gfe

variable {value : HeaderValue} {headers : HeaderMap}

/-! ## Usable ids -/

/-- `{n:016x}`. -/
def hex16 (n : UInt64) : Str :=
  let digits := Nat.toDigits 16 n.toNat
  List.replicate (16 - digits.length) '0' ++ digits

/-- A new id, of two numbers drawn at random. -/
def randomId (a b : UInt64) : Str := hex16 a ++ hex16 b

namespace HeaderValue

/-- An id that is not empty, of at most 128 bytes, and printable ASCII. -/
def ValidId (value : HeaderValue) : Prop :=
  value ≠ [] ∧ value.length ≤ maxRequestIdLen ∧ ∀ byte ∈ value, 32 ≤ byte ∧ byte < 127

/-- An id that is taken from the client: tabs pass as well. -/
def UsableId (value : HeaderValue) : Prop :=
  value ≠ [] ∧ value.length ≤ maxRequestIdLen ∧ ∀ byte ∈ value, isVisibleAscii byte = true

instance (value : HeaderValue) : Decidable (ValidId value) :=
  inferInstanceAs (Decidable (_ ∧ _ ∧ _))

instance (value : HeaderValue) : Decidable (UsableId value) :=
  inferInstanceAs (Decidable (_ ∧ _ ∧ _))

theorem ValidId.usable (valid : ValidId value) : UsableId value := by
  refine ⟨valid.1, valid.2.1, ?_⟩
  intro byte member
  have := valid.2.2 byte member
  simp [isVisibleAscii, this.1, this.2]

theorem len_text (visible : ∀ byte ∈ value, isVisibleAscii byte = true) :
    Text.len value.text = value.length := by
  induction value with
  | nil => rfl
  | cons byte rest ih =>
    have one : (Char.ofNat byte.toNat).utf8Size = 1 := by
      have small := toNat_visible (visible byte List.mem_cons_self)
      rw [Char.utf8Size_eq_one_iff, UInt32.le_iff_toNat_le]
      have same : (Char.ofNat byte.toNat).val.toNat = byte.toNat := toNat_ofNat_byte byte
      rw [same]
      simp only [UInt32.reduceToNat]
      omega
    have others := ih fun other member => visible other (List.mem_cons_of_mem _ member)
    have sum : Text.len (text (byte :: rest)) =
        (Char.ofNat byte.toNat).utf8Size + Text.len (text rest) := rfl
    rw [sum, one, others, List.length_cons]
    omega

end HeaderValue

theorem visible_hex16 (n : UInt64) : ∀ c ∈ hex16 n, 32 < c.toNat ∧ c.toNat < 127 := by
  intro c member
  have digit : ∃ d, c = Nat.digitChar d := by
    rw [hex16, List.mem_append] at member
    cases member with
    | inl zero => exact ⟨0, List.eq_of_mem_replicate zero⟩
    | inr digit => exact Text.mem_toDigits digit
  obtain ⟨d, rfl⟩ := digit
  exact ⟨(Text.digitChar_visible d).1, (Text.digitChar_visible d).2.1⟩

theorem length_hex16 (n : UInt64) : (hex16 n).length = 16 := by
  have short : (Nat.toDigits 16 n.toNat).length ≤ 16 := by
    rw [Nat.length_toDigits_le_iff (by decide) (by decide)]
    exact n.toNat_lt
  simp only [hex16, List.length_append, List.length_replicate]
  omega

theorem fromStr_randomId (a b : UInt64) :
    ∃ value, HeaderValue.fromStr (randomId a b) = some value ∧ value.ValidId := by
  have visible : ∀ c ∈ randomId a b, 32 < c.toNat ∧ c.toNat < 127 := by
    intro c member
    cases List.mem_append.mp member with
    | inl first => exact visible_hex16 a c first
    | inr last => exact visible_hex16 b c last
  obtain ⟨value, made, read⟩ := fromStr_visible visible
  obtain ⟨_, same⟩ := HeaderValue.toStr_eq_some.mp read
  have length : value.length = 32 := by
    have := congrArg List.length same
    simpa [HeaderValue.text, randomId, length_hex16] using this
  refine ⟨value, made, ?_, ?_, ?_⟩
  · rintro rfl
    cases length
  · rw [length]
    decide
  · intro byte member
    have char : Char.ofNat byte.toNat ∈ randomId a b := same ▸ List.mem_map_of_mem member
    have range := visible _ char
    rw [HeaderValue.toNat_ofNat_byte] at range
    simp only [UInt8.le_iff_toNat_le, UInt8.lt_iff_toNat_lt, UInt8.reduceToNat]
    omega

/-- Which id a request is logged under. -/
theorem requestId_eq (headers : HeaderMap) (random : Str) :
    requestId headers random =
      match headers.get xRequestId with
      | some value => if value.UsableId then value.text else random
      | none => random := by
  unfold requestId
  cases headers.get xRequestId with
  | none => rfl
  | some value =>
    dsimp only [Option.bind_some]
    cases read : HeaderValue.toStr value with
    | none =>
      have unread : ¬ value.UsableId := by
        rintro ⟨_, _, visible⟩
        rw [HeaderValue.toStr_eq_some.mpr ⟨visible, rfl⟩] at read
        cases read
      rw [if_neg unread]
    | some id =>
      obtain ⟨visible, rfl⟩ := HeaderValue.toStr_eq_some.mp read
      have ascii : value.text.all (·.toNat < 128) = true := by
        rw [HeaderValue.text, List.all_map, List.all_eq_true]
        intro byte member
        have small := HeaderValue.toNat_visible (visible byte member)
        simp only [Function.comp_apply, HeaderValue.toNat_ofNat_byte, decide_eq_true_eq]
        omega
      have taken : (!value.text.isEmpty && decide (Text.len value.text ≤ maxRequestIdLen) &&
          value.text.all (·.toNat < 128)) = true ↔ value.UsableId := by
        rw [ascii, HeaderValue.len_text visible]
        simp only [HeaderValue.UsableId, HeaderValue.text, Bool.and_true, Bool.and_eq_true,
          Bool.not_eq_true', List.isEmpty_eq_false_iff, ne_eq, List.map_eq_nil_iff,
          decide_eq_true_eq]
        exact ⟨fun both => ⟨both.1, both.2, visible⟩, fun all => ⟨all.1, all.2.1⟩⟩
      simp only [taken]

/-! ## What the backend gets -/

section

variable {http : Http}

/-- The client's id lines, unless it says they are for this hop only. -/
def idLinesLeft (http : Http) (headers : HeaderMap) : List HeaderValue :=
  if xRequestId ∈ namedByConnection http headers then [] else headers.getAll xRequestId

theorem onward_requestId (headers : HeaderMap) :
    (onward http headers).getAll xRequestId = idLinesLeft http headers := by
  have other : xRequestId ≠ teHeader := by decide
  have passes : xRequestId ∉ hopByHop := by decide
  rw [getAll_onward, if_neg fun both => other both.1, idLinesLeft]
  exact if_congr (or_iff_right passes) rfl rfl

theorem getAll_toBackend_requestId (head : Parts http) (forwarding : Forwarding) :
    (toBackend head forwarding).headers.getAll xRequestId =
      if idLinesLeft http head.headers = [] then
        (HeaderValue.fromStr forwarding.requestId).toList
      else idLinesLeft http head.headers := by
  have lookup : (forwardingLines (onward http head.headers) forwarding).lookup xRequestId =
      if idLinesLeft http head.headers = [] then some forwarding.requestId else none := by
    have others : ∀ name ∈ [xForwardedFor, xForwardedProto, xForwardedHost, forwardedHeader],
        (xRequestId == name) = false := by decide
    simp only [List.mem_cons, List.not_mem_nil, or_false, forall_eq_or_imp, forall_eq] at others
    obtain ⟨first, second, third, fourth⟩ := others
    rw [forwardingLines, onward_requestId]
    simp only [List.cons_append, List.nil_append, List.lookup_cons, first, second, third, fourth]
    split
    · simp
    · rfl
  rw [getAll_toBackend, if_neg (by decide), lookup, onward_requestId]
  by_cases left : idLinesLeft http head.headers = []
  · simp only [left, if_true, Option.bind_some]
    cases HeaderValue.fromStr forwarding.requestId with
    | none => rfl
    | some value => rfl
  · simp only [left, if_false, Option.bind_none]

/-- The lines sent are one, of the id the request is logged under, and none of the client's
    that is not valid. -/
def CarriesId (headers : HeaderMap) (id : Str) (sent : List HeaderValue) : Prop :=
  (∃ value, HeaderValue.fromStr id = some value ∧ sent = [value]) ∧
    ∀ value ∈ headers.getAll xRequestId, ¬ value.ValidId → value ∉ sent

/-- What a client may send: nothing that is left and no id with a tab in it, or one valid id. -/
def SendsGoodId (http : Http) (headers : HeaderMap) : Prop :=
  (idLinesLeft http headers = [] ∧
    ∀ value, headers.get xRequestId = some value → value.UsableId → value.ValidId) ∨
  ∃ value, idLinesLeft http headers = [value] ∧ value.ValidId

theorem get_of_idLinesLeft {rest : List HeaderValue}
    (left : idLinesLeft http headers = value :: rest) : headers.getAll xRequestId = value :: rest := by
  unfold idLinesLeft at left
  split at left
  · cases left
  · exact left

theorem fromStr_requestId (headers : HeaderMap) (a b : UInt64) :
    ∃ value, HeaderValue.fromStr (requestId headers (randomId a b)) = some value ∧
      (headers.get xRequestId = some value ∧ value.UsableId ∨
        value.ValidId ∧ ∀ first, headers.get xRequestId = some first → ¬ first.UsableId) := by
  obtain ⟨fresh, made, valid⟩ := fromStr_randomId a b
  rw [requestId_eq]
  cases first : headers.get xRequestId with
  | none => exact ⟨fresh, made, .inr ⟨valid, by simp⟩⟩
  | some value =>
    by_cases usable : value.UsableId
    · refine ⟨value, ?_, .inl ⟨rfl, usable⟩⟩
      simp only [usable, if_true]
      exact HeaderValue.fromStr_text usable.2.2
    · refine ⟨fresh, ?_, .inr ⟨valid, ?_⟩⟩
      · simp only [usable, if_false]
        exact made
      · rintro _ ⟨⟩
        exact usable

theorem mem_of_get {name : HeaderName}
    (first : headers.get name = some value) : value ∈ headers.getAll name :=
  List.mem_of_mem_head? first

theorem carriesId_of_none_left (left : idLinesLeft http headers = [])
    (a b : UInt64) :
    CarriesId headers (requestId headers (randomId a b))
        (HeaderValue.fromStr (requestId headers (randomId a b))).toList ↔
      SendsGoodId http headers := by
  obtain ⟨id, made, origin⟩ := fromStr_requestId headers a b
  rw [made]
  constructor
  · rintro ⟨_, none⟩
    refine .inl ⟨left, ?_⟩
    intro first here usable
    rcases origin with ⟨own, _⟩ | ⟨_, unusable⟩
    · by_contra invalid
      cases here.symm.trans own
      exact none id (mem_of_get here) invalid (by simp)
    · exact absurd usable (unusable first here)
  · rintro (⟨_, good⟩ | ⟨value, one, _⟩)
    · refine ⟨⟨id, made, rfl⟩, ?_⟩
      intro value _ invalid sent
      cases List.mem_singleton.mp sent
      rcases origin with ⟨own, usable⟩ | ⟨valid, _⟩
      · exact invalid (good id own usable)
      · exact invalid valid
    · rw [left] at one
      cases one

theorem carriesId_of_left (left : idLinesLeft http headers ≠ [])
    (a b : UInt64) :
    CarriesId headers (requestId headers (randomId a b)) (idLinesLeft http headers) ↔
      SendsGoodId http headers := by
  obtain ⟨id, made, origin⟩ := fromStr_requestId headers a b
  constructor
  · rintro ⟨⟨value, _, one⟩, none⟩
    refine .inr ⟨value, one, ?_⟩
    by_contra invalid
    exact none value (by simp [get_of_idLinesLeft one]) invalid (by simp [one])
  · rintro (⟨empty, _⟩ | ⟨value, one, valid⟩)
    · exact absurd empty left
    · have lines := get_of_idLinesLeft one
      have first : headers.get xRequestId = some value := by simp [HeaderMap.get, lines]
      have same : id = value := by
        rcases origin with ⟨own, _⟩ | ⟨_, unusable⟩
        · exact Option.some.inj (own.symm.trans first)
        · exact absurd valid.usable (unusable value first)
      refine ⟨⟨value, same ▸ made, one⟩, ?_⟩
      intro other member invalid _
      rw [lines, List.mem_singleton] at member
      exact invalid (member ▸ valid)

theorem toClient_requestId {response : Response} (none : response.headers.getAll xRequestId = [])
    (isTls : Bool) (hsts id : Str) :
    (toClient http response isTls hsts id).headers.getAll xRequestId =
      (HeaderValue.fromStr id).toList := by
  have stripped : (stripHopByHop http response.headers).getAll xRequestId = [] := by
    rw [getAll_stripHopByHop, none, ite_self]
  have lookup : (answerLines (stripHopByHop http response.headers) isTls hsts id).lookup
      xRequestId = some id := by
    have other : (xRequestId == strictTransportSecurity) = false := by decide
    rw [answerLines, stripped]
    split
    · simp [List.lookup_cons, other]
    · simp
  rw [toClient_headers, getAll_setAll _ (nodup_answerLines ..), lookup, stripped,
    Option.bind_some]
  cases HeaderValue.fromStr id with
  | none => rfl
  | some value => rfl

end

/-! ## Every request that is forwarded -/

section Forwarding

open Interleaving

variable {ι : Type} [DecidableEq ι] {http : Http} {pool : Pool Scheme} {r : ι}

/-- Whatever client headers a request has: what every attempt sends is the one id the request is
    logged under, and no id of the client that is not valid, exactly if the client sends nothing
    but a good id. The client gets the id of its request in any case, in the answer of a backend
    that has none and in a refusal. -/
theorem requestId_reaches_backend_iff (forwarder : Forwarder) (conn : Connection)
    (request : Request http) (host : Str) (a b : UInt64) {env : Traffic ι → Traffic ι → Prop}
    (kept : ∀ s s', env s s' → s'.own r = s.own r) {s s' : Traffic ι}
    (untouched : Untouched (s.own r)) {p : Program (Traffic ι) (Forwarded × RequestRecord)}
    (steps : Program.Steps env (forward forwarder conn pool r request
      (.begin request host (requestId request.headers (randomId a b))), s) (p, s')) :
    (∀ t ∈ (s'.lanes r).tries, ∀ sent, send http t.scheme t.authority t.attempt = .ok sent →
      (CarriesId request.headers (requestId request.headers (randomId a b))
        (sent.headers.getAll xRequestId) ↔ SendsGoodId http request.headers)) ∧
    ∃ id, HeaderValue.fromStr (requestId request.headers (randomId a b)) = some id ∧
      ∀ result, p = .ret result →
        HeaderValue.fromStr result.2.requestId = some id ∧
        (∀ answer, result.1 = .responded answer →
          ∃ t ∈ (s'.lanes r).tries, ∃ response, t.outcome = some (.responded response) ∧
            (response.headers.getAll xRequestId = [] →
              answer.headers.getAll xRequestId = [id])) ∧
        ∀ why, result.1 = .refused why →
          (refusal why result.2.requestId result.2.isGrpc).headers.getAll xRequestId = [id] := by
  constructor
  · intro t made sent ended
    have other : xRequestId ≠ hostHeader := by decide
    have same := attempt_headers forwarder conn request host _ kept untouched steps made
    rw [getAll_send ended, if_neg other, same, getAll_toBackend_requestId]
    by_cases left : idLinesLeft http request.headers = []
    · rw [if_pos left]
      exact carriesId_of_none_left left a b
    · rw [if_neg left]
      exact carriesId_of_left left a b
  · obtain ⟨id, written, _⟩ := fromStr_requestId request.headers a b
    refine ⟨id, written, ?_⟩
    intro result returned
    subst returned
    obtain ⟨logged, relayed⟩ := forward_relays forwarder conn kept steps
    have logged : HeaderValue.fromStr result.2.requestId = some id := by
      rw [logged]
      exact written
    refine ⟨logged, ?_, ?_⟩
    · intro answer responded
      obtain ⟨t, made, response, got, rfl⟩ := relayed answer responded
      refine ⟨t, made, response, got, ?_⟩
      intro none
      exact (toClient_requestId none _ _ _).trans (by rw [RequestRecord.begin, written]; rfl)
    · intro why _
      rw [refusal_requestId, logged, Option.toList_some]

/-- A request with these headers, and its lane once its forward has returned. -/
def identified (headers : HeaderMap) (sending : Except LibraryKind Response) :
    (Forwarded × RequestRecord) × Traffic Unit :=
  (forward .plain .plain .single () (getRoot headers)
    (.begin (getRoot headers) ['h'] (requestId headers (randomId 0 1)))).run
    (oneRequest .single sending)

/-- An empty id is not taken over, but it is sent to the backend. -/
theorem empty_requestId_reaches_backend :
    ∃ t ∈ ((identified [(xRequestId, [])] (.error .reset)).2.lanes ()).tries,
      ∃ sent, send .plain t.scheme t.authority t.attempt = .ok sent ∧
        [] ∈ sent.headers.getAll xRequestId ∧
        ¬ CarriesId [(xRequestId, [])] (requestId [(xRequestId, [])] (randomId 0 1))
          (sent.headers.getAll xRequestId) := by
  have some : ((identified [(xRequestId, [])] (.error .reset)).2.lanes ()).tries.any
      (·.sends xRequestId []) = true := by decide +kernel
  obtain ⟨t, made, sent, ended, reached⟩ := exists_sends some
  refine ⟨t, made, sent, ended, reached, ?_⟩
  rintro ⟨_, none⟩
  exact none [] (by decide) (by decide) reached

/-- An id of the client that is valid is sent on and answered with. -/
theorem valid_requestId_reaches_backend :
    ∃ t ∈ ((identified [(xRequestId, [97])] (.error .reset)).2.lanes ()).tries,
      ∃ sent, send .plain t.scheme t.authority t.attempt = .ok sent ∧
        CarriesId [(xRequestId, [97])] (requestId [(xRequestId, [97])] (randomId 0 1))
          (sent.headers.getAll xRequestId) := by
  have kept : ∀ s s' : Traffic Unit, s'.own () = s.own () → s'.own () = s.own () :=
    fun _ _ same => same
  have good : SendsGoodId .plain [(xRequestId, [97])] := .inr ⟨[97], by decide, by decide +kernel⟩
  have some : ((identified [(xRequestId, [97])] (.error .reset)).2.lanes ()).tries.any
      (·.sends xRequestId [97]) = true := by decide +kernel
  obtain ⟨t, made, sent, ended, _⟩ := exists_sends some
  have carries := (requestId_reaches_backend_iff .plain .plain (getRoot [(xRequestId, [97])]) ['h']
    0 1 kept (untouched_oneRequest .single (.error .reset)) (Program.steps_run _ _ _)).1
    t made sent ended
  exact ⟨t, made, sent, ended, carries.mpr good⟩

end Forwarding

end Gfe
