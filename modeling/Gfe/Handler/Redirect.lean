import Gfe.Config.AddressText
import Gfe.Handler.Decision
import Gfe.Handler.Headers
import Gfe.Handler.Respond
import Gfe.Lib.AbsoluteUri

/-! # Where a redirect leads

A route with a redirect answers where the same resource is under another scheme. The
`Location` is the scheme, the host the request was routed by and the text of its target,
one after the other, whatever they are: a target that is no path runs on in the host, and
without a host it begins with the path. A client is led back exactly if there is a host and
the target is a path and a query.
-/

namespace Gfe

open Interleaving

/-! ## The node's own answers -/

namespace HostError

def refusal : HostError → Refusal
  | .conflict _ => .hostConflict
  | .missing => .hostMissing
  | .misdirected _ => .misdirected

/-- The host the request is logged under. -/
def intoHost : HostError → Str
  | .conflict target => target
  | .missing => []
  | .misdirected host => host

end HostError

section

variable {http : Http}

/-- The host of a request's record. One that the certificates do not cover is the same. -/
def recordHost (conn : ConnInfo) (request : RequestHead http) : Str :=
  match requestHost request.uri request.headers request.version conn.sni with
  | .ok host => host
  | .error error => error.intoHost

def ownAnswer (request : RequestHead http) (host requestId : Str) : Decision → Option Answer
  | .hostRefused error => some (refusal error.refusal requestId (isGrpc request.headers))
  | .noRoute => some (refusal .noRoute requestId (isGrpc request.headers))
  | .poolNotFound _ => some (refusal .poolNotFound requestId (isGrpc request.headers))
  | .answered route =>
    match route.action with
    | .redirect action =>
      let pathAndQuery := request.uri.pathAndQuery.getD ['/']
      some (redirect action.scheme action.status host pathAndQuery requestId)
    | .fixed action => some (fixed action.status action.body requestId)
    | .forward _ => none
  | .forwarded _ _ => none

/-- `Proxy::handle`, with the answer of a request that is not forwarded. -/
def answering (conn : ConnInfo) (request : Parts http) (requestId : Str) :
    Program World (Decision × Option Answer) := do
  let decision ← handle conn request.toRequestHead
  return (decision, ownAnswer request.toRequestHead (recordHost conn request.toRequestHead)
    requestId decision)

/-- Whatever happens meanwhile, a request that takes a route is answered by it and its host. -/
theorem answering_answered (conn : ConnInfo) (request : Parts http) (requestId : Str)
    {env : World → World → Prop} {w w' : World} {route : CompiledRoute} {answer : Option Answer}
    (steps : Program.Steps env (answering conn request requestId, w)
      (.ret (.answered route, answer), w')) :
    ∃ host routing listener,
      requestHost request.uri request.headers request.version conn.sni = .ok host ∧
      routed routing listener host request.uri.path = .answered route ∧
      answer = ownAnswer request.toRequestHead host requestId (.answered route) := by
  -- the decision is the one of what was read, and the answer the one of the decision
  have ensured : (answering conn request requestId).Ensures (.within fun _ : World =>
      True ∧ True ∧ True) (fun found _ => ∃ c r l,
        found.1 = decisionOf conn request.toRequestHead c r l ∧
        found.2 = ownAnswer request.toRequestHead (recordHost conn request.toRequestHead)
          requestId found.1) w := by
    apply Program.Ensures.bind
    refine (handle_ensures conn request.toRequestHead (fun _ => True) (fun _ => True)
      (fun _ => True) ⟨trivial, trivial, trivial⟩).weaken ?_
    rintro decision _ ⟨c, r, l, _, _, _, decided⟩
    exact Program.Ensures.ret fun _ _ => ⟨c, r, l, decided, rfl⟩
  obtain ⟨c, r, l, decided, given⟩ :=
    ensured.sound (fun _ _ _ _ => ⟨trivial, trivial, trivial⟩) steps
  unfold decisionOf at decided
  cases named : requestHost request.uri request.headers request.version conn.sni with
  | error error =>
    rw [named] at decided
    cases decided
  | ok host =>
    rw [named] at decided
    dsimp only at decided
    split at decided
    · have given : answer = ownAnswer request.toRequestHead
          (recordHost conn request.toRequestHead) requestId (.answered route) := given
      refine ⟨host, r, l, rfl, decided.symm, ?_⟩
      rw [given, recordHost, named]
    · cases decided

/-! ## The location -/

theorem getAll_redirect (scheme : Str) (status : UInt16) (host pathAndQuery requestId : Str) :
    (redirect scheme status host pathAndQuery requestId).headers.getAll locationHeader =
      (HeaderValue.fromStr (scheme ++ "://".toList ++ host ++ pathAndQuery)).toList := by
  have before : (answer (statusOr status 308) [] requestId).headers.getAll locationHeader = [] := by
    have differ : locationHeader ≠ xRequestId := by decide
    rw [answer, getAll_set_of_ne differ]
    rfl
  simp only [redirect]
  rw [set]
  cases HeaderValue.fromStr (scheme ++ "://".toList ++ host ++ pathAndQuery) with
  | none => exact before
  | some value => rw [HeaderMap.getAll_insert, if_pos rfl, Option.toList_some]

theorem toStr_of_fromStr {text back : Str} {value : HeaderValue}
    (written : HeaderValue.fromStr text = some value) (read : HeaderValue.toStr value = some back) :
    back = text := by
  obtain ⟨visible, rfl⟩ := HeaderValue.toStr_eq_some.mp read
  have bytes : ∀ {text : Str}, HeaderValue.fromStr text = some value → Text.utf8 text = value := by
    intro text written
    rw [HeaderValue.fromStr] at written
    split at written
    · exact Option.some.inj written
    · cases written
  have same : Text.utf8 value.text = Text.utf8 text :=
    (bytes (HeaderValue.fromStr_text visible)).trans (bytes written).symm
  have decoded := congrArg Text.fromUtf8 same
  rw [Text.fromUtf8_utf8, Text.fromUtf8_utf8] at decoded
  exact Option.some.inj decoded

/-- What may stand in brackets in a host. -/
def isIpv6 (text : Str) : Bool := (Address.parseIpv6Addr text).isSome

/-- A client that follows the answer asks this host for this path and query. -/
def DirectsTo (answer : Answer) (host pathAndQuery : Str) : Prop :=
  ∃ value text parts, answer.headers.getAll locationHeader = [value] ∧
    HeaderValue.toStr value = some text ∧ AbsoluteUri.read isIpv6 text = some parts ∧
    parts.host = host ∧ parts.pathAndQuery = pathAndQuery

theorem directsTo_redirect_iff {scheme : Str} (schemed : AbsoluteUri.isScheme scheme = true)
    (status : UInt16) (host target requestId : Str) :
    DirectsTo (redirect scheme status host target requestId) host target ↔
      AbsoluteUri.isHost isIpv6 host = true ∧ AbsoluteUri.isPathAndQuery target = true := by
  rw [← AbsoluteUri.read_glued_iff schemed, DirectsTo, getAll_redirect]
  constructor
  · rintro ⟨value, text, parts, line, back, found⟩
    have written := Option.toList_eq_singleton_iff.mp line
    rw [toStr_of_fromStr written back] at found
    exact ⟨parts, found⟩
  · rintro ⟨parts, found, same⟩
    obtain ⟨named, valid⟩ := AbsoluteUri.checked_of_read found
    rw [same.1] at named
    rw [same.2] at valid
    obtain ⟨value, written, back⟩ :=
      fromStr_visible (AbsoluteUri.visible_glued schemed named valid)
    exact ⟨value, _, parts, by rw [written, Option.toList_some], back, found, same⟩

/-- Whatever a request has and whatever is reloaded meanwhile: if it takes a redirect to a scheme,
    a client that follows the answer asks the host the request was routed by for the request's
    path and query, exactly if this is a host and the target is a path and a query. -/
theorem redirect_leads_back_iff (conn : ConnInfo) (request : Parts http) (requestId : Str)
    {env : World → World → Prop} {w w' : World} {route : CompiledRoute} {answer : Option Answer}
    {action : RedirectAction}
    (steps : Program.Steps env (answering conn request requestId, w)
      (.ret (.answered route, answer), w'))
    (redirects : route.action = .redirect action)
    (schemed : AbsoluteUri.isScheme action.scheme = true) :
    ∃ host given routing listener,
      requestHost request.uri request.headers request.version conn.sni = .ok host ∧
      routed routing listener host request.uri.path = .answered route ∧ answer = some given ∧
      ((∃ target, request.uri.pathAndQuery = some target ∧ DirectsTo given host target) ↔
        AbsoluteUri.isHost isIpv6 host = true ∧
          ∃ target, request.uri.pathAndQuery = some target ∧
            AbsoluteUri.isPathAndQuery target = true) := by
  obtain ⟨host, routing, listener, named, found, given⟩ :=
    answering_answered conn request requestId steps
  simp only [ownAnswer, redirects] at given
  refine ⟨host, _, routing, listener, named, found, given, ?_⟩
  cases request.uri.pathAndQuery with
  | none => simp
  | some target =>
    simp only [Option.getD_some, Option.some.injEq, exists_eq_left']
    exact directsTo_redirect_iff schemed action.status host target requestId

end

/-! ## Requests for a path, for no path and for no host -/

/-- A node that redirects everything to `https`. -/
def redirecting : World :=
  (Fallible.exec (apply (.indexed []) ⟨[], [.loopback ['a'] 80],
      [⟨⟨['r']⟩, ⟨['a']⟩, ['*'], ['/'], .redirect ⟨"https".toList, 308⟩⟩], []⟩)
    (World.starting (.small [] (.error .notFound) []) ∅)).2

/-- A request with this target, for the host `h`. -/
def redirected (method : Method) (path pathAndQuery : Str) : Parts .plain where
  uri := ⟨none, path, some pathAndQuery⟩
  headers := [(hostHeader, [104])]
  version := .http11
  method := method

def redirectingRoute : CompiledRoute := ⟨⟨['r']⟩, ['*'], ['/'], .redirect ⟨"https".toList, 308⟩⟩

/-- `/p?q` of the host `h` is redirected to itself. -/
theorem redirect_leads_back_iff_path :
    ∃ answer, (answering ⟨0, none⟩ (redirected .get ['/', 'p'] ['/', 'p', '?', 'q']) ['i']).run
        redirecting = ((.answered redirectingRoute, some answer), redirecting) ∧
      DirectsTo answer ['h'] ['/', 'p', '?', 'q'] := by
  obtain ⟨host, given, routing, listener, named, _, same, leads⟩ :=
    redirect_leads_back_iff ⟨0, none⟩ (redirected .get ['/', 'p'] ['/', 'p', '?', 'q']) ['i']
      (w := redirecting) (Program.steps_run (fun _ _ => False) _ _) rfl (by decide)
  have known : host = ['h'] := by
    have direct : @requestHost .plain ⟨none, ['/', 'p'], some ['/', 'p', '?', 'q']⟩
        [(hostHeader, [104])] .http11 none = .ok ['h'] := rfl
    exact Except.ok.inj (named.symm.trans direct)
  subst known
  obtain ⟨target, own, there⟩ := leads.mpr ⟨by decide, _, rfl, by decide⟩
  cases own
  exact ⟨given, by rw [← same]; rfl, there⟩

/-- `OPTIONS *` for the host `h` is redirected to the host `h*`. -/
theorem redirect_of_asterisk_leads_elsewhere :
    ∃ answer, (answering ⟨0, none⟩ (redirected .options ['*'] ['*']) ['i']).run redirecting =
        ((.answered redirectingRoute, some answer), redirecting) ∧
      answer.headers.getAll locationHeader = [HeaderValue.ofText "https://h*".toList] ∧
      HeaderValue.toStr (HeaderValue.ofText "https://h*".toList) = some "https://h*".toList ∧
      AbsoluteUri.read isIpv6 "https://h*".toList =
        some ⟨"https".toList, none, ['h', '*'], none, []⟩ ∧
      ¬ DirectsTo answer ['h'] ['*'] := by
  refine ⟨_, rfl, by decide +kernel, by decide +kernel, by decide +kernel, ?_⟩
  intro leads
  have path := ((directsTo_redirect_iff (by decide) _ _ _ _).mp leads).2
  exact absurd path (by decide)

end Gfe
