import Gfe.Handler.Attempts

/-! # The response on its way back

A response that a forward returns is one that its last attempt got, as `to_client`
makes it of it, under the id the request is recorded by.
-/

namespace Gfe

open Interleaving

variable {ι : Type} {http : Http} {pool : Pool Scheme} {r : ι}

/-- Others leave the attempts of the request alone. -/
def triesOf (r : ι) : Rely (Traffic ι) := .keeping fun s => (s.lanes r).tries

/-- What is returned is recorded by this id, and a response is the one of an attempt. -/
def Relays (http : Http) (forwarder : Forwarder) (conn : Connection) (r : ι) (requestId : Str)
    (result : Forwarded × RequestRecord) (s : Traffic ι) : Prop :=
  result.2.requestId = requestId ∧ ∀ answer, result.1 = .responded answer →
    ∃ t ∈ (s.lanes r).tries, ∃ response, t.outcome = some (.responded response) ∧
      answer = toClient http response conn.isTls forwarder.hsts requestId

theorem relays_without_response {forwarder : Forwarder} {conn : Connection} {record : RequestRecord}
    {forwarded : Forwarded} {s : Traffic ι} (none : ∀ answer, forwarded ≠ .responded answer) :
    Relays http forwarder conn r record.requestId (forwarded, record) s :=
  ⟨rfl, fun answer responded => absurd responded (none answer)⟩

section

variable [DecidableEq ι] (forwarder : Forwarder) (conn : Connection)

theorem ensures_sendAttempt (authority : Str) (attempt : Attempt) (record : RequestRecord)
    (s : Traffic ι) :
    (sendAttempt forwarder conn pool r http authority attempt record).Ensures (triesOf r)
      (fun tried s => ∀ forwarded, tried = .ended forwarded →
        Relays http forwarder conn r record.requestId (forwarded, record) s) s := by
  apply Program.Ensures.bindAny
  intro started s
  apply Program.Ensures.bindAny
  intro _ s
  apply Program.Ensures.bind
  apply Program.Ensures.write
  intro t u _ handed
  have handed : (u.lanes r).tries = ⟨clientScheme pool.payload, authority, attempt, none, none⟩ ::
      (t.lanes r).tries := by
    exact handed.trans (by simp [Traffic.setLane])
  apply Program.Ensures.bind
  apply Program.Ensures.exchange
  intro v w waited noted
  have waited : (v.lanes r).tries = ⟨clientScheme pool.payload, authority, attempt, none, none⟩ ::
      (t.lanes r).tries := waited.trans handed
  dsimp only at noted ⊢
  generalize (v.lanes r).outcome record.isGrpc
    (send http (clientScheme pool.payload) authority attempt) = outcome at noted ⊢
  have noted : (w.lanes r).tries =
      ⟨clientScheme pool.payload, authority, attempt, some outcome, none⟩ :: (t.lanes r).tries :=
    noted.trans (by simp [Traffic.setLane, Lane.note, waited])
  cases outcome with
  | responded response =>
    intro x moved forwarded ended
    cases ended
    refine ⟨rfl, ?_⟩
    rintro _ ⟨⟩
    refine ⟨⟨clientScheme pool.payload, authority, attempt, some (.responded response), none⟩, ?_,
      response, rfl, rfl⟩
    rw [show (x.lanes r).tries = _ from moved.trans noted]
    exact List.mem_cons_self
  | failed kind =>
    apply Program.Ensures.bindAny
    intro failed x
    cases failed with
    | true =>
      intro y _ forwarded ended
      cases ended
      exact relays_without_response (by simp)
    | false =>
      intro y _ forwarded ended
      cases ended
  | overdue =>
    apply Program.Ensures.bindAny
    intro waiting x
    cases waiting with
    | true | false =>
      intro y _ forwarded ended
      cases ended
      exact relays_without_response (by simp [Forwarded.refused])
  | dropped =>
    intro x _ forwarded ended
    cases ended
    exact relays_without_response (by simp)

theorem ensures_attempting (record : RequestRecord) (backend : Str) (busy : BackendBusy)
    (s : Traffic ι) :
    (record.attempting r backend busy).Ensures (triesOf r)
      (fun record' _ => record'.requestId = record.requestId) s := by
  unfold RequestRecord.attempting
  split
  · apply Program.Ensures.bindAny
    exact fun _ _ _ _ => rfl
  · apply Program.Ensures.bindAny
    exact fun _ _ _ _ => rfl

theorem ensures_tryOnce (admitted : InflightGuard) (replayable : Bool) (attempts : Nat)
    (out : Outgoing) (record : RequestRecord) (s : Traffic ι) :
    (tryOnce forwarder conn pool r http admitted replayable attempts out record).Ensures (triesOf r)
      (fun result s => result.2.2.requestId = record.requestId ∧
        ∀ forwarded, result.1 = .ended forwarded →
          Relays http forwarder conn r record.requestId (forwarded, result.2.2) s) s := by
  apply Program.Ensures.bindAny
  intro selected s
  cases selected with
  | error panic =>
    intro t _
    refine ⟨rfl, ?_⟩
    rintro _ ⟨⟩
    exact relays_without_response (by simp)
  | ok selection =>
    cases selection with
    | none =>
      intro t _
      refine ⟨rfl, ?_⟩
      rintro _ ⟨⟩
      exact relays_without_response (by simp [Forwarded.refused])
    | some selection =>
      apply Program.Ensures.bindAny
      intro _ s
      apply Program.Ensures.bind
      refine (ensures_attempting record selection.backend.authority ⟨selection.guard, admitted⟩ s).weaken ?_
      intro record' t same
      apply Program.Ensures.bind
      refine (ensures_sendAttempt forwarder conn _ _ record' t).settle.weaken ?_
      intro tried u relays v moved
      exact ⟨same, same ▸ relays v moved⟩

theorem ensures_attemptFrom (admitted : InflightGuard) (replayable : Bool) (attempts : Nat)
    (out : Outgoing) (record : RequestRecord) (s : Traffic ι) :
    (attemptFrom forwarder conn pool r http admitted replayable attempts out record).Ensures
      (triesOf r) (Relays http forwarder conn r record.requestId) s := by
  -- over the attempts that are left
  induction left : maxAttempts - attempts using Nat.strong_induction_on
    generalizing attempts out record s with
  | _ n ih =>
    rw [attemptFrom]
    apply Program.Ensures.bind
    refine (ensures_tryOnce forwarder conn admitted replayable attempts out record s).settle.weaken ?_
    rintro ⟨tried, out', record'⟩ t settled
    obtain ⟨same, _⟩ := settled t ((triesOf r).refl t)
    cases tried with
    | ended forwarded => exact fun u moved => (settled u moved).2 forwarded rfl
    | failed kind =>
      dsimp only at same ⊢
      rw [← same]
      split
      · exact fun _ _ => relays_without_response (by simp [Forwarded.refused])
      · split
        · rename_i again
          have more : attempts + 1 < maxAttempts := (mayRetry_iff.mp again).2.2.2
          exact ih (maxAttempts - (attempts + 1)) (by omega) (attempts + 1) out' record' t rfl
        · exact fun _ _ => relays_without_response (by simp [Forwarded.refused])

theorem ensures_dropOwner (guard : InflightGuard) {s : Traffic ι}
    {post : Unit → Traffic ι → Prop}
    (stable : ∀ s', (s'.lanes r).tries = (s.lanes r).tries → post () s') :
    (dropOwner r guard).Ensures (triesOf r) post s := by
  apply Program.Ensures.bind
  apply Program.Ensures.exchange
  intro t u before after
  have counted : ((t.setLane r fun lane => { lane with owners := lane.owners - 1 }).lanes r).tries =
      (t.lanes r).tries := by simp [Traffic.setLane]
  have same : (u.lanes r).tries = (s.lanes r).tries := (after.trans counted).trans before
  split
  · unfold InflightGuard.drop
    cases guard.counter with
    | none => exact fun v moved => stable v (moved.trans same)
    | some counter => exact fun v first x last => stable x ((last.trans first).trans same)
  · exact fun v moved => stable v (moved.trans same)

theorem ensures_forwardingTo (record : RequestRecord) (id : Str) (s : Traffic ι) :
    (record.forwardingTo r id).Ensures (triesOf r)
      (fun record' _ => record'.requestId = record.requestId) s := by
  apply Program.Ensures.bindAny
  exact fun _ _ _ _ => rfl

theorem ensures_forwardAdmitted (request : Request http) (record : RequestRecord)
    (admitted : InflightGuard) (s : Traffic ι) :
    (forwardAdmitted forwarder conn pool r request record admitted).Ensures (triesOf r)
      (Relays http forwarder conn r record.requestId) s := by
  apply Program.Ensures.bindAny
  intro started s
  apply Program.Ensures.bindAny
  intro _ s
  split
  · apply Program.Ensures.bindAny
    intro now s
    apply Program.Ensures.bindAny
    intro _ s
    exact ensures_attemptFrom forwarder conn admitted _ 0 _ record s
  · exact ensures_attemptFrom forwarder conn admitted _ 0 _ record s

/-- What a forward returns, however it is interleaved with others. -/
theorem ensures_forward (request : Request http) (record : RequestRecord) (s : Traffic ι) :
    (forward forwarder conn pool r request record).Ensures (triesOf r)
      (Relays http forwarder conn r record.requestId) s := by
  unfold forward
  split
  · exact fun _ _ => relays_without_response (by simp [Forwarded.refused])
  split
  · exact fun _ _ => relays_without_response (by simp [Forwarded.refused])
  apply Program.Ensures.bind
  refine (ensures_forwardingTo record pool.id s).weaken ?_
  intro record' s same
  rw [← same]
  apply Program.Ensures.bindAny
  intro now s
  apply Program.Ensures.bindAny
  intro admission s
  cases admission with
  | error limit => exact fun _ _ => relays_without_response (by simp [Forwarded.refused])
  | ok admitted =>
    apply Program.Ensures.bindAny
    intro _ s
    apply Program.Ensures.bind
    refine (ensures_forwardAdmitted forwarder conn request record' admitted s).settle.weaken ?_
    intro result t relays
    apply Program.Ensures.bind
    apply ensures_dropOwner
    intro u moved
    exact fun v later => relays v (later.trans moved)

theorem forward_relays {request : Request http} {record : RequestRecord}
    {env : Traffic ι → Traffic ι → Prop} (kept : ∀ s s', env s s' → s'.own r = s.own r)
    {s s' : Traffic ι} {result : Forwarded × RequestRecord}
    (steps : Program.Steps env (forward forwarder conn pool r request record, s) (.ret result, s')) :
    Relays http forwarder conn r record.requestId result s' := by
  have tries : ∀ s s', env s s' → (s'.lanes r).tries = (s.lanes r).tries :=
    fun s s' moved => congrArg (·.2.tries) (kept s s' moved)
  exact (ensures_forward forwarder conn request record s).sound tries steps

end

end Gfe
