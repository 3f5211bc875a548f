import Gfe.Handler.Forward
import Gfe.LoadBalancing.Guards

/-! # What a forward does

Specifications of the forward and its parts, in terms of what belongs to the
request: its entry in the pool's ledger, the owners of its place and its
attempts. From them: how often a request is sent and what is sent.
-/

namespace Gfe

open Interleaving

variable {ι : Type} [DecidableEq ι] {admitted : InflightGuard} {out : Outgoing} {s s' : Traffic ι}
  {attempt : Attempt}

/-- The owners of a request's place, and its attempts. -/
structure Track where
  owners : Nat
  tries : List Try

namespace Traffic

omit [DecidableEq ι] in
def track (r : ι) (s : Traffic ι) : Track := ⟨(s.lanes r).owners, (s.lanes r).tries⟩

omit [DecidableEq ι] in
/-- What belongs to a request. -/
def own (r : ι) (s : Traffic ι) : Entry × Track := (s.pool.ledger r, s.track r)

@[simp] theorem track_setLane (r : ι) (update : Lane → Lane) (s : Traffic ι) :
    (s.setLane r update).track r =
      ⟨(update (s.lanes r)).owners, (update (s.lanes r)).tries⟩ := by
  simp [track, setLane]

theorem track_setLane_of_ne {q r : ι} (other : q ≠ r) (update : Lane → Lane) (s : Traffic ι) :
    (s.setLane r update).track q = s.track q := by
  simp [track, setLane, other]

end Traffic

/-- A step of the request `r`: in the pool, or on its own, where it sends nothing
    before it was admitted. -/
inductive Carried (pool : Pool Scheme) (r : ι) (s : Traffic ι) : Traffic ι → Prop where
  | idle : Carried pool r s s
  | inPool {next} : Moved pool r s.pool next → Carried pool r s { s with pool := next }
  | inLane {update} :
      (((s.setLane r update).track r).tries ≠ (s.track r).tries →
        (s.pool.ledger r).answers = [.ok ()]) →
      Carried pool r s (s.setLane r update)

theorem Carried.others {pool : Pool Scheme} {q r : ι}
    (carried : Carried pool r s s') (other : q ≠ r) : s'.own q = s.own q := by
  cases carried with
  | idle => rfl
  | inPool moved => exact Prod.ext (moved.others other) rfl
  | inLane sends => exact Prod.ext rfl (s.track_setLane_of_ne other _)

/-! ## Attempts -/

/-- The attempt failed by the fault of its backend, and another one could fare
    better. -/
def Try.Retryable (t : Try) : Prop :=
  ∃ kind, t.outcome = some (.failed kind) ∧ t.clientFailed = some false ∧
    (FailureKind.of kind).isTheBackends = true ∧ (FailureKind.of kind).isRetryable = true

/-- The attempts a request may make: all of them the same, and a second one only
    after a first that failed. -/
structure Allowed (attempt : Attempt) (replayable : Bool) (tries : List Try) : Prop where
  same : ∀ t ∈ tries, t.attempt = attempt
  again : tries.length ≤ 1 ∨ replayable = true ∧
    ∃ second first, tries = [second, first] ∧ first.Retryable

theorem allowed_nil (attempt : Attempt) (replayable : Bool) : Allowed attempt replayable [] :=
  ⟨by simp, .inl (Nat.zero_le _)⟩

theorem allowed_first {replayable : Bool} {t : Try}
    (same : t.attempt = attempt) : Allowed attempt replayable [t] :=
  ⟨by simpa using same, .inl le_rfl⟩

theorem Allowed.second {replayable : Bool} {first t : Try}
    (allowed : Allowed attempt replayable [first]) (replays : replayable = true)
    (failed : first.Retryable) (same : t.attempt = attempt) :
    Allowed attempt replayable [t, first] := by
  refine ⟨?_, .inr ⟨replays, t, first, rfl, failed⟩⟩
  intro u member
  rcases List.mem_cons.mp member with rfl | old
  · exact same
  · exact allowed.same u old

/-- As long as the forward is under way: the request keeps its place once it is
    admitted, and makes the attempts it may make. -/
def Within (pool : Pool Scheme) (attempt : Attempt) (replayable : Bool) (o : Entry × Track) :
    Prop :=
  o.1.Lives pool ∧ Allowed attempt replayable o.2.tries

/-- What a program does for the request `r`, from what belongs to it to what it
    leaves it. -/
abbrev Carries {α : Type} (pool : Pool Scheme) (r : ι) (attempt : Attempt) (replayable : Bool)
    (p : Program (Traffic ι) α) (before : Entry × Track) (post : α → Entry × Track → Prop) : Prop :=
  p.Owns (Traffic.own r) (Carried pool r) (Within pool attempt replayable) before post

/-- What the last attempt is counted in besides the place. -/
def RequestRecord.held (record : RequestRecord) : List Counter :=
  match record.busy with
  | some busy => busy.leastRequest.held
  | none => []

section Parts

variable {α : Type} {pool : Pool Scheme} {r : ι} {attempt : Attempt} {replayable : Bool}
  {o : Entry × Track} {answers : List (Except Limit Unit)} {held : List Counter}

theorem carries_read (within : Within pool attempt replayable o) (view : Traffic ι → α) :
    Carries pool r attempt replayable (.read view) o fun _ o' => o' = o :=
  .read within fun _ _ => ⟨.idle, rfl⟩

theorem carries_exchange (within : Within pool attempt replayable o) {view : Traffic ι → α}
    {update : Traffic ι → Lane → Lane} {post : α → Entry × Track → Prop}
    (step : ∀ s, s.own r = o →
      (((s.setLane r (update s)).track r).tries ≠ o.2.tries → o.1.answers = [.ok ()]) ∧
        post (view s) (o.1, (s.setLane r (update s)).track r)) :
    Carries pool r attempt replayable (.exchange fun s => (view s, s.setLane r (update s))) o
      post := by
  refine .exchange within ?_
  rintro s rfl
  exact ⟨.inLane (step s rfl).1, (step s rfl).2⟩

theorem carries_write (within : Within pool attempt replayable o) {update : Lane → Lane}
    {track : Track} (sends : track.tries ≠ o.2.tries → o.1.answers = [.ok ()])
    (step : ∀ s : Traffic ι, s.own r = o → (s.setLane r update).track r = track) :
    Carries pool r attempt replayable (inLane r update) o fun _ o' => o' = (o.1, track) := by
  refine carries_exchange within ?_
  intro s here
  rw [step s here]
  exact ⟨sends, rfl⟩

theorem carries_inLane (within : Within pool attempt replayable o) {update : Lane → Lane}
    {owners : Nat} (tries : ∀ lane, (update lane).tries = lane.tries)
    (counted : ∀ lane, lane.owners = o.2.owners → (update lane).owners = owners) :
    Carries pool r attempt replayable (inLane r update) o
      fun _ o' => o' = (o.1, ⟨owners, o.2.tries⟩) := by
  refine carries_write within (fun changed => absurd rfl changed) ?_
  rintro s rfl
  rw [Traffic.track_setLane, tries, counted _ rfl]
  rfl

theorem carries_pool {p : Program (PoolState ι) α} {post : α → Entry → Prop}
    (allowed : Allowed attempt replayable o.2.tries) (accounts : Accounts pool r p o.1 post) :
    Carries pool r attempt replayable (p.zoom Traffic.poolPart) o
      fun value o' => post value o'.1 ∧ o'.2 = o.2 := by
  have moves : ∀ (next : PoolState ι) (s : Traffic ι), Moved pool r (Traffic.poolPart.view s) next →
      Carried pool r s (Traffic.poolPart.put next s) := fun next s moved => .inPool moved
  have holds : ∀ e : Entry, e.Lives pool → Within pool attempt replayable (e, o.2) :=
    fun e lives => ⟨lives, allowed⟩
  exact Program.Owns.zoom (fun _ _ => rfl) holds moves accounts

/-! ## Owners -/

theorem carries_dropOwner (within : Within pool attempt replayable o) (guard : InflightGuard)
    {owners : Nat} (shared : o.2.owners = owners + 2) :
    Carries pool r attempt replayable (dropOwner r guard) o
      fun _ o' => o' = (o.1, ⟨owners + 1, o.2.tries⟩) := by
  refine .bind (carries_exchange within ?_)
  rintro s rfl
  have before : (s.lanes r).owners = owners + 2 := shared
  rw [Traffic.track_setLane, before, if_neg (by omega)]
  exact ⟨fun changed => absurd rfl changed, .ret rfl⟩

theorem carries_dropLastOwner (within : Within pool attempt replayable o) {guard : InflightGuard}
    (last : o.2.owners = 1) (books : o.1.Books answers (guard.held ++ held)) :
    Carries pool r attempt replayable (dropOwner r guard) o
      fun _ o' => o'.1.Books answers held ∧ o'.2.tries = o.2.tries := by
  refine .bind (carries_exchange within ?_)
  rintro s rfl
  have before : (s.lanes r).owners = 1 := last
  rw [Traffic.track_setLane, before, if_pos rfl]
  refine ⟨fun changed => absurd rfl changed, ?_⟩
  refine .weaken (carries_pool within.2 (accounts_drop books within.1)) ?_
  rintro _ o' ⟨⟨books, _⟩, same⟩
  exact ⟨books, by rw [same]; rfl⟩

theorem carries_dropLeast (within : Within pool attempt replayable o) {busy : BackendBusy}
    (apart : busy.leastRequest.counter ≠ some .pool)
    (books : o.1.Books answers (busy.leastRequest.held ++ held)) :
    Carries pool r attempt replayable ((busy.leastRequest.drop r).zoom Traffic.poolPart) o
      fun _ o' => o'.1.Books answers held ∧ o'.1.Lives pool ∧ o'.2 = o.2 := by
  refine .weaken (carries_pool within.2 (accounts_drop books within.1)) ?_
  rintro _ o' ⟨⟨books, _, lives⟩, same⟩
  exact ⟨books, lives apart, same⟩

theorem carries_dropBusy (within : Within pool attempt replayable o) {busy : BackendBusy}
    (apart : busy.leastRequest.counter ≠ some .pool)
    (books : o.1.Books answers (busy.leastRequest.held ++ held)) {owners : Nat}
    (shared : o.2.owners = owners + 2) :
    Carries pool r attempt replayable (busy.drop r) o fun _ o' =>
      o'.1.Books answers held ∧ o'.1.Lives pool ∧ o'.2 = ⟨owners + 1, o.2.tries⟩ := by
  refine .bind (.weaken (carries_dropLeast within apart books) ?_)
  rintro _ ⟨e, _⟩ ⟨books, lives, rfl⟩
  refine .weaken (carries_dropOwner ⟨lives, within.2⟩ busy.pool shared) ?_
  rintro _ _ rfl
  exact ⟨books, lives, rfl⟩

theorem carries_dropLastBusy (within : Within pool attempt replayable o) {busy : BackendBusy}
    (apart : busy.leastRequest.counter ≠ some .pool)
    (books : o.1.Books answers (busy.leastRequest.held ++ busy.pool.held))
    (last : o.2.owners = 1) :
    Carries pool r attempt replayable (busy.drop r) o fun _ o' =>
      o'.1.Books answers [] ∧ o'.2.tries = o.2.tries := by
  refine .bind (.weaken (carries_dropLeast within apart books) ?_)
  rintro _ ⟨e, _⟩ ⟨books, lives, rfl⟩
  rw [← List.append_nil busy.pool.held] at books
  exact carries_dropLastOwner ⟨lives, within.2⟩ last books

/-! ## One attempt -/

/-- Between the attempts of an admitted request: its place is owned by the forward
    and by the mark of the last attempt, if there was one. -/
structure Stands (pool : Pool Scheme) (admitted : InflightGuard) (record : RequestRecord)
    (o : Entry × Track) : Prop where
  leg : record.upstream.isSome
  shared : ∀ busy, record.busy = some busy →
    busy.pool = admitted ∧ busy.leastRequest.counter ≠ some .pool
  books : o.1.Books [.ok ()] (record.held ++ admitted.held)
  lives : o.1.Lives pool
  owners : o.2.owners = if record.busy.isSome then 2 else 1

theorem carries_sendAttempt (within : Within pool attempt replayable o)
    (admitted : o.1.answers = [.ok ()])
    (fine : ∀ t, t.attempt = attempt → Allowed attempt replayable (t :: o.2.tries))
    (forwarder : Forwarder) (conn : Connection) (http : Http) (authority : Str)
    (record : RequestRecord) :
    Carries pool r attempt replayable
      (sendAttempt forwarder conn pool r http authority attempt record) o fun ended o' =>
        ∃ t, o' = (o.1, ⟨o.2.owners, t :: o.2.tries⟩) ∧ t.attempt = attempt ∧
          ∀ kind, ended = .failed kind → ∃ reported, kind = .of reported ∧
            t.outcome = some (.failed reported) ∧ t.clientFailed = some false := by
  have still : ∀ t, t.attempt = attempt →
      Within pool attempt replayable (o.1, ⟨o.2.owners, t :: o.2.tries⟩) :=
    fun t same => ⟨within.1, fine t same⟩
  refine .bind (.weaken (carries_read within _) ?_)
  intro started o' same
  rw [same]
  refine .bind (.weaken (carries_inLane within (fun _ => rfl) fun _ same => same) ?_)
  rintro _ _ rfl
  -- the attempt is handed over
  set first : Try := ⟨clientScheme pool.payload, authority, attempt, none, none⟩
  have handed : Carries pool r attempt replayable
      (hand r (clientScheme pool.payload) authority attempt) o fun _ o' =>
        o' = (o.1, ⟨o.2.owners, first :: o.2.tries⟩) := by
    refine carries_write within (fun _ => admitted) ?_
    rintro s rfl
    rw [Traffic.track_setLane]
    rfl
  refine .bind (.weaken handed ?_)
  rintro _ _ rfl
  -- and the wait for it ends
  have noted : ∀ (t : Try) (update : Try → Try) (s : Traffic ι),
      s.own r = (o.1, ⟨o.2.owners, t :: o.2.tries⟩) →
      (s.setLane r (Lane.note update)).track r = ⟨o.2.owners, update t :: o.2.tries⟩ := by
    intro t update s here
    have owners : (s.lanes r).owners = o.2.owners := congrArg (·.2.owners) here
    have tries : (s.lanes r).tries = t :: o.2.tries := congrArg (·.2.tries) here
    rw [Traffic.track_setLane, Lane.note, tries, ← owners]
  refine .bind (carries_exchange (still first rfl) ?_)
  intro s here
  rw [noted first _ s here]
  refine ⟨fun _ => admitted, ?_⟩
  generalize (s.lanes r).outcome record.isGrpc _ = outcome
  have ended : ({ first with outcome := some outcome } : Try).attempt = attempt := rfl
  cases outcome with
  | responded | dropped => exact .ret ⟨_, rfl, ended, fun _ absurd => by cases absurd⟩
  | overdue =>
    refine .bind (.weaken (carries_read (still _ ended) _) ?_)
    intro waiting o' same
    rw [same]
    cases waiting <;> exact .ret ⟨_, rfl, ended, fun _ absurd => by cases absurd⟩
  | failed kind =>
    refine .bind (carries_exchange (still _ ended) ?_)
    intro s here
    rw [noted _ _ s here]
    refine ⟨fun _ => admitted, ?_⟩
    cases (s.lanes r).progress.clientFailed with
    | true => exact .ret ⟨_, rfl, rfl, fun _ absurd => by cases absurd⟩
    | false =>
      refine .ret ⟨_, rfl, rfl, ?_⟩
      rintro _ ⟨⟩
      exact ⟨kind, rfl, rfl, rfl⟩

theorem carries_attempting {admitted guard : InflightGuard} {record : RequestRecord}
    (allowed : Allowed attempt replayable o.2.tries) (stands : Stands pool admitted record o)
    {e : Entry} (books : e.Books [.ok ()] (guard.held ++ (record.held ++ admitted.held)))
    (lives : e.Lives pool) (apart : guard.counter ≠ some .pool) (backend : Str) :
    Carries pool r attempt replayable (record.attempting r backend ⟨guard, admitted⟩)
      (e, ⟨o.2.owners + 1, o.2.tries⟩) fun record' o' =>
        Stands pool admitted record' o' ∧ o'.2.tries = o.2.tries := by
  obtain ⟨leg, upstream⟩ := Option.isSome_iff_exists.mp stands.leg
  have marked : ∀ {o' : Entry × Track}, o'.1.Books [.ok ()] (guard.held ++ admitted.held) →
      o'.1.Lives pool → o'.2.owners = 2 → Stands pool admitted { record with
        upstream := some ⟨leg.pool, some backend, leg.attempts + 1, some ⟨guard, admitted⟩⟩ } o' := by
    intro o' books lives owners
    refine ⟨rfl, ?_, books, lives, owners⟩
    rintro _ ⟨⟩
    exact ⟨rfl, apart⟩
  simp only [RequestRecord.attempting, upstream]
  unfold RequestRecord.dropBusy
  cases busy : record.busy with
  | none =>
    have held : record.held = [] := by rw [RequestRecord.held, busy]
    rw [held] at books
    refine .ret ⟨marked books lives ?_, rfl⟩
    rw [stands.owners, busy]
    rfl
  | some old =>
    have held : record.held = old.leastRequest.held := by rw [RequestRecord.held, busy]
    have swapped := books.perm (List.perm_append_comm_assoc ..)
    rw [held] at swapped
    have owners : o.2.owners + 1 = 1 + 2 := by rw [stands.owners, busy]; rfl
    have within : Within pool attempt replayable (e, ⟨o.2.owners + 1, o.2.tries⟩) :=
      ⟨lives, allowed⟩
    refine .bind (.weaken (carries_dropBusy within (stands.shared old busy).2 swapped owners) ?_)
    rintro _ ⟨e', _⟩ ⟨books, lives, rfl⟩
    exact .ret ⟨marked books lives rfl, rfl⟩

theorem carries_tryOnce {record : RequestRecord}
    (stands : Stands pool admitted record o) (allowed : Allowed attempt replayable o.2.tries)
    (fine : ∀ t, t.attempt = attempt → Allowed attempt replayable (t :: o.2.tries))
    (next : ∀ mayFollow, (out.next mayFollow).1 = attempt)
    (forwarder : Forwarder) (conn : Connection) (http : Http) (attempts : Nat) :
    Carries pool r attempt replayable
      (tryOnce forwarder conn pool r http admitted replayable attempts out record) o
      fun result o' => Stands pool admitted result.2.2 o' ∧
        Allowed attempt replayable o'.2.tries ∧
        ∀ kind, result.1 = .failed kind →
          result.2.1 = (out.next (replayable && decide (attempts + 1 < maxAttempts))).2 ∧
          ∃ t reported, o'.2.tries = t :: o.2.tries ∧ t.attempt = attempt ∧ kind = .of reported ∧
            t.outcome = some (.failed reported) ∧ t.clientFailed = some false := by
  refine .bind (.weaken (carries_pool allowed
    (accounts_select stands.books stands.lives forwarder.order _)) ?_)
  rintro (panic | _ | selection) ⟨e, _⟩ ⟨⟨lives, selected⟩, rfl⟩
  · exact .ret ⟨⟨stands.leg, stands.shared, selected, lives, stands.owners⟩, allowed,
      fun _ absurd => by cases absurd⟩
  · exact .ret ⟨⟨stands.leg, stands.shared, selected, lives, stands.owners⟩, allowed,
      fun _ absurd => by cases absurd⟩
  · obtain ⟨books, apart⟩ := selected
    refine .bind (.weaken (carries_inLane ⟨lives, allowed⟩ (fun _ => rfl)
      fun _ same => congrArg (· + 1) same) ?_)
    rintro _ _ rfl
    refine .bind (.weaken (carries_attempting allowed stands books lives apart _) ?_)
    intro record' o' ⟨stands', tries⟩
    dsimp only
    rw [next]
    have fine' : ∀ t, t.attempt = attempt → Allowed attempt replayable (t :: o'.2.tries) := by
      rw [tries]
      exact fine
    have allowed' : Allowed attempt replayable o'.2.tries := by rwa [tries]
    refine .bind (.weaken (carries_sendAttempt ⟨stands'.lives, allowed'⟩ stands'.books.answers
      fine' forwarder conn http _ record') ?_)
    rintro ended _ ⟨t, rfl, same, failed⟩
    refine .ret ⟨⟨stands'.leg, stands'.shared, stands'.books, stands'.lives, stands'.owners⟩,
      fine' t same, ?_⟩
    intro kind this
    obtain ⟨reported, sort, outcome, client⟩ := failed kind this
    exact ⟨rfl, t, reported, congrArg (t :: ·) tries, same, sort, outcome, client⟩

/-! ## The loop -/

theorem Outgoing.next_whole (bodyless : out.streamed = none) :
    (out.next true).2 = out := by
  rw [Outgoing.next, ← bodyless]
  rfl

theorem Outgoing.next_streamed {content : Incoming} {mayFollow : Bool}
    (streamed : out.streamed = some content) :
    (out.next mayFollow).1.body = .counted content := by
  rw [Outgoing.next, streamed]

variable (forwarder : Forwarder) (conn : Connection) (http : Http)

/-- One round of the loop; `rest` are the rounds a failed attempt leads to. -/
theorem carries_attemptFrom {record : RequestRecord}
    {attempts : Nat} {post : Forwarded × RequestRecord → Entry × Track → Prop}
    (stands : Stands pool admitted record o) (allowed : Allowed attempt replayable o.2.tries)
    (fine : ∀ t, t.attempt = attempt → Allowed attempt replayable (t :: o.2.tries))
    (next : ∀ mayFollow, (out.next mayFollow).1 = attempt)
    (done : ∀ forwarded record' o', Stands pool admitted record' o' →
      Allowed attempt replayable o'.2.tries → post (forwarded, record') o')
    (rest : ∀ record' o' t, Stands pool admitted record' o' → replayable = true →
      attempts + 1 < maxAttempts → o'.2.tries = t :: o.2.tries → t.attempt = attempt →
      t.Retryable → Carries pool r attempt replayable
        (attemptFrom forwarder conn pool r http admitted replayable (attempts + 1)
          (out.next true).2 record') o' post) :
    Carries pool r attempt replayable
      (attemptFrom forwarder conn pool r http admitted replayable attempts out record) o post := by
  rw [attemptFrom]
  refine .bind (.weaken (carries_tryOnce stands allowed fine next forwarder conn http attempts) ?_)
  rintro ⟨ended, out', record'⟩ o' ⟨stands', allowed', failed⟩
  cases ended with
  | ended forwarded => exact .ret (done _ _ _ stands' allowed')
  | failed kind =>
    obtain ⟨left, t, reported, tries, same, sort, outcome, client⟩ := failed kind rfl
    dsimp only at left ⊢
    by_cases its : kind.isTheBackends = true
    · simp only [its, Bool.not_true, Bool.false_eq_true, if_false]
      split
      · rename_i again
        obtain ⟨replays, _, retryable, more⟩ := mayRetry_iff.mp again
        dsimp only at replays retryable more
        have kept : out' = (out.next true).2 := by
          rw [left, replays, decide_eq_true more]
          rfl
        rw [kept]
        subst sort
        exact rest record' o' t stands' replays more tries same
          ⟨reported, outcome, client, its, retryable⟩
      · exact .ret (done _ _ _ stands' allowed')
    · simp only [its, Bool.not_false, if_true]
      exact .ret (done _ _ _ stands' allowed')

/-- All the attempts: a second one carries what the first one did. -/
theorem carries_attempts {record : RequestRecord}
    (stands : Stands pool admitted record o) (fresh : o.2.tries = [])
    (next : (out.next true).1 = attempt) (whole : replayable = true → (out.next true).2 = out) :
    Carries pool r attempt replayable
      (attemptFrom forwarder conn pool r http admitted replayable 0 out record) o
      fun result o' => Stands pool admitted result.2 o' ∧ Allowed attempt replayable o'.2.tries := by
  have allowed : Allowed attempt replayable o.2.tries := fresh ▸ allowed_nil attempt replayable
  have first : ∀ t : Try, t.attempt = attempt → Allowed attempt replayable (t :: o.2.tries) :=
    fun t same => fresh ▸ allowed_first same
  refine carries_attemptFrom forwarder conn http stands allowed first (fun _ => next)
    (fun _ _ _ stands allowed => ⟨stands, allowed⟩) ?_
  intro record' o' t stands' replays _ tries same failed
  rw [whole replays]
  rw [fresh] at tries
  have once : Allowed attempt replayable [t] := allowed_first same
  have second : ∀ u : Try, u.attempt = attempt → Allowed attempt replayable (u :: o'.2.tries) :=
    fun u same => tries ▸ once.second replays failed same
  refine carries_attemptFrom forwarder conn http stands' (tries ▸ once) second (fun _ => next)
    (fun _ _ _ stands allowed => ⟨stands, allowed⟩) ?_
  intro _ _ _ _ _ more
  exact absurd more (lt_irrefl _)

end Parts

/-! ## The forward -/

section Forward

variable {http : Http} {pool : Pool Scheme} {r : ι} {o : Entry × Track}

def Request.replayable (request : Request http) : Bool :=
  isReplayable request.method (!request.content.isEndStream)

/-- The attempt that is made for a request, once or twice. -/
def attemptFor (conn : Connection) (request : Request http) (record : RequestRecord) : Attempt :=
  ((outgoing conn request record request.replayable).next true).1

/-- What a forward leaves: nothing, or the mark of its last attempt as the last
    owner of the place. -/
def Leaves (pool : Pool Scheme) (record : RequestRecord) (o : Entry × Track) : Prop :=
  match record.busy with
  | none => ∃ answers, o.1.Books answers []
  | some busy => o.1.Books [.ok ()] (busy.leastRequest.held ++ busy.pool.held) ∧
      o.1.Lives pool ∧ busy.leastRequest.counter ≠ some .pool ∧ o.2.owners = 1

/-- Nothing happened for the request yet. -/
structure Untouched (o : Entry × Track) : Prop where
  books : o.1.Books [] []
  never : o.1.taken .pool = 0
  tries : o.2.tries = []

variable (forwarder : Forwarder) (conn : Connection) (request : Request http)
  (record : RequestRecord)

theorem carries_forwardAdmitted (stands : Stands pool admitted record o)
    (fresh : o.2.tries = []) :
    Carries pool r (attemptFor conn request record) request.replayable
      (forwardAdmitted forwarder conn pool r request record admitted) o fun result o' =>
        Stands pool admitted result.2 o' ∧
          Allowed (attemptFor conn request record) request.replayable o'.2.tries := by
  have within : Within pool (attemptFor conn request record) request.replayable o :=
    ⟨stands.lives, fresh ▸ allowed_nil _ _⟩
  have whole : request.replayable = true →
      ((outgoing conn request record request.replayable).next true).2 =
        outgoing conn request record request.replayable :=
    fun replays => Outgoing.next_whole (if_pos replays)
  have loop := carries_attempts (r := r) forwarder conn http stands fresh rfl whole
  refine .bind (.weaken (carries_read within _) ?_)
  intro started o' same
  rw [same]
  refine .bind (.weaken (carries_inLane within (fun _ => rfl) fun _ same => same) ?_)
  rintro _ _ rfl
  split
  · refine .bind (.weaken (carries_read within _) ?_)
    intro now o' same
    rw [same]
    refine .bind (.weaken (carries_inLane within (fun _ => rfl) fun _ same => same) ?_)
    rintro _ _ rfl
    exact loop
  · exact loop

theorem carries_dropForward {replayable : Bool}
    {record : RequestRecord} (stands : Stands pool admitted record o)
    (allowed : Allowed attempt replayable o.2.tries) :
    Carries pool r attempt replayable (dropOwner r admitted) o fun _ o' =>
      Leaves pool record o' ∧ Allowed attempt replayable o'.2.tries := by
  have books := stands.books
  have owners := stands.owners
  have within : Within pool attempt replayable o := ⟨stands.lives, allowed⟩
  unfold RequestRecord.held at books
  unfold Leaves
  cases marked : record.busy with
  | none =>
    rw [marked] at books owners
    rw [List.nil_append, ← List.append_nil admitted.held] at books
    refine .weaken (carries_dropLastOwner within owners books) ?_
    rintro _ o' ⟨books, same⟩
    exact ⟨⟨_, books⟩, same ▸ allowed⟩
  | some busy =>
    obtain ⟨shared, apart⟩ := stands.shared busy marked
    rw [marked] at books owners
    refine .weaken (carries_dropOwner within admitted (owners.trans (Nat.zero_add 2).symm)) ?_
    rintro _ _ rfl
    exact ⟨⟨shared ▸ books, stands.lives, apart, rfl⟩, allowed⟩

theorem carries_forward (fresh : Untouched o) (unmarked : record.busy = none) :
    Carries pool r (attemptFor conn request record) request.replayable
      (forward forwarder conn pool r request record) o fun result o' =>
        Leaves pool result.2 o' ∧
          Allowed (attemptFor conn request record) request.replayable o'.2.tries := by
  have allowed : Allowed (attemptFor conn request record) request.replayable o.2.tries :=
    fresh.tries ▸ allowed_nil _ _
  have nothing : ∀ {record' : RequestRecord} {o' : Entry × Track} {answers},
      record'.busy = none → o'.1.Books answers [] → Leaves pool record' o' := by
    intro record' o' answers unmarked books
    rw [Leaves, unmarked]
    exact ⟨answers, books⟩
  unfold forward
  split
  · exact .ret ⟨nothing unmarked fresh.books, allowed⟩
  split
  · exact .ret ⟨nothing unmarked fresh.books, allowed⟩
  unfold RequestRecord.forwardingTo RequestRecord.dropBusy
  rw [unmarked]
  have within : Within pool (attemptFor conn request record) request.replayable o :=
    ⟨fresh.books.unanswered, allowed⟩
  refine .bind (.ret (.bind (.weaken (carries_read within _) ?_)))
  intro now o' same
  rw [same]
  refine .bind (.weaken (carries_pool allowed
    (accounts_admitRequest now fresh.books fresh.never)) ?_)
  rintro (limit | admitted) ⟨e, _⟩ ⟨asked, rfl⟩
  · exact .ret ⟨nothing rfl asked, allowed⟩
  · obtain ⟨books, lives, _⟩ := asked
    have admittedWithin : Within pool (attemptFor conn request record) request.replayable
        (e, o.2) := ⟨lives, allowed⟩
    refine .bind (.weaken (carries_inLane admittedWithin (fun _ => rfl) fun _ _ => rfl) ?_)
    rintro _ _ rfl
    have stands : Stands pool admitted { record with upstream := some ⟨pool.id, none, 0, none⟩ }
        (e, ⟨1, o.2.tries⟩) := by
      refine ⟨rfl, ?_, books, lives, rfl⟩
      rintro _ ⟨⟩
    refine .bind (.weaken (carries_forwardAdmitted forwarder conn request _ stands fresh.tries) ?_)
    rintro ⟨forwarded, record'⟩ o' ⟨stands', allowed'⟩
    exact .bind (.weaken (carries_dropForward stands' allowed') fun _ _ left => .ret left)

theorem carries_dropRecord {replayable : Bool} {record : RequestRecord}
    (leaves : Leaves pool record o) (allowed : Allowed attempt replayable o.2.tries) :
    Carries pool r attempt replayable (record.dropBusy r) o fun _ o' =>
      (∃ answers, o'.1.Books answers []) ∧ Allowed attempt replayable o'.2.tries := by
  unfold Leaves at leaves
  unfold RequestRecord.dropBusy
  cases marked : record.busy with
  | none =>
    rw [marked] at leaves
    exact .ret ⟨leaves, allowed⟩
  | some busy =>
    rw [marked] at leaves
    obtain ⟨books, lives, apart, owners⟩ := leaves
    have within : Within pool attempt replayable o := ⟨lives, allowed⟩
    refine .weaken (carries_dropLastBusy within apart books owners) ?_
    rintro _ o' ⟨books, same⟩
    exact ⟨⟨_, books⟩, same ▸ allowed⟩

theorem carries_forwardRequest (fresh : Untouched o) (host requestId : Str) :
    Carries pool r (attemptFor conn request (.begin request host requestId)) request.replayable
      (forwardRequest forwarder conn pool r request host requestId) o fun _ o' =>
        (∃ answers, o'.1.Books answers []) ∧
          Allowed (attemptFor conn request (.begin request host requestId)) request.replayable
            o'.2.tries := by
  refine .bind (.weaken (carries_forward forwarder conn request _ fresh rfl) ?_)
  rintro ⟨forwarded, record'⟩ o' ⟨leaves, allowed⟩
  have dropped := carries_dropRecord (r := r) leaves allowed
  have unmarked : ∀ reason, RequestRecord.busy { record' with
      error := some reason
      upstream := record'.upstream.map fun upstream => { upstream with busy := none } } = none := by
    intro reason
    cases record'.upstream <;> simp [RequestRecord.busy]
  dsimp only
  split
  · refine .bind (.bind (.weaken dropped ?_))
    intro _ o'' given
    refine .ret (.bind ?_)
    rw [RequestRecord.dropBusy, unmarked]
    exact .ret (.ret given)
  · exact .bind (.weaken dropped fun _ _ given => .ret given)

end Forward

/-! ## What a backend is sent -/

/-- The pool is asked once, before anything is sent. -/
structure AsksOnce (r : ι) (s : Traffic ι) : Prop where
  once : (s.pool.ledger r).answers.length ≤ 1
  admitted : (s.lanes r).tries ≠ [] → (s.pool.ledger r).answers = [.ok ()]

section Sent

variable {http : Http} {pool : Pool Scheme} {r : ι}

theorem Carried.asksOnce (carried : Carried pool r s s')
    (asks : AsksOnce r s) : AsksOnce r s' := by
  cases carried with
  | idle => exact asks
  | inPool moved =>
    refine ⟨moved.answersOnce asks.once, ?_⟩
    intro sent
    have before := asks.admitted sent
    exact (moved.answers (by simp [before])).trans before
  | @inLane update sends =>
    refine ⟨asks.once, ?_⟩
    intro sent
    by_cases same : ((s.setLane r update).lanes r).tries = (s.lanes r).tries
    · exact asks.admitted fun none => sent (same.trans none)
    · exact sends same

omit [DecidableEq ι] in
theorem asksOnce_of_own (same : s'.own r = s.own r) (asks : AsksOnce r s) :
    AsksOnce r s' := by
  have entry : s'.pool.ledger r = s.pool.ledger r := congrArg Prod.fst same
  have tries : (s'.lanes r).tries = (s.lanes r).tries := congrArg (·.2.tries) same
  exact ⟨entry ▸ asks.once, by rw [entry, tries]; exact asks.admitted⟩

theorem forward_allowed (forwarder : Forwarder) (conn : Connection) (request : Request http)
    (host requestId : Str) {env : Traffic ι → Traffic ι → Prop}
    (kept : ∀ s s', env s s' → s'.own r = s.own r)
    (untouched : Untouched (s.own r)) {p : Program (Traffic ι) (Forwarded × RequestRecord)}
    (steps : Program.Steps env
      (forward forwarder conn pool r request (.begin request host requestId), s) (p, s')) :
    AsksOnce r s' ∧ Allowed (attemptFor conn request (.begin request host requestId))
      request.replayable (s'.lanes r).tries := by
  have start : AsksOnce r s :=
    ⟨untouched.books.answers.symm ▸ Nat.zero_le _, fun sent => absurd untouched.tries sent⟩
  have allowed : ∀ s s', env s s' → (Rely.keeping (Traffic.own r)).may s s' ∧
      (AsksOnce r s → AsksOnce r s') :=
    fun s s' moved => ⟨kept s s' moved, asksOnce_of_own (kept s s' moved)⟩
  have moves : ∀ s s', Carried pool r s s' → AsksOnce r s → AsksOnce r s' :=
    fun s s' carried => carried.asksOnce
  obtain ⟨asks, obeys⟩ := Program.Obeys.sound allowed moves start
    (carries_forward forwarder conn request (.begin request host requestId) untouched rfl s rfl) steps
  refine ⟨asks, ?_⟩
  cases p with
  | ret | act => exact obeys.now.2

/-- Whatever is selected and however the attempts end, a request is sent at most
    twice, and at most once and with its own body if it cannot be replayed. It is
    sent again only after a first attempt that failed by the fault of its backend
    and before any response; what is sent is the same, and the pool is asked to
    admit the request once. -/
theorem forward_sends_at_most_twice (forwarder : Forwarder) (conn : Connection)
    (request : Request http) (host requestId : Str) {env : Traffic ι → Traffic ι → Prop}
    (kept : ∀ s s', env s s' → s'.own r = s.own r) {s s' : Traffic ι}
    (untouched : Untouched (s.own r)) {p : Program (Traffic ι) (Forwarded × RequestRecord)}
    (steps : Program.Steps env
      (forward forwarder conn pool r request (.begin request host requestId), s) (p, s')) :
    (s'.lanes r).tries.length ≤ 2 ∧
      (request.method ∉ [.get, .head, .options, .trace, .delete] ∨
          request.content.isEndStream = false →
        (s'.lanes r).tries.length ≤ 1 ∧
          ∀ t ∈ (s'.lanes r).tries, t.attempt.body = .counted request.content) ∧
      (∀ second first, (s'.lanes r).tries = [second, first] →
        first.Retryable ∧ second.attempt.method = first.attempt.method ∧
          second.attempt.version = first.attempt.version ∧
          second.attempt.pathAndQuery = first.attempt.pathAndQuery ∧
          second.attempt.headers = first.attempt.headers) ∧
      (s'.pool.ledger r).answers.length ≤ 1 ∧
      ((s'.lanes r).tries ≠ [] → (s'.pool.ledger r).answers = [.ok ()]) := by
  obtain ⟨asks, allowed⟩ := forward_allowed forwarder conn request host requestId kept untouched steps
  refine ⟨?_, ?_, ?_, asks.once, asks.admitted⟩
  · rcases allowed.again with few | ⟨_, second, first, tries, _⟩
    · omega
    · rw [tries]
      exact le_rfl
  · intro hindered
    have once : request.replayable = false := by
      rcases hindered with method | body
      · unfold Request.replayable isReplayable
        cases named : request.method <;> simp [named] at method ⊢
      · simp [Request.replayable, isReplayable, body]
    refine ⟨?_, ?_⟩
    · rcases allowed.again with few | ⟨replays, _⟩
      · exact few
      · rw [once] at replays
        cases replays
    · intro t member
      rw [allowed.same t member]
      refine Outgoing.next_streamed (if_neg ?_)
      simp [once]
  · intro second first tries
    have same := allowed.same
    rw [tries] at same
    rw [same second (by simp), same first (by simp)]
    refine ⟨?_, rfl, rfl, rfl, rfl⟩
    rcases allowed.again with few | ⟨_, _, _, two, failed⟩
    · rw [tries] at few
      exact absurd few (by simp)
    · rw [tries] at two
      cases two
      exact failed

/-- One request in a pool of one healthy backend, whose attempts end like this. -/
def oneRequest (pool : Pool Scheme) (sending : Except LibraryKind Response) : Traffic Unit where
  pool := .new pool (fun _ => .healthy) true 0
  lanes _ := ⟨sending, false, false, .begin ⟨0, clockRange_pos⟩ false, 0, []⟩
  now := ⟨0, clockRange_pos⟩

theorem untouched_oneRequest (pool : Pool Scheme) (sending : Except LibraryKind Response) :
    Untouched ((oneRequest pool sending).own ()) :=
  ⟨⟨rfl, fun _ => rfl, by simp [oneRequest, Traffic.own, PoolState.new], by simp⟩, rfl, rfl⟩

/-- A request for `/` with these headers. -/
def getRoot (headers : HeaderMap) : Request .plain where
  uri := ⟨none, ['/'], some ['/']⟩
  headers := headers
  version := .http11
  method := .get
  content := ⟨0, true⟩

def Forwarder.plain : Forwarder := ⟨[], fun _ => 0, fun _ _ => .eq⟩

def Connection.plain : Connection := ⟨⟨0, none⟩, .v4 0, false⟩

def Pool.single : Pool Scheme :=
  ⟨['p'], .roundRobin, [⟨['h'], 80, 1⟩], .http, [0], [], true, none, none⟩

/-- The request and its lane once its forward has returned. -/
def forwarded (headers : HeaderMap) (sending : Except LibraryKind Response) :
    (Forwarded × RequestRecord) × Traffic Unit :=
  (forward .plain .plain .single () (getRoot headers) (.begin (getRoot headers) ['h'] ['i'])).run
    (oneRequest .single sending)

/-- A connection that is reset is tried again, once. -/
theorem forward_sends_again_after_reset :
    ((forwarded [] (.error .reset)).2.lanes ()).tries.length = 2 ∧
      ((forwarded [] (.error .reset)).2.lanes ()).tries.length ≤ 2 := by
  have kept : ∀ s s' : Traffic Unit, s'.own () = s.own () → s'.own () = s.own () :=
    fun _ _ same => same
  exact ⟨by decide +kernel, (forward_sends_at_most_twice .plain .plain (getRoot []) ['h'] ['i'] kept
    (untouched_oneRequest .single (.error .reset)) (Program.steps_run _ _ _)).1⟩

/-- Every `Host` line a backend gets over HTTP/1.1 names the host the request was
    routed by, exactly if the request's target names a host or all its own `Host`
    lines name that one. -/
theorem host_lines_name_routed_host_iff (forwarder : Forwarder) (conn : Connection)
    (request : Request http) {host : Str} (requestId : Str)
    (routed : requestHost request.uri request.headers request.version conn.sni = .ok host)
    (named : request.uri.authority.isSome ∨ request.headers.getAll hostHeader ≠ [])
    (onward : hostHeader ∉ namedByConnection http request.headers)
    {env : Traffic ι → Traffic ι → Prop} (kept : ∀ s s', env s s' → s'.own r = s.own r)
    {s s' : Traffic ι} (untouched : Untouched (s.own r))
    {p : Program (Traffic ι) (Forwarded × RequestRecord)}
    (steps : Program.Steps env
      (forward forwarder conn pool r request (.begin request host requestId), s) (p, s'))
    {t : Try} (made : t ∈ (s'.lanes r).tries) {sent : SentHead}
    (ended : send http t.scheme t.authority t.attempt = .ok sent)
    (plain : overHttp1 t.scheme t.attempt.version = true) :
    (∀ value ∈ sent.headers.getAll hostHeader, Names value host) ↔
      request.uri.authority.isSome ∨
        ∀ value ∈ request.headers.getAll hostHeader, Names value host := by
  have allowed := (forward_allowed forwarder conn request host requestId kept untouched steps).2
  let forwarding : Forwarding :=
    ⟨conn.client, if conn.isTls then "https".toList else "http".toList, host, requestId⟩
  have passedOn : (toBackend request.toParts forwarding).headers = t.attempt.headers := by
    rw [allowed.same t made]
    rfl
  have same := getAll_toBackend_host request.toParts forwarding
  rw [if_neg onward, passedOn] at same
  cases target : request.uri.authority with
  | some authority =>
    obtain ⟨value, found, names⟩ := targetHost_names target
    rw [found] at same
    rw [send_headers ended plain (by simp [same]), same, requestHost_of_target target routed]
    simpa using names
  | none =>
    rw [targetHost, target] at same
    have lines : request.headers.getAll hostHeader ≠ [] := by simpa [target] using named
    rw [send_headers ended plain (same ▸ lines), same]
    simp

/-- This line is in what an attempt sends. -/
def Try.sends (t : Try) (name : HeaderName) (value : HeaderValue) : Bool :=
  match send .plain t.scheme t.authority t.attempt with
  | .ok sent => decide (value ∈ sent.headers.getAll name)
  | .error _ => false

theorem exists_of_sends {t : Try} {name : HeaderName} {value : HeaderValue}
    (sends : t.sends name value = true) :
    ∃ sent, send .plain t.scheme t.authority t.attempt = .ok sent ∧
      value ∈ sent.headers.getAll name := by
  unfold Try.sends at sends
  split at sends
  · rename_i sent ended
    exact ⟨sent, ended, of_decide_eq_true sends⟩
  · cases sends

theorem exists_sends {tries : List Try} {name : HeaderName} {value : HeaderValue}
    (some : tries.any (·.sends name value) = true) :
    ∃ t ∈ tries, ∃ sent, send .plain t.scheme t.authority t.attempt = .ok sent ∧
      value ∈ sent.headers.getAll name := by
  obtain ⟨t, member, sends⟩ := List.any_eq_true.mp some
  exact ⟨t, member, exists_of_sends sends⟩

/-- An attempt that went out over HTTP/1.1 with this `Host` line among others. -/
def Try.sentWith (t : Try) (value : HeaderValue) : Bool :=
  overHttp1 t.scheme t.attempt.version && t.sends hostHeader value

theorem exists_sentWith {tries : List Try} {value : HeaderValue}
    (some : tries.any (·.sentWith value) = true) :
    ∃ t ∈ tries, overHttp1 t.scheme t.attempt.version = true ∧
      ∃ sent, send .plain t.scheme t.authority t.attempt = .ok sent ∧
        value ∈ sent.headers.getAll hostHeader := by
  obtain ⟨t, member, sentWith⟩ := List.any_eq_true.mp some
  obtain ⟨plain, sends⟩ := (Bool.and_eq_true _ _).mp sentWith
  exact ⟨t, member, plain, exists_of_sends sends⟩

/-- One `Host` line: it names the host, and so does what the backend gets. -/
theorem host_line_names_routed_host :
    ∃ t ∈ ((forwarded [(hostHeader, [104])] (.error .reset)).2.lanes ()).tries,
      ∃ sent, send .plain t.scheme t.authority t.attempt = .ok sent ∧
        ∀ value ∈ sent.headers.getAll hostHeader, Names value ['h'] := by
  have kept : ∀ s s' : Traffic Unit, s'.own () = s.own () → s'.own () = s.own () :=
    fun _ _ same => same
  have some : ((forwarded [(hostHeader, [104])] (.error .reset)).2.lanes ()).tries.any
      (·.sentWith [104]) = true := by decide +kernel
  obtain ⟨t, made, plain, sent, ended, _⟩ := exists_sentWith some
  refine ⟨t, made, sent, ended, ?_⟩
  refine (host_lines_name_routed_host_iff .plain .plain (getRoot [(hostHeader, [104])]) ['i'] rfl
    (.inr (by decide)) (by decide) kept (untouched_oneRequest .single (.error .reset))
    (Program.steps_run _ _ _) made ended plain).mpr (.inr ?_)
  intro value member
  cases List.mem_singleton.mp (show value ∈ [[104]] from member)
  exact ⟨['h'], rfl, rfl⟩

/-- Two `Host` lines: the request is routed by the first, and the backend gets
    the second as well. -/
theorem second_host_line_is_sent :
    let request := getRoot [(hostHeader, [104]), (hostHeader, [105])]
    requestHost request.uri request.headers request.version Connection.plain.sni = .ok ['h'] ∧
      hostHeader ∉ namedByConnection .plain request.headers ∧
      (∃ t ∈ ((forwarded request.headers (.error .reset)).2.lanes ()).tries,
        overHttp1 t.scheme t.attempt.version = true ∧
          ∃ sent, send .plain t.scheme t.authority t.attempt = .ok sent ∧
            [105] ∈ sent.headers.getAll hostHeader) ∧
      ¬Names [105] ['h'] := by
  refine ⟨rfl, by decide, exists_sentWith (by decide +kernel), ?_⟩
  rintro ⟨text, reads, named⟩
  cases reads
  exact absurd named (by decide)

end Sent

end Gfe
