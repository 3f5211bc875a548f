import Gfe.Node.Upgrade

/-! # What comes of an upgrade

Whether every address stays accepted on, whether a successor is left when the
upgrade is dropped, and whether killing one breaks connections.
-/

namespace Gfe

namespace Upgrade

open Text Handover Interleaving

variable {pid : UInt32} {event : Event} {s s' : State} {handed : HashMap SocketAddr SocketId}
  {t t' : Successor} {x x' : Exchange}

/-! ## An upgrade that is left alone -/

/-- Nobody asks the node to stop, and the successor does not fail once it has said
    that it is ready. -/
def Undisturbed (event : Event) (s : State) : Prop :=
  event ≠ .stop ∧ (event = .die → ¬ s.successor.phase.Said)

/-- Nobody asked the node to stop. -/
def Main.Unasked : Main → Prop
  | .leaving none | .draining .asked | .draining .abandoned | .stopped .asked
  | .stopped .abandoned => False
  | _ => True

structure State.Undisturbed (s : State) : Prop where
  unasked : s.main.Unasked
  /-- A successor that was ready and is gone was killed, and given up. -/
  lasting : s.successor.phase = .gone → Confirmed s.exchange.written →
    ∃ error, s.wait = some (.ended (.error error))

theorem Successor.Step.going
    (sound : t.Sound pid x) (step : Successor.Step pid handed event x t x' t')
    (early : event = .die → ¬ t.phase.Said) (gone : t'.phase = .gone)
    (confirmed : Confirmed x'.written) : t.phase = .gone ∧ x' = x := by
  have quiet : ¬ t.phase.Said → Confirmed x.written → t.phase = .gone := by
    intro silent confirmed
    by_contra alive
    exact sound.spoken.not_confirmed alive silent confirmed
  cases step with
  | refused phase rest _ =>
    refine ⟨quiet ?_ confirmed, rfl⟩
    cases phase with
    | inl phase => rw [phase]; simp [Phase.Said]
    | inr phase => rw [phase]; simpa [Phase.Said] using rest
  | unsent phase _ _ =>
    refine ⟨quiet ?_ confirmed, rfl⟩
    rw [phase]
    simp [Phase.Said]
  | die => exact ⟨quiet (early rfl) confirmed, rfl⟩
  | call => exact ⟨gone, rfl⟩
  | reload => exact ⟨gone, rfl⟩
  | accept => exact ⟨gone, rfl⟩
  | close => exact ⟨gone, rfl⟩
  | babble phase _ _ =>
    rw [phase] at gone
    cases gone
  | _ => cases gone

theorem State.Undisturbed.step (quiet : s.Undisturbed) (sound : s.Sound pid)
    (allowed : Upgrade.Undisturbed event s) (step : Step pid event s s') : s'.Undisturbed := by
  obtain ⟨unasked, lasting⟩ := quiet
  cases step with
  | reload => exact ⟨unasked, lasting⟩
  | upgrade _ never =>
    refine ⟨trivial, fun gone confirmed => ?_⟩
    obtain ⟨error, ended⟩ := lasting gone confirmed
    rw [never] at ended
    cases ended
  | wait here step =>
    refine ⟨unasked, fun gone confirmed => ?_⟩
    rw [show _ = s.exchange.written from step.written] at confirmed
    cases step.successor with
    | inl kept =>
      rw [show _ = s.successor from kept.1] at gone
      obtain ⟨error, ended⟩ := lasting gone confirmed
      rw [here] at ended
      cases ended
      cases step
    | inr moved =>
      cases moved with
      | inl spawned =>
        obtain ⟨_, _, started⟩ := spawned
        cases started with
        | inl node => rw [node] at gone; cases gone
        | inr foreign => rw [foreign] at gone; cases gone
      | inr killed =>
        obtain ⟨_, _, error, ended⟩ := killed
        exact ⟨error, congrArg some ended⟩
  | successor step =>
    refine ⟨unasked, fun gone confirmed => ?_⟩
    obtain ⟨was, same⟩ := step.going sound.successor allowed.2 gone confirmed
    apply lasting was
    rw [← same]
    exact confirmed
  | returns => exact ⟨trivial, lasting⟩
  | drop => exact absurd rfl allowed.1
  | @shut _ result _ => exact ⟨by cases result <;> trivial, lasting⟩
  | abandon leaving =>
    rw [leaving] at unasked
    exact absurd unasked id
  | stop => exact absurd rfl allowed.1
  | @drain _ why draining =>
    rw [draining] at unasked
    refine ⟨?_, lasting⟩
    cases why <;> exact unasked

theorem State.undisturbed_of_runs {old : ListenerSet} (reachable : Reachable old)
    (run : Runs pid Upgrade.Undisturbed (.new old) s) : s.Undisturbed := by
  induction run with
  | refl => exact ⟨trivial, nofun⟩
  | tail before last ih =>
    obtain ⟨event, allowed, step⟩ := last
    exact ih.step (State.sound_of_runs reachable before) allowed step

def State.Accepts (s : State) (address : SocketAddr) : Prop :=
  (∀ why, s.main ≠ .stopped why) ∧ (s.old.listeners.running.lookup address).isSome = true

def Successor.Accepts (s : Successor) (address : SocketAddr) : Prop :=
  s.phase.hasSet = true ∧ (s.set.listeners.running.lookup address).isSome = true

/-- A successor that said it is ready, and was not killed, accepts where its config says. -/
theorem State.Undisturbed.accepts (quiet : s.Undisturbed) (sound : s.Sound pid) {successor : UInt32}
    (ended : s.wait = some (.ended (.ok successor))) {named : List SocketAddr}
    (applied : s.successor.applied = some named) {address : SocketAddr} (member : address ∈ named) :
    s.successor.Accepts address := by
  have confirmed : Confirmed s.exchange.written := by
    have read := sound.read
    rw [ended] at read
    exact read
  have alive : s.successor.phase ≠ .gone := by
    intro gone
    obtain ⟨error, failed⟩ := quiet.lasting gone confirmed
    rw [ended] at failed
    cases failed
  have said : s.successor.phase.Said := by
    by_contra silent
    exact sound.successor.spoken.not_confirmed alive silent confirmed
  refine ⟨?_, (sound.successor.named named applied address).mpr member⟩
  cases said with
  | inl serving => rw [serving]; rfl
  | inr written => rw [written]; rfl

theorem State.Undisturbed.stopped (quiet : s.Undisturbed) (sound : s.Sound pid) {why : Leave}
    (stopped : s.main = .stopped why) :
    ∃ successor, why = .replaced successor ∧ s.wait = some (.ended (.ok successor)) := by
  have unasked := quiet.unasked
  have reported := sound.reported
  rw [stopped] at unasked reported
  cases why with
  | asked => exact absurd unasked id
  | abandoned => exact absurd unasked id
  | replaced successor => exact ⟨successor, rfl, reported⟩

/-! ## Upgrades that go this way or that -/

theorem parseReceipt_receipt (pid : UInt32) : parseReceipt (utf8 (receipt pid)) = some pid := by
  have stripped : stripStart (receipt pid) "received".toList = some (' ' :: Nat.toDigits 10 pid.toNat) :=
    stripStart_eq_some.mpr rfl
  have number : parseUnsigned UInt32.size (trim (' ' :: Nat.toDigits 10 pid.toNat)) = some pid.toNat := by
    rw [trim_cons (by decide), trim_toDigits]
    exact parseUnsigned_toDigits pid.toNat_lt
  simp only [parseReceipt, fromUtf8_utf8, stripped, number, Option.bind_eq_bind, Option.bind_some,
    Option.pure_def, UInt32.ofNat_toNat]

/-- The thread has come to `wait`, with `unread` left to read. -/
def State.hearing (s : State) (wait : Wait) (unread : Bytes) : State :=
  { s with wait := some wait, exchange := { s.exchange with unread := unread } }

section Walks

variable {allowed : Event → State → Prop}

theorem runs_readLine (calm : ∀ s, allowed .other s) (stage : Bytes → Wait)
    (reads : ∀ x t line byte unread, x.unread = byte :: unread → byte ≠ newline →
      Wait.Step .other (stage line) x t (stage (line ++ [byte])) { x with unread := unread } t)
    (s : State) (front : Bytes) :
    ∀ line back, newline ∉ front →
      Runs pid allowed (s.hearing (stage line) (front ++ back))
        (s.hearing (stage (line ++ front)) back) := by
  induction front with
  | nil =>
    intro line back _
    rw [List.append_nil]
    exact .refl
  | cons byte front ih =>
    intro line back plain
    rw [List.mem_cons, not_or] at plain
    have rest := ih (line ++ [byte]) back plain.2
    rw [List.append_assoc] at rest
    exact .head ⟨.other, calm _, .wait rfl (reads _ _ line byte _ rfl (Ne.symm plain.1))⟩ rest

theorem runs_hearReceipt (calm : ∀ s, allowed .other s) (s : State) (rest : Bytes) :
    Runs pid allowed (s.hearing (.receipt []) (receiptBytes pid ++ rest))
      (s.hearing (.confirmation pid []) rest) := by
  have line : Runs pid allowed _ _ := runs_readLine calm .receipt
    (fun _ _ _ _ _ unread plain => .readReceipt unread plain) s (utf8 (receipt pid)) []
    (newline :: rest) (newline_notMem_receipt pid)
  rw [receiptBytes, List.append_assoc]
  exact line.tail ⟨.other, calm _, .wait rfl (.receipt rfl (parseReceipt_receipt pid))⟩

theorem runs_hearReady (calm : ∀ s, allowed .other s) (s : State) (successor : UInt32) :
    Runs pid allowed (s.hearing (.confirmation successor []) readyBytes)
      (s.hearing (.ended (.ok successor)) []) := by
  have line : Runs pid allowed _ _ := runs_readLine calm (.confirmation successor)
    (fun _ _ _ _ _ unread plain => .readConfirmation unread plain) s ready [] [newline]
    (by decide +kernel)
  exact line.tail ⟨.other, calm _, .wait rfl (.confirmation rfl)⟩

/-- An upgrade under way, of which the thread has read nothing yet. -/
def State.underWay (old : ListenerSet) (said : Bytes) (successor : Successor) : State where
  main := .upgrading
  old := old
  handed := old.listeners.running.mapValues RunningListener.socket
  wait := some (.receipt [])
  exchange := ⟨true, false, false, said, said⟩
  successor := successor
  broken := 0

/-- A world in which the sockets of `old` were handed over. -/
def takingOver (old : ListenerSet) : World :=
  ⟨old.world.host, { Node.new ∅ with listeners := { Listeners.empty with
    adopted := old.listeners.running.mapValues RunningListener.socket } }, .blank⟩

theorem runs_receive (calm : ∀ s, allowed .other s) {old : ListenerSet} (sound : old.Sound) :
    Runs pid allowed (.new old)
      (.underWay old (receiptBytes pid) ⟨.starting, ⟨takingOver old, none⟩, none, 0⟩) := by
  have known : ∀ address socket,
      (old.listeners.running.mapValues RunningListener.socket).lookup address = some socket →
        socket < (takingOver old).host.nextSocket := by
    intro address socket here
    rw [HashMap.lookup_mapValues] at here
    exact sound.custody.issued (.running address) socket here
  have some : receiptBytes pid ≠ [] := by simp [receiptBytes]
  have whole : Phase.answering (receiptBytes pid) = .answering (receiptBytes pid ++ []) := by
    rw [List.append_nil]
  have born : Phase.receiving ≠ .unborn := by
    intro same
    cases same
  have spawned : Runs pid allowed (.new old) (.underWay old [] ⟨.receiving, old, none, 0⟩) :=
    .tail (.tail (.single ⟨.other, calm _, .upgrade rfl rfl⟩)
      ⟨.other, calm _, .wait rfl (.spawn rfl)⟩) ⟨.other, calm _, .wait rfl (.send born rfl)⟩
  have received : Runs pid allowed (.new old) (.underWay old []
      ⟨.answering (receiptBytes pid), ⟨takingOver old, none⟩, none, 0⟩) :=
    spawned.tail ⟨.other, calm _, .successor (.receive rfl rfl rfl known)⟩
  have answered : Runs pid allowed (.new old) (.underWay old (receiptBytes pid)
      ⟨.answering [], ⟨takingOver old, none⟩, none, 0⟩) :=
    received.tail ⟨.other, calm _, .successor (.answer whole some rfl)⟩
  exact answered.tail ⟨.other, calm _, .successor (.answered rfl)⟩

section Starting

variable {old : ListenerSet} {desired : List (SocketAddr × Listener)} {staged : Staged Listener}
  {w : World}

def Successor.applying (staged : Staged Listener) (w : World) (phase : Phase) (connections : Nat) :
    Successor :=
  ⟨phase, ⟨((Listeners.commit staged).run w).2, none⟩, some (staged.desired.map Prod.fst), connections⟩

theorem runs_start (calm : ∀ s, allowed .other s) (sound : old.Sound)
    (ended : Fallible.exec (Listeners.stage desired) (takingOver old) = (.ok staged, w)) :
    Runs pid allowed (.new old)
      (.underWay old (receiptBytes pid) (.applying staged w .started 0)) := by
  have prepared : Runs pid allowed (.new old) (.underWay old (receiptBytes pid)
      ⟨.starting, ⟨w, some ⟨staged, takingOver old⟩⟩, none, 0⟩) :=
    (runs_receive calm sound).tail ⟨.other, calm _, .successor (.call rfl (fun same => by cases same) (.staged ended))⟩
  have started (x : Exchange) (handed : HashMap SocketAddr SocketId) :
      Successor.Step pid handed .other x ⟨.starting, ⟨w, some ⟨staged, takingOver old⟩⟩, none, 0⟩ x
        (.applying staged w .started 0) :=
    @Successor.Step.start pid _ _ _ _ ⟨staged, takingOver old⟩ rfl rfl .commit
  exact prepared.tail ⟨.other, calm _, .successor (started _ _)⟩

theorem runs_confirm (calm : ∀ s, allowed .other s) (sound : old.Sound)
    (ended : Fallible.exec (Listeners.stage desired) (takingOver old) = (.ok staged, w)) :
    Runs pid allowed (.new old)
      (.underWay old (receiptBytes pid ++ readyBytes) (.applying staged w .serving 0)) := by
  have whole : Phase.confirming readyBytes = .confirming (readyBytes ++ []) := by
    rw [List.append_nil]
  have confirming : Runs pid allowed (.new old) (.underWay old (receiptBytes pid)
      (.applying staged w (.confirming readyBytes) 0)) :=
    (runs_start calm sound ended).tail ⟨.other, calm _, .successor (.confirm rfl)⟩
  have confirmed : Runs pid allowed (.new old) (.underWay old (receiptBytes pid ++ readyBytes)
      (.applying staged w (.confirming []) 0)) :=
    confirming.tail ⟨.other, calm _, .successor (.confirming whole (by simp [readyBytes]) rfl)⟩
  exact confirmed.tail ⟨.other, calm _, .successor (.confirmed rfl)⟩

end Starting

end Walks

def serving : ListenerSet :=
  match Fallible.exec (Listeners.stage twoPorts) handedOver with
  | (.ok staged, w) => ⟨((Listeners.commit staged).run w).2, none⟩
  | (.error _, w) => ⟨w, none⟩

theorem reachable_serving : Reachable serving := by
  refine ⟨quietHost, rfl, ?_⟩
  unfold serving
  obtain ⟨staged, w, ended⟩ := stages_twoPorts
  rw [ended]
  exact (runs_handedOver.tail ⟨_, .staged ended⟩).tail ⟨_, .commit⟩

theorem stages_takingOver :
    ∃ staged w, Fallible.exec (Listeners.stage twoPorts) (takingOver serving) = (.ok staged, w) := by
  have got : (Fallible.exec (Listeners.stage twoPorts) (takingOver serving)).1.toOption.isSome =
      true := by
    decide +kernel
  generalize Fallible.exec (Listeners.stage twoPorts) (takingOver serving) = ended at got ⊢
  obtain ⟨result, w⟩ := ended
  cases result with
  | error error => cases got
  | ok staged => exact ⟨staged, w, rfl⟩

theorem sound_serving : serving.Sound := by
  obtain ⟨w, empty, run⟩ := reachable_serving
  exact ListenerSet.sound_of_runs empty run

end Upgrade

open Upgrade

/-- However an upgrade goes that nobody stops, an address that the node listens on
    and the config of its successor names is accepted on by one of them: the node
    stops once it has read `ready`, `ready` is said once the listeners of the
    successor are committed, and a node whose upgrade failed accepts as before. -/
theorem upgrade_leaves_no_address {pid : UInt32} {old : ListenerSet} (reachable : Reachable old)
    {s : State} (run : Runs pid Undisturbed (.new old) s) :
    (∀ address named, (s.old.listeners.running.lookup address).isSome = true →
      s.successor.applied = some named → address ∈ named →
        s.Accepts address ∨ s.successor.Accepts address) ∧
    (∀ why, s.main = .stopped why → ∃ successor, why = .replaced successor ∧
      s.wait = some (.ended (.ok successor)) ∧ Confirmed s.exchange.written) ∧
    (Confirmed s.exchange.written → s.successor.applied.isSome = true) ∧
    (∀ error, s.wait = some (.ended (.error error)) → ∀ address,
      (s.old.listeners.running.lookup address).isSome = true → s.Accepts address) ∧
    (∀ event s', Upgrade.Step pid event s s' →
      s'.old = s.old ∨ ∃ call, ListenerSet.Step call s.old s'.old) := by
  have sound := State.sound_of_runs reachable run
  have quiet := State.undisturbed_of_runs reachable run
  refine ⟨?_, ?_, sound.successor.said, ?_, ?_⟩
  · intro address named listening applied member
    by_cases stopped : ∃ why, s.main = .stopped why
    · obtain ⟨why, stopped⟩ := stopped
      obtain ⟨successor, _, ended⟩ := quiet.stopped sound stopped
      exact .inr (quiet.accepts sound ended applied member)
    · exact .inl ⟨fun why here => stopped ⟨why, here⟩, listening⟩
  · intro why stopped
    obtain ⟨successor, same, ended⟩ := quiet.stopped sound stopped
    have read := sound.read
    rw [ended] at read
    exact ⟨successor, same, ended, read⟩
  · intro error failed address listening
    refine ⟨fun why stopped => ?_, listening⟩
    obtain ⟨successor, _, ended⟩ := quiet.stopped sound stopped
    rw [ended] at failed
    cases failed
  · intro event s' step
    cases step with
    | reload _ step => exact .inr ⟨_, step⟩
    | _ => exact .inl rfl

/-- An upgrade that goes well: in the end the successor accepts where the node did. -/
theorem successor_accepts_after_upgrade :
    ∃ s : State, Runs 7 Undisturbed (.new serving) s ∧ s.main = .stopped (.replaced 7) ∧
      (s.old.listeners.running.lookup (Listener.loopback [] 80).socketAddr).isSome = true ∧
      s.successor.Accepts (Listener.loopback [] 80).socketAddr := by
  obtain ⟨staged, w, ended⟩ := stages_takingOver
  have calm : ∀ s, Undisturbed .other s := fun s => ⟨nofun, nofun⟩
  have said : Runs 7 Undisturbed (.new serving) _ := runs_confirm calm sound_serving ended
  generalize same : Successor.applying staged w .serving 0 = successor at said
  have read : Runs 7 Undisturbed (.underWay serving (receiptBytes 7 ++ readyBytes) successor) _ :=
    (runs_hearReceipt calm (.underWay serving (receiptBytes 7 ++ readyBytes) successor)
      readyBytes).trans (runs_hearReady calm _ 7)
  have heard := said.trans read
  have returned := heard.tail ⟨.other, calm _, .returns rfl rfl⟩
  have shut := returned.tail ⟨.other, calm _, .shut rfl⟩
  have stopped := shut.tail ⟨.other, calm _, .drain rfl⟩
  have listening : (serving.listeners.running.lookup
      (Listener.loopback [] 80).socketAddr).isSome = true := by
    decide +kernel
  have named : (Listener.loopback [] 80).socketAddr ∈ staged.desired.map Prod.fst := by
    rw [(stage_ok ended).1]
    decide
  have applied : successor.applied = some (staged.desired.map Prod.fst) := by
    rw [← same]
    rfl
  refine ⟨_, stopped, rfl, listening, ?_⟩
  cases (upgrade_leaves_no_address reachable_serving stopped).1 _ _ listening applied named with
  | inl old => exact absurd rfl (old.1 (.replaced 7))
  | inr new => exact new

/-! ## An upgrade that is dropped -/

namespace Upgrade

open Text Handover

variable {pid : UInt32} {event : Event} {s s' : State}

/-- An upgrade is dropped before the successor has said that it is ready. -/
def DroppedInTime (event : Event) (s : State) : Prop :=
  event = .abandon → ¬ Confirmed s.exchange.written

/-- The node leaves because it was asked to, and the upgrade is dropped. -/
def Main.Abandoned (main : Main) : Prop := main = .draining .abandoned ∨ main = .stopped .abandoned

/-- How far a successor is from the end of its start. -/
def Phase.toGo : Phase → Nat
  | .unborn => 7
  | .receiving => 6
  | .answering _ => 5
  | .starting => 4
  | .started => 3
  | .confirming _ => 2
  | .serving | .foreign => 1
  | .gone => 0

/-- How far the thread that waits is from its end, with this much to read. -/
def Wait.toGo (unread : Nat) : Wait → Nat
  | .receipt _ => 3 + unread
  | .confirmation _ _ => 2 + unread
  | .launching | .failing _ _ => 1
  | .ended _ => 0

def State.toGo (s : State) : Nat :=
  (s.wait.map (Wait.toGo s.exchange.unread.length)).getD 0 + s.successor.phase.toGo

/-- No step of either process, unless it fails, takes the wait or the start any further. -/
def State.AtRest (pid : UInt32) (s : State) : Prop :=
  ∀ event s', Upgrade.Step pid event s s' → event ≠ .die →
    s'.wait = s.wait ∧ s'.successor.phase = s.successor.phase ∧
      s'.successor.set.pending.isSome = s.successor.set.pending.isSome

/-- The process that is waited for, once it has said which one it is. -/
def Wait.known : Wait → Option UInt32
  | .confirmation pid _ | .failing pid _ => some pid
  | _ => none

theorem Successor.Step.silent
    (step : Successor.Step pid handed event x t x' t') (shut : x.shut = true) :
    x' = x := by
  cases step with
  | answer _ _ unshut => rw [shut] at unshut; cases unshut
  | confirming _ _ unshut => rw [shut] at unshut; cases unshut
  | babble _ _ unshut => rw [shut] at unshut; cases unshut
  | _ => rfl

theorem Wait.Step.flags {wait wait' : Wait}
    (step : Wait.Step event wait x t wait' x' t') :
    x'.shut = x.shut ∧ x'.abandoned = x.abandoned := by
  cases step <;> exact ⟨rfl, rfl⟩

theorem Successor.Step.abandoned
    (step : Successor.Step pid handed event x t x' t') :
    x'.abandoned = x.abandoned := by
  cases step <;> rfl

/-- An upgrade is dropped with the flag set, and what is dropped in time is shut before `ready`
    was said. -/
structure State.Silenced (s : State) : Prop where
  flagged : (∃ result, s.main = .leaving result) ∨ s.main.Abandoned → s.exchange.abandoned = true
  silent : s.main.Abandoned → s.exchange.shut = true ∧ ¬ Confirmed s.exchange.written

theorem State.Silenced.step (silenced : s.Silenced) (allowed : DroppedInTime event s)
    (step : Upgrade.Step pid event s s') : s'.Silenced := by
  cases step with
  | reload => exact ⟨silenced.flagged, silenced.silent⟩
  | wait here step =>
    obtain ⟨shut, abandoned⟩ := step.flags
    refine ⟨fun left => abandoned.trans (silenced.flagged left), fun left => ?_⟩
    rw [show _ = s.exchange.shut from shut, show _ = s.exchange.written from step.written]
    exact silenced.silent left
  | successor step =>
    refine ⟨fun left => step.abandoned.trans (silenced.flagged left), fun left => ?_⟩
    obtain ⟨shut, unsaid⟩ := silenced.silent left
    rw [show _ = s.exchange from step.silent shut]
    exact ⟨shut, unsaid⟩
  | @shut _ result _ =>
    cases result <;> constructor <;> simp [Main.Abandoned, Main.after]
  | abandon leaving =>
    exact ⟨fun _ => silenced.flagged (.inl ⟨none, leaving⟩), fun _ => ⟨rfl, allowed rfl⟩⟩
  | @drain _ why draining =>
    have before : Main.Abandoned (.stopped why) → s.main.Abandoned := by
      rintro (⟨⟨⟩⟩ | ⟨⟨⟩⟩)
      exact .inl draining
    exact ⟨fun left => silenced.flagged (.inr (before (by simpa using left))),
      fun left => silenced.silent (before left)⟩
  | _ => exact ⟨by simp [Main.Abandoned], by simp [Main.Abandoned]⟩

theorem State.silenced_of_runs {old : ListenerSet} (run : Runs pid DroppedInTime (.new old) s) :
    s.Silenced := by
  induction run with
  | refl => exact ⟨by simp [Main.Abandoned, State.new], by simp [Main.Abandoned, State.new]⟩
  | tail _ last ih =>
    obtain ⟨event, allowed, step⟩ := last
    exact ih.step allowed step

theorem Spoken.confirmed {phase : Phase} {written : Bytes} (spoken : Spoken pid phase written)
    (said : phase.Said) : Confirmed written := by
  have all : written = receiptBytes pid ++ readyBytes := by
    cases said with
    | inl serving => rw [serving] at spoken; exact spoken
    | inr none => rw [none] at spoken; exact (List.append_nil _).symm.trans spoken
  refine ⟨utf8 (receipt pid), [], newline_notMem_receipt pid, ?_⟩
  rw [all, receiptBytes, readyBytes, List.append_assoc]
  rfl

theorem Successor.Step.toGo
    (step : Successor.Step pid handed event x t x' t') (shut : x.shut = true) :
    t'.phase.toGo < t.phase.toGo ∨ t'.phase = t.phase := by
  cases step with
  | answer _ _ unshut => rw [shut] at unshut; cases unshut
  | confirming _ _ unshut => rw [shut] at unshut; cases unshut
  | refused phase => rcases phase with phase | phase <;> simp [phase, Phase.toGo]
  | die => cases t.phase <;> simp [Phase.toGo]
  | call => exact .inr rfl
  | reload => exact .inr rfl
  | accept => exact .inr rfl
  | close => exact .inr rfl
  | babble => exact .inr rfl
  | _ => simp [*, Phase.toGo]

theorem Wait.Step.toGo {wait wait' : Wait}
    (step : Wait.Step event wait x t wait' x' t') (shut : x.shut = true) :
    wait'.toGo x'.unread.length + t'.phase.toGo < wait.toGo x.unread.length + t.phase.toGo := by
  cases step with
  | send _ unshut => rw [shut] at unshut; cases unshut
  | kill => simp [Wait.toGo, Phase.toGo]
  | _ => simp [*, Wait.toGo, Phase.toGo] <;> omega

/-- The upgrade comes to its end: each step of the wait or of the start leaves less of it. -/
theorem State.toGo_step (left : s.main.Abandoned) (shut : s.exchange.shut = true)
    (step : Upgrade.Step pid event s s') : s'.main.Abandoned ∧ (s'.toGo < s.toGo ∨
      s'.wait = s.wait ∧ s'.successor.phase = s.successor.phase ∧ s'.toGo = s.toGo) := by
  cases step with
  | reload => exact ⟨left, .inr ⟨rfl, rfl, rfl⟩⟩
  | drain draining =>
    refine ⟨.inr ?_, .inr ⟨rfl, rfl, rfl⟩⟩
    obtain here | here := left
    · rw [draining] at here
      cases here
      rfl
    · rw [draining] at here
      cases here
  | wait here step =>
    refine ⟨left, .inl ?_⟩
    simpa [State.toGo, here] using step.toGo shut
  | successor step =>
    refine ⟨left, ?_⟩
    have same := step.silent shut
    subst same
    obtain less | same := step.toGo shut
    · exact .inl (Nat.add_lt_add_left less _)
    · exact .inr ⟨rfl, same, by simp [State.toGo, same]⟩
  | _ => simp_all [Main.Abandoned]

/-- A start that is shut out before `ready` was said is not over before the successor is gone. -/
theorem State.phase_of_atRest (rest : s.AtRest pid) (shut : s.exchange.shut = true)
    (silent : ¬ s.successor.phase.Said) :
    s.successor.phase = .gone ∨ s.successor.phase = .unborn ∨ s.successor.phase = .foreign := by
  have moves {x t} (step : Successor.Step pid s.handed .other s.exchange s.successor x t) :
      t.phase = s.successor.phase ∧ t.set.pending.isSome = s.successor.set.pending.isSome :=
    (rest .other _ (.successor step) nofun).2
  cases phase : s.successor.phase with
  | unborn => simp
  | gone => simp
  | foreign => simp
  | serving => exact absurd (.inl phase) silent
  | receiving =>
    cases sent : s.exchange.sent with
    | false => cases phase.symm.trans (moves (.unsent phase sent shut)).1.symm
    | true =>
      have bound : ∀ address socket, s.handed.lookup address = some socket →
          socket < (s.handed.entries.map Sigma.snd).sum + 1 := by
        intro address socket here
        have listed := List.mem_map_of_mem (f := Sigma.snd) (AList.mem_lookup_iff.mp here)
        exact Nat.lt_succ_of_le (List.single_le_sum (fun _ _ => Nat.zero_le _) _ listed)
      let w : World := ⟨{ s.old.world.host with
        nextSocket := (s.handed.entries.map Sigma.snd).sum + 1 }, { Node.new ∅ with
          listeners := { Listeners.empty with adopted := s.handed } }, .blank⟩
      cases phase.symm.trans (moves (.receive (w := w) phase sent rfl bound)).1.symm
  | answering left =>
    cases left with
    | nil => cases phase.symm.trans (moves (.answered phase)).1.symm
    | cons => cases phase.symm.trans (moves (.refused (.inl phase) (by simp) shut)).1.symm
  | confirming left =>
    cases left with
    | nil => exact absurd (.inr phase) silent
    | cons => cases phase.symm.trans (moves (.refused (.inr phase) (by simp) shut)).1.symm
  | started => cases phase.symm.trans (moves (.confirm phase)).1.symm
  | starting =>
    -- it stages a config, and then commits it
    cases same : s.successor.set with
    | mk w pending =>
      cases pending with
      | none =>
        obtain ⟨set, staged, ready⟩ : ∃ set, ListenerSet.Step (.stage []) s.successor.set set ∧
            set.pending.isSome = true := by
          rw [same]
          exact ⟨_, .staged rfl, rfl⟩
        have more := (moves (.call (by rw [phase]; rfl) (fun same => by cases same) staged)).2
        rw [same] at more
        cases ready.symm.trans more
      | some pending =>
        obtain ⟨set, commits⟩ : ∃ set, ListenerSet.Step .commit s.successor.set set := by
          rw [same]
          exact ⟨_, .commit⟩
        cases phase.symm.trans (moves (.start phase (by rw [same]) commits)).1.symm

/-- A wait that is over at rest is not over with a process id, and none goes on. -/
theorem State.wait_of_atRest (rest : s.AtRest pid) (flagged : s.exchange.abandoned = true)
    {wait : Wait} (here : s.wait = some wait) : ∃ result, wait = .ended result := by
  have moves {event wait' x t} (step : Wait.Step event wait s.exchange s.successor wait' x t)
      (alive : event ≠ .die) : wait' = wait :=
    Option.some.inj ((rest event _ (.wait here step) alive).1.trans here)
  cases wait with
  | launching => cases moves .notLaunched nofun
  | receipt => cases moves (.receiptFails .timedOut) nofun
  | confirmation => cases moves (.confirmationFails .timedOut) nofun
  | failing => cases moves (.kill (.inr flagged)) nofun
  | ended result => exact ⟨result, rfl⟩

end Upgrade

/-- While a node leaves because it was asked to, with an upgrade that it dropped in time: it has
    not taken the successor for one that is ready, and it is not. One that has said which process
    it is stays known as that until it is killed. Every step of the wait and of the start leaves
    less to do, and when none is left the wait is over and the successor is not at work. -/
theorem dropped_upgrade_leaves_no_successor {pid : UInt32} {old : ListenerSet}
    (reachable : Reachable old) {s : State} (run : Runs pid DroppedInTime (.new old) s)
    (left : s.main.Abandoned) :
    (∀ successor, s.wait ≠ some (.ended (.ok successor))) ∧ s.successor.phase ≠ .serving ∧
    (∀ wait known, s.wait = some wait → wait.known = some known → ∀ event wait' x t,
      Wait.Step event wait s.exchange s.successor wait' x t →
        wait'.known = some known ∨ (event = .kill ∧ t.phase = .gone)) ∧
    (∀ event s', Upgrade.Step pid event s s' → s'.main.Abandoned ∧ (s'.toGo < s.toGo ∨
      s'.wait = s.wait ∧ s'.successor.phase = s.successor.phase ∧ s'.toGo = s.toGo)) ∧
    (s.AtRest pid →
      (∀ wait, s.wait = some wait → ∃ error, wait = .ended (.error error)) ∧
      (s.successor.phase = .gone ∨ s.successor.phase = .unborn ∨ s.successor.phase = .foreign)) := by
  have sound := State.sound_of_runs reachable run
  have silenced := State.silenced_of_runs run
  have flagged := silenced.flagged (.inr left)
  obtain ⟨shut, unsaid⟩ := silenced.silent left
  have silent : ¬ s.successor.phase.Said := fun said => unsaid (sound.successor.spoken.confirmed said)
  have unreported {t : State} (sound : t.Sound pid) (unsaid : ¬ Confirmed t.exchange.written)
      (successor : UInt32) : t.wait ≠ some (.ended (.ok successor)) := by
    intro ended
    have read := sound.read
    rw [ended] at read
    exact unsaid read
  refine ⟨unreported sound unsaid, fun serving => silent (.inl serving), ?_,
    fun event s' step => State.toGo_step left shut step, fun rest => ⟨?_, ?_⟩⟩
  · intro wait known here same event wait' x t step
    have after := sound.step (.wait here step)
    have quiet := unreported after (by simpa [step.written] using unsaid)
    cases step with
    | readConfirmation => exact .inl same
    | confirmation => exact absurd rfl (quiet _)
    | noConfirmation => exact .inl same
    | confirmationFails => exact .inl same
    | spare _ unflagged =>
      rw [flagged] at unflagged
      cases unflagged
    | kill => exact .inr ⟨rfl, rfl⟩
    | _ => cases same
  · intro wait here
    obtain ⟨result, ended⟩ := State.wait_of_atRest rest flagged here
    cases result with
    | error error => exact ⟨error, ended⟩
    | ok successor => exact absurd (ended ▸ here) (unreported sound unsaid successor)
  · exact State.phase_of_atRest rest shut silent

/-- An upgrade that was dropped, of which the thread has read nothing yet. -/
def Upgrade.State.dropped (old : ListenerSet) (said : Bytes) (successor : Successor) : State :=
  { State.underWay old said successor with
    main := .draining .abandoned, exchange := ⟨true, true, true, said, said⟩ }

theorem Upgrade.runs_drop {pid : UInt32} {allowed : Event → State → Prop} {old : ListenerSet}
    {said : Bytes} {successor : Successor}
    (run : Runs pid allowed (.new old) (.underWay old said successor))
    (asked : ∀ s, allowed .stop s) (dropped : ∀ s, s.exchange.written = said → allowed .abandon s) :
    Runs pid allowed (.new old) (.dropped old said successor) :=
  (run.tail ⟨.stop, asked _, .drop rfl⟩).tail ⟨.abandon, dropped _ rfl, .abandon rfl⟩

/-- The successor has said which process it is when the upgrade is dropped, and is killed. -/
theorem told_successor_is_not_left :
    ∃ s : State, Runs 7 DroppedInTime (.new serving) s ∧ s.main.Abandoned ∧
      s.exchange.written = receiptBytes 7 ∧ s.AtRest 7 ∧
      (s.successor.phase = .gone ∨ s.successor.phase = .unborn ∨ s.successor.phase = .foreign) := by
  have calm : ∀ s, DroppedInTime .other s := fun s => nofun
  have unsaid : ¬ Confirmed (receiptBytes 7) := by
    intro confirmed
    have twice := two_le_count_of_confirmed confirmed
    rw [count_receiptBytes] at twice
    omega
  have dropped : Runs 7 DroppedInTime (.new serving) (.dropped serving (receiptBytes 7) _) :=
    runs_drop (runs_receive calm sound_serving) (fun _ => nofun) (fun s said _ => said ▸ unsaid)
  have heard := dropped.trans (runs_hearReceipt calm (.dropped serving (receiptBytes 7) _) [])
  have failed := heard.tail ⟨.other, calm _, .wait rfl (.confirmationFails (.wentAway ⟨rfl, .inl rfl⟩))⟩
  have killed := failed.tail ⟨.kill, nofun, .wait rfl (.kill (.inr rfl))⟩
  refine ⟨_, killed, .inl rfl, rfl, ?_⟩
  rw [and_iff_left_of_imp fun rest =>
    ((dropped_upgrade_leaves_no_successor reachable_serving killed (.inl rfl)).2.2.2.2 rest).2]
  intro event s' step alive
  cases step with
  | reload | drain => exact ⟨rfl, rfl, rfl⟩
  | wait here step => cases here; cases step
  | successor step => cases step <;> simp_all [Phase.hasSet]
  | _ => simp_all

/-- One that had said that it is ready goes on serving, and nobody is told. -/
theorem dropped_successor_serves :
    ∃ s : State, Runs 7 (fun _ _ => True) (.new serving) s ∧ s.main = .stopped .abandoned ∧
      s.wait = some (.ended (.ok 7)) ∧ s.successor.phase = .serving := by
  obtain ⟨staged, w, ended⟩ := stages_takingOver
  have dropped : Runs 7 (fun _ _ => True) (.new serving) (.dropped serving _ _) :=
    runs_drop (runs_confirm (fun _ => trivial) sound_serving ended) (fun _ => trivial)
      (fun _ _ => trivial)
  have read : Runs 7 (fun _ _ => True) (.dropped serving (receiptBytes 7 ++ readyBytes)
      (.applying staged w .serving 0)) _ :=
    (runs_hearReceipt (fun _ => trivial) (.dropped serving (receiptBytes 7 ++ readyBytes)
      (.applying staged w .serving 0)) readyBytes).trans (runs_hearReady (fun _ => trivial) _ 7)
  exact ⟨_, (dropped.trans read).tail ⟨.other, trivial, .drain rfl⟩, rfl, rfl, rfl⟩

/-! ## A successor that is killed -/

namespace Upgrade

/-- A successor is given up before its listeners are committed. -/
def GivenUpEarly (event : Event) (s : State) : Prop :=
  event = .kill → s.successor.applied = none

theorem broken_step {pid : UInt32} {event : Event} {s s' : State} (sound : s.Sound pid)
    (allowed : GivenUpEarly event s) (step : Upgrade.Step pid event s s') : s'.broken = s.broken := by
  cases step with
  | wait here step =>
    by_cases killed : event = .kill
    · have alone := (sound.successor.idle (allowed killed)).1
      simp [killed, alone]
    · simp [killed]
  | _ => rfl

end Upgrade

/-- Killing a successor whose listeners are not committed breaks no connection. -/
theorem early_kill_breaks_nothing {pid : UInt32} {old : ListenerSet} (reachable : Reachable old)
    {s : State} (run : Runs pid GivenUpEarly (.new old) s) : s.broken = 0 := by
  induction run with
  | refl => rfl
  | tail before last ih =>
    obtain ⟨event, allowed, step⟩ := last
    rw [broken_step (State.sound_of_runs reachable before) allowed step]
    exact ih

namespace Upgrade

/-- The successor says which process it is, does not say more in time, and is killed. -/
theorem runs_kill {pid : UInt32} {allowed : Event → State → Prop} (calm : ∀ s, allowed .other s)
    {old : ListenerSet} {successor : Successor}
    (run : Runs pid allowed (.new old) (.underWay old (receiptBytes pid) successor))
    (kills : ∀ s, s.successor = successor → allowed .kill s) :
    ∃ s, Runs pid allowed (.new old) s ∧ s.successor.phase = .gone ∧
      s.broken = successor.connections := by
  have read : Runs pid allowed (.underWay old (receiptBytes pid) successor)
      ((State.underWay old (receiptBytes pid) successor).hearing (.confirmation pid []) []) := by
    have all : Runs pid allowed _ _ :=
      runs_hearReceipt calm (.underWay old (receiptBytes pid) successor) []
    rw [List.append_nil] at all
    exact all
  have late := (run.trans read).tail ⟨.other, calm _, .wait rfl (.confirmationFails .timedOut)⟩
  exact ⟨_, late.tail ⟨.kill, kills _ rfl, .wait rfl (.kill (.inl rfl))⟩, rfl, Nat.zero_add _⟩

end Upgrade

/-- The successor does not get to apply its config. -/
theorem slow_successor_is_killed :
    ∃ s : State, Runs 7 GivenUpEarly (.new serving) s ∧ s.successor.phase = .gone ∧ s.broken = 0 := by
  have calm : ∀ s, GivenUpEarly .other s := fun s => nofun
  have received : Runs 7 GivenUpEarly (.new serving) _ := runs_receive calm sound_serving
  obtain ⟨s, run, gone, _⟩ := runs_kill calm received (fun s same _ => by rw [same])
  exact ⟨s, run, gone, early_kill_breaks_nothing reachable_serving run⟩

/-- It accepts a connection before it has said that it is ready, and is killed. -/
theorem killed_successor_breaks_connection :
    ∃ s : State, Runs 7 (fun _ _ => True) (.new serving) s ∧ s.successor.phase = .gone ∧
      s.broken = 1 := by
  obtain ⟨staged, w, ended⟩ := stages_takingOver
  have started : Runs 7 (fun _ _ => True) (.new serving) _ :=
    runs_start (fun _ => trivial) sound_serving ended
  have sound := (State.sound_of_runs reachable_serving started).successor
  have listening := (sound.named _ rfl (Listener.loopback [] 80).socketAddr).mpr (by
    rw [(stage_ok ended).1]
    decide)
  have accepted : Runs 7 (fun _ _ => True) (.new serving)
      (.underWay serving (receiptBytes 7) (.applying staged w .started 1)) :=
    started.tail ⟨.other, trivial, .successor (.accept rfl listening)⟩
  exact runs_kill (fun _ => trivial) accepted (fun _ _ => trivial)

end Gfe
