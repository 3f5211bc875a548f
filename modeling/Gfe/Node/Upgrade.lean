import Gfe.Listen.Handover
import Gfe.Listen.Reconcile

/-! # Replacing a running node

A node that is told to upgrade starts a successor on a thread of its own, gives it
the listening sockets over a Unix socket and waits for two lines: which process has
them, and that it accepts connections. Then it stops accepting. The two processes
take their steps in any order; the successor may fail at any point, the wait may
time out at any point, and a request to stop may drop the upgrade at any point.
-/

namespace Gfe

namespace Upgrade

open Text Handover Interleaving

variable {x x' : Exchange} {event : Event}

/-! ## What is said -/

def newline : UInt8 := 10

/-- What the successor writes when it has the sockets. -/
def receiptBytes (pid : UInt32) : Bytes := utf8 (receipt pid) ++ [newline]

def ready : Bytes := utf8 "ready".toList

/-- What it writes once it accepts connections. -/
def readyBytes : Bytes := ready ++ [newline]

/-- `await_receipt`: the process that a line names. -/
def parseReceipt (line : Bytes) : Option UInt32 := do
  let text ← fromUtf8 line
  let pid ← stripStart text "received".toList
  let pid ← parseUnsigned UInt32.size (trim pid)
  return UInt32.ofNat pid

/-! ## The two processes -/

inductive WaitError where
  | notStarted
  | timedOut
  /-- The other end is closed, or shut. -/
  | wentAway
  | malformed
  | io
  deriving DecidableEq

/-- Where the thread is that starts the successor and waits for it. -/
inductive Wait where
  | launching
  /-- What was read of the line at hand. -/
  | receipt (line : Bytes)
  | confirmation (pid : UInt32) (line : Bytes)
  /-- The confirmation failed, and whether to kill the successor is decided next. -/
  | failing (pid : UInt32) (error : WaitError)
  | ended (result : Except WaitError UInt32)

/-- Why a node leaves. -/
inductive Leave where
  | asked
  /-- It was asked while an upgrade was under way, which was dropped. -/
  | abandoned
  | replaced (successor : UInt32)

/-- Where the predecessor is. -/
inductive Main where
  | serving
  | upgrading
  /-- `hand_over` is over, with a result or because it was dropped, and is about to
      shut the channel. -/
  | leaving (result : Option (Except WaitError UInt32))
  | draining (why : Leave)
  /-- It accepts no more. -/
  | stopped (why : Leave)

/-- Where the successor is. -/
inductive Phase where
  | unborn
  | receiving
  /-- What is left to write of the receipt. -/
  | answering (rest : Bytes)
  | starting
  /-- Its listeners are committed. -/
  | started
  | confirming (rest : Bytes)
  | serving
  | gone
  /-- Whatever was started is no node. -/
  | foreign

/-- Whether it has listeners of its own. -/
def Phase.hasSet : Phase → Bool
  | .answering _ | .starting | .started | .confirming _ | .serving => true
  | _ => false

structure Successor where
  phase : Phase
  set : ListenerSet
  /-- The addresses of the config that is applied. -/
  applied : Option (List SocketAddr)
  /-- The client connections it has accepted and not closed. -/
  connections : Nat

/-- The channel between the two. -/
structure Exchange where
  sent : Bool
  abandoned : Bool
  shut : Bool
  /-- All the successor has written, and what of it is not read yet. -/
  written : Bytes
  unread : Bytes

structure State where
  main : Main
  old : ListenerSet
  /-- The sockets that are handed over. -/
  handed : HashMap SocketAddr SocketId
  wait : Option Wait
  exchange : Exchange
  successor : Successor
  /-- Counts the connections that were broken by killing the successor. -/
  broken : Nat

/-- A node that was not told to upgrade yet. -/
def State.new (old : ListenerSet) : State where
  main := .serving
  old := old
  handed := ∅
  wait := none
  exchange := ⟨false, false, false, [], []⟩
  successor := ⟨.unborn, old, none, 0⟩
  broken := 0

/-- The second line of what was said is `ready`. -/
def Confirmed (written : Bytes) : Prop :=
  ∃ first rest, newline ∉ first ∧ written = first ++ newline :: (ready ++ newline :: rest)

def Exchange.say (exchange : Exchange) (bytes : Bytes) : Exchange :=
  { exchange with written := exchange.written ++ bytes, unread := exchange.unread ++ bytes }

/-! ## Steps -/

inductive Event where
  | other
  /-- The predecessor is asked to stop. -/
  | stop
  /-- The channel is shut because the upgrade was dropped. -/
  | abandon
  | kill
  /-- The successor fails. -/
  | die
  deriving DecidableEq

inductive Successor.Step (pid : UInt32) (handed : HashMap SocketAddr SocketId) :
    Event → Exchange → Successor → Exchange → Successor → Prop where
  | receive {x s} {w : World} : s.phase = .receiving → x.sent = true →
      w.node.listeners = { Listeners.empty with adopted := handed } →
      (∀ address socket, handed.lookup address = some socket → socket < w.host.nextSocket) →
      Step pid handed .other x s x
        { s with phase := .answering (receiptBytes pid), set := ⟨w, none⟩ }
  | answer {x s front back} : s.phase = .answering (front ++ back) → front ≠ [] →
      x.shut = false → Step pid handed .other x s (x.say front) { s with phase := .answering back }
  | answered {x s} : s.phase = .answering [] → Step pid handed .other x s x
      { s with phase := .starting }
  /-- Staging, adopting and the like, when it starts and when it reloads. -/
  | call {x s call set} : s.phase.hasSet = true → call ≠ .commit →
      ListenerSet.Step call s.set set → Step pid handed .other x s x { s with set := set }
  /-- The first config is applied. -/
  | start {x s set pending} : s.phase = .starting → s.set.pending = some pending →
      ListenerSet.Step .commit s.set set → Step pid handed .other x s x { s with
        phase := .started, set := set, applied := some (pending.staged.desired.map Prod.fst) }
  | reload {x s set pending} : s.applied.isSome = true → s.phase.hasSet = true →
      s.set.pending = some pending →
      ListenerSet.Step .commit s.set set → Step pid handed .other x s x { s with
        set := set, applied := some (pending.staged.desired.map Prod.fst) }
  | confirm {x s} : s.phase = .started → Step pid handed .other x s x
      { s with phase := .confirming readyBytes }
  | confirming {x s front back} : s.phase = .confirming (front ++ back) → front ≠ [] →
      x.shut = false →
      Step pid handed .other x s (x.say front) { s with phase := .confirming back }
  | confirmed {x s} : s.phase = .confirming [] → Step pid handed .other x s x
      { s with phase := .serving }
  /-- It cannot report, and exits. -/
  | refused {x s rest} : s.phase = .answering rest ∨ s.phase = .confirming rest → rest ≠ [] →
      x.shut = true → Step pid handed .other x s x { s with phase := .gone, connections := 0 }
  /-- Nothing was sent to it, and nothing will be. -/
  | unsent {x s} : s.phase = .receiving → x.sent = false → x.shut = true →
      Step pid handed .other x s x { s with phase := .gone, connections := 0 }
  | die {x s} : s.phase ≠ .unborn →
      Step pid handed .die x s x { s with phase := .gone, connections := 0 }
  | accept {x s address} : s.phase.hasSet = true →
      (s.set.listeners.running.lookup address).isSome = true →
      Step pid handed .other x s x { s with connections := s.connections + 1 }
  | close {x s n} : s.connections = n + 1 → Step pid handed .other x s x { s with connections := n }
  /-- What is no node says anything but that it is ready. -/
  | babble {x s bytes} : s.phase = .foreign → ¬ Confirmed (x.written ++ bytes) →
      x.shut = false → Step pid handed .other x s (x.say bytes) s

/-- The other end is gone, and everything it said is read. -/
def Exchange.Ended (x : Exchange) (phase : Phase) : Prop :=
  x.unread = [] ∧ (x.shut = true ∨ phase = .gone)

inductive Fails (x : Exchange) (phase : Phase) : WaitError → Prop where
  | timedOut : Fails x phase .timedOut
  | wentAway : x.Ended phase → Fails x phase .wentAway
  | io : Fails x phase .io

inductive Wait.Step : Event → Wait → Exchange → Successor → Wait → Exchange → Successor → Prop where
  | spawn {x s} : s.phase = .unborn → Step .other .launching x s .launching x
      { s with phase := .receiving }
  | spawnForeign {x s} : s.phase = .unborn → Step .other .launching x s .launching x
      { s with phase := .foreign }
  | notLaunched {x s} : Step .other .launching x s (.ended (.error .notStarted)) x s
  | send {x s} : s.phase ≠ .unborn → x.shut = false →
      Step .other .launching x s (.receipt []) { x with sent := true } s
  | notSent {x s} : s.phase ≠ .unborn → Step .other .launching x s (.ended (.error .io)) x s
  | readReceipt {x s line byte unread} : x.unread = byte :: unread → byte ≠ newline →
      Step .other (.receipt line) x s (.receipt (line ++ [byte])) { x with unread := unread } s
  | receipt {x s line pid unread} : x.unread = newline :: unread → parseReceipt line = some pid →
      Step .other (.receipt line) x s (.confirmation pid []) { x with unread := unread } s
  | noReceipt {x s line unread} : x.unread = newline :: unread → parseReceipt line = none →
      Step .other (.receipt line) x s (.ended (.error .malformed)) { x with unread := unread } s
  | receiptFails {x s line error} : Fails x s.phase error →
      Step .other (.receipt line) x s (.ended (.error error)) x s
  | readConfirmation {x s pid line byte unread} : x.unread = byte :: unread → byte ≠ newline →
      Step .other (.confirmation pid line) x s (.confirmation pid (line ++ [byte]))
        { x with unread := unread } s
  | confirmation {x s pid unread} : x.unread = newline :: unread →
      Step .other (.confirmation pid ready) x s (.ended (.ok pid)) { x with unread := unread } s
  | noConfirmation {x s pid line unread} : x.unread = newline :: unread → line ≠ ready →
      Step .other (.confirmation pid line) x s (.failing pid .malformed)
        { x with unread := unread } s
  | confirmationFails {x s pid line error} : Fails x s.phase error →
      Step .other (.confirmation pid line) x s (.failing pid error) x s
  | spare {x s pid error} : error ≠ .timedOut → x.abandoned = false →
      Step .other (.failing pid error) x s (.ended (.error error)) x s
  | kill {x s pid error} : error = .timedOut ∨ x.abandoned = true →
      Step .kill (.failing pid error) x s (.ended (.error error)) x
        { s with phase := .gone, connections := 0 }

/-- What `hand_over` comes to for the node, once the channel is shut. -/
def Main.after : Except WaitError UInt32 → Main
  | .ok successor => .draining (.replaced successor)
  | .error _ => .serving

inductive Step (pid : UInt32) : Event → State → State → Prop where
  | reload {s call old} : (∀ why, s.main ≠ .stopped why) → ListenerSet.Step call s.old old →
      Step pid .other s { s with old := old }
  | upgrade {s} : s.main = .serving → s.wait = none →
      Step pid .other s { s with
        main := .upgrading
        handed := s.old.listeners.running.mapValues RunningListener.socket
        wait := some .launching }
  | wait {s event wait wait' exchange successor} : s.wait = some wait →
      Wait.Step event wait s.exchange s.successor wait' exchange successor →
      Step pid event s { s with
        wait := some wait'
        exchange := exchange
        successor := successor
        broken := if event = .kill then s.broken + s.successor.connections else s.broken }
  | successor {s event exchange successor} :
      Successor.Step pid s.handed event s.exchange s.successor exchange successor →
      Step pid event s { s with exchange := exchange, successor := successor }
  | returns {s result} : s.main = .upgrading → s.wait = some (.ended result) →
      Step pid .other s { s with
        main := .leaving (some result), exchange := { s.exchange with abandoned := true } }
  | drop {s} : s.main = .upgrading → Step pid .stop s { s with
      main := .leaving none, exchange := { s.exchange with abandoned := true } }
  | shut {s result} : s.main = .leaving (some result) → Step pid .other s { s with
      main := .after result, exchange := { s.exchange with shut := true } }
  | abandon {s} : s.main = .leaving none → Step pid .abandon s { s with
      main := .draining .abandoned, exchange := { s.exchange with shut := true } }
  | stop {s} : s.main = .serving → Step pid .stop s { s with main := .draining .asked }
  | drain {s why} : s.main = .draining why → Step pid .other s { s with main := .stopped why }

/-! ## What is said, and when -/

/-- What a successor has written in each phase. -/
def Spoken (pid : UInt32) : Phase → Bytes → Prop
  | .unborn, written | .receiving, written => written = []
  | .answering rest, written => written ++ rest = receiptBytes pid
  | .starting, written | .started, written => written = receiptBytes pid
  | .confirming rest, written => written ++ rest = receiptBytes pid ++ readyBytes
  | .serving, written => written = receiptBytes pid ++ readyBytes
  | .foreign, written => ¬ Confirmed written
  | .gone, _ => True

/-- It has written all of `ready`. -/
def Phase.Said (phase : Phase) : Prop := phase = .serving ∨ phase = .confirming []

theorem two_le_count_of_confirmed {written : Bytes} (confirmed : Confirmed written) :
    2 ≤ written.count newline := by
  obtain ⟨first, rest, _, same⟩ := confirmed
  rw [same]
  simp only [List.count_append, List.count_cons_self]
  omega

theorem newline_notMem_receipt (pid : UInt32) : newline ∉ utf8 (receipt pid) := by
  apply newline_notMem_utf8
  have word : '\n' ∉ "received ".toList := by decide +kernel
  intro member
  cases List.mem_append.mp member with
  | inl front => exact word front
  | inr digits => exact (onOneLine_toDigits 10 pid.toNat).1 digits

theorem count_receiptBytes (pid : UInt32) : (receiptBytes pid).count newline = 1 := by
  rw [receiptBytes, List.count_append, List.count_eq_zero_of_not_mem (newline_notMem_receipt pid)]
  rfl

theorem count_readyBytes : readyBytes.count newline = 1 := by decide +kernel

theorem Spoken.not_confirmed {pid : UInt32} {phase : Phase} {written : Bytes}
    (spoken : Spoken pid phase written) (alive : phase ≠ .gone) (silent : ¬ phase.Said) :
    ¬ Confirmed written := by
  intro confirmed
  have twice := two_le_count_of_confirmed confirmed
  have once := count_receiptBytes pid
  cases phase with
  | unborn | receiving => simp [show written = [] from spoken] at twice
  | answering rest =>
    have all := congrArg (List.count newline) (show written ++ rest = receiptBytes pid from spoken)
    rw [List.count_append] at all
    omega
  | starting | started =>
    rw [show written = receiptBytes pid from spoken] at twice
    omega
  | confirming rest =>
    have whole : written ++ rest = receiptBytes pid ++ readyBytes := spoken
    have all := congrArg (List.count newline) whole
    rw [List.count_append, List.count_append, once, count_readyBytes] at all
    -- the line break comes last, so it is in what is left
    have left : rest ≠ [] := fun none => silent (.inr (by rw [none]))
    have last : newline ∈ rest := by
      have ends := congrArg List.getLast? whole
      rw [readyBytes, ← List.append_assoc, List.getLast?_append_of_ne_nil _ left,
        List.getLast?_concat] at ends
      exact List.mem_of_getLast? ends
    have more := List.count_pos_iff.mpr last
    omega
  | serving => exact silent (.inl rfl)
  | gone => exact alive rfl
  | foreign => exact spoken confirmed

/-! ## The successor -/

/-- Whether it is on the way to its first config. -/
def Phase.early : Phase → Bool
  | .unborn | .receiving | .answering _ | .starting | .foreign => true
  | _ => false

/-- Whether its first config is applied. -/
def Phase.late : Phase → Bool
  | .started | .confirming _ | .serving => true
  | _ => false

/-- What holds of a successor at any time. -/
structure Successor.Sound (pid : UInt32) (x : Exchange) (s : Successor) : Prop where
  set : s.phase.hasSet = true → s.set.Sound
  idle : s.applied = none → s.connections = 0 ∧
    (s.phase.hasSet = true → s.set.listeners.running = ∅)
  named : ∀ named, s.applied = some named → ∀ address,
    (s.set.listeners.running.lookup address).isSome = true ↔ address ∈ named
  early : s.phase.early = true → s.applied = none
  late : s.phase.late = true → s.applied.isSome = true
  spoken : Spoken pid s.phase x.written
  said : Confirmed x.written → s.applied.isSome = true

namespace Successor.Sound

variable {pid : UInt32} {handed : HashMap SocketAddr SocketId} {x x' : Exchange} {s s' : Successor}

theorem heard (sound : s.Sound pid x) (same : x'.written = x.written) : s.Sound pid x' := by
  refine ⟨sound.set, sound.idle, sound.named, sound.early, sound.late, ?_, ?_⟩
  · rw [same]
    exact sound.spoken
  · rw [same]
    exact sound.said

theorem go (sound : s.Sound pid x) : Successor.Sound pid x { s with phase := .gone, connections := 0 } :=
  ⟨nofun, fun _ => ⟨rfl, nofun⟩, sound.named, nofun, nofun, True.intro, sound.said⟩

theorem pass (sound : s.Sound pid x) {phase : Phase} (same : phase.hasSet = s.phase.hasSet)
    (early : phase.early = true → s.phase.early = true)
    (late : phase.late = true → s.phase.late = true) (spoken : Spoken pid phase x'.written)
    (said : Confirmed x'.written → s.applied.isSome = true) :
    Successor.Sound pid x' { s with phase := phase } := by
  refine ⟨?_, ?_, sound.named, fun here => sound.early (early here),
    fun here => sound.late (late here), spoken, said⟩
  · intro has
    exact sound.set (same ▸ has)
  · intro none
    obtain ⟨alone, idle⟩ := sound.idle none
    exact ⟨alone, fun has => idle (same ▸ has)⟩

theorem receive (sound : s.Sound pid x) {w : World} (receiving : s.phase = .receiving)
    (distinct : ∀ a b socket, handed.lookup a = some socket → handed.lookup b = some socket → a = b)
    (adopted : w.node.listeners = { Listeners.empty with adopted := handed })
    (known : ∀ address socket, handed.lookup address = some socket → socket < w.host.nextSocket) :
    Successor.Sound pid x { s with phase := .answering (receiptBytes pid), set := ⟨w, none⟩ } := by
  have unapplied : s.applied = none := sound.early (by rw [receiving]; rfl)
  have silent : x.written = [] := by
    have spoken := sound.spoken
    rw [receiving] at spoken
    exact spoken
  refine ⟨fun _ => ?_, fun _ => ⟨(sound.idle unapplied).1, fun _ => ?_⟩, ?_, fun _ => unapplied, nofun,
    ?_, sound.said⟩
  · apply ListenerSet.sound_idle
    rw [adopted]
    constructor
    · intro p q socket here there
      cases p with
      | running address => simp [Listeners.sockets, Listeners.socketAt, Listeners.empty] at here
      | staged address => simp [Listeners.sockets] at here
      | adopted address =>
        cases q with
        | running address => simp [Listeners.sockets, Listeners.socketAt, Listeners.empty] at there
        | staged address => simp [Listeners.sockets] at there
        | adopted address' => rw [distinct address address' socket here there]
    · intro p socket here
      cases p with
      | running address => simp [Listeners.sockets, Listeners.socketAt, Listeners.empty] at here
      | staged address => simp [Listeners.sockets] at here
      | adopted address => exact known address socket here
  · simp only [ListenerSet.listeners, adopted]
    rfl
  · intro named applied
    rw [unapplied] at applied
    cases applied
  · simp [Spoken, silent]

theorem commit (sound : s.Sound pid x) {set : ListenerSet} {pending : Pending} {phase : Phase}
    (has : s.phase.hasSet = true) (staged : s.set.pending = some pending)
    (step : ListenerSet.Step .commit s.set set) (late : phase.early = false)
    (spoken : Spoken pid phase x.written) :
    Successor.Sound pid x { s with
      phase := phase, set := set, applied := some (pending.staged.desired.map Prod.fst) } := by
  have before := sound.set has
  refine ⟨fun _ => before.step step, nofun, ?_, ?_, fun _ => rfl, spoken, fun _ => rfl⟩
  · intro named same
    cases same
    generalize s.set = was at before staged step
    cases step with
    | commit =>
      cases staged
      exact before.committed.listening
  · intro early
    rw [late] at early
    cases early

theorem call (sound : s.Sound pid x) {set : ListenerSet} {call : ListenerSet.Call}
    (has : s.phase.hasSet = true) (other : call ≠ .commit) (step : ListenerSet.Step call s.set set) :
    Successor.Sound pid x { s with set := set } := by
  have same : set.listeners.running = s.set.listeners.running := (ListenerSet.listening_step step other).1
  refine ⟨fun _ => (sound.set has).step step, ?_, ?_, sound.early, sound.late, sound.spoken, sound.said⟩
  · intro unapplied
    obtain ⟨alone, idle⟩ := sound.idle unapplied
    exact ⟨alone, fun has => same.trans (idle has)⟩
  · intro named applied address
    rw [same]
    exact sound.named named applied address

theorem step (sound : s.Sound pid x)
    (distinct : ∀ a b socket, handed.lookup a = some socket → handed.lookup b = some socket → a = b)
    (step : Successor.Step pid handed event x s x' s') : s'.Sound pid x' := by
  have spoken := sound.spoken
  cases step with
  | receive receiving _ adopted known => exact sound.receive receiving distinct adopted known
  | @answer _ _ front back phase _ _ =>
    rw [phase] at spoken
    have after : Spoken pid (.answering back) (x.written ++ front) :=
      (List.append_assoc ..).trans spoken
    apply sound.pass (by rw [phase]; rfl) (fun _ => by rw [phase]; rfl) (fun late => by cases late) after
    intro confirmed
    exact absurd confirmed (after.not_confirmed nofun (by simp [Phase.Said]))
  | answered phase =>
    rw [phase] at spoken
    exact sound.pass (by rw [phase]; rfl) (fun _ => by rw [phase]; rfl) (fun late => by cases late)
      ((List.append_nil _).symm.trans spoken) sound.said
  | call has other step => exact sound.call has other step
  | start phase staged step =>
    rw [phase] at spoken
    exact sound.commit (by rw [phase]; rfl) staged step rfl spoken
  | reload applied has staged step =>
    apply sound.commit has staged step _ spoken
    cases early : s.phase.early with
    | false => rfl
    | true => rw [sound.early early] at applied; cases applied
  | confirm phase =>
    rw [phase] at spoken
    exact sound.pass (by rw [phase]; rfl) nofun (fun _ => by rw [phase]; rfl)
      (congrArg (· ++ readyBytes) spoken) sound.said
  | @confirming _ _ front back phase _ _ =>
    rw [phase] at spoken
    exact sound.pass (by rw [phase]; rfl) nofun (fun _ => by rw [phase]; rfl)
      ((List.append_assoc ..).trans spoken) (fun _ => sound.late (by rw [phase]; rfl))
  | confirmed phase =>
    rw [phase] at spoken
    exact sound.pass (by rw [phase]; rfl) nofun (fun _ => by rw [phase]; rfl)
      ((List.append_nil _).symm.trans spoken) sound.said
  | refused => exact sound.go
  | unsent => exact sound.go
  | die => exact sound.go
  | accept has listening =>
    refine ⟨sound.set, ?_, sound.named, sound.early, sound.late, spoken, sound.said⟩
    intro unapplied
    rw [(sound.idle unapplied).2 has] at listening
    cases listening
  | close some =>
    refine ⟨sound.set, ?_, sound.named, sound.early, sound.late, spoken, sound.said⟩
    intro unapplied
    rw [(sound.idle unapplied).1] at some
    cases some
  | babble phase silent _ =>
    refine ⟨sound.set, sound.idle, sound.named, sound.early, sound.late, ?_,
      fun confirmed => absurd confirmed silent⟩
    rw [phase]
    exact silent

end Successor.Sound

/-! ## The thread that waits -/

theorem Confirmed.append {written : Bytes} (confirmed : Confirmed written) (more : Bytes) :
    Confirmed (written ++ more) := by
  obtain ⟨first, rest, oneLine, same⟩ := confirmed
  exact ⟨first, rest ++ more, oneLine, by simp [same]⟩

/-- What was read, at any time: the lines so far are those that were written. -/
def Read (x : Exchange) : Option Wait → Prop
  | none | some .launching => x.written = x.unread
  | some (.receipt line) => newline ∉ line ∧ x.written = line ++ x.unread
  | some (.confirmation _ line) => ∃ first, newline ∉ first ∧ newline ∉ line ∧
      x.written = first ++ newline :: (line ++ x.unread)
  | some (.ended (.ok _)) => Confirmed x.written
  | some (.failing ..) | some (.ended (.error _)) => True

theorem Read.say {x : Exchange} {wait : Option Wait} (read : Read x wait) (bytes : Bytes) :
    Read (x.say bytes) wait := by
  cases wait with
  | none => exact congrArg (· ++ bytes) read
  | some wait =>
    cases wait with
    | launching => exact congrArg (· ++ bytes) read
    | receipt line =>
      obtain ⟨oneLine, same⟩ := read
      exact ⟨oneLine, by simp [Exchange.say, same]⟩
    | confirmation successor line =>
      obtain ⟨first, oneLine, oneLine', same⟩ := read
      exact ⟨first, oneLine, oneLine', by simp [Exchange.say, same]⟩
    | failing successor error => trivial
    | ended result =>
      cases result with
      | error error => trivial
      | ok successor => exact Confirmed.append read bytes

theorem Read.flags {wait : Option Wait} (read : Read x wait)
    (written : x'.written = x.written) (unread : x'.unread = x.unread) : Read x' wait := by
  unfold Read
  rw [written, unread]
  exact read

theorem newline_notMem_concat {line : Bytes} {byte : UInt8} (oneLine : newline ∉ line)
    (plain : byte ≠ newline) : newline ∉ line ++ [byte] := by
  simp [oneLine, plain.symm]

theorem Read.step {wait wait' : Wait} {s s' : Successor}
    (read : Read x (some wait)) (step : Wait.Step event wait x s wait' x' s') :
    Read x' (some wait') := by
  cases step with
  | spawn => exact read
  | spawnForeign => exact read
  | send => exact ⟨List.not_mem_nil, read⟩
  | readReceipt unread plain =>
    obtain ⟨oneLine, same⟩ := read
    exact ⟨newline_notMem_concat oneLine plain, by simp [same, unread]⟩
  | receipt unread _ =>
    obtain ⟨oneLine, same⟩ := read
    exact ⟨_, oneLine, List.not_mem_nil, by simp [same, unread]⟩
  | readConfirmation unread plain =>
    obtain ⟨first, oneLine, oneLine', same⟩ := read
    exact ⟨first, oneLine, newline_notMem_concat oneLine' plain, by simp [same, unread]⟩
  | confirmation unread =>
    obtain ⟨first, oneLine, _, same⟩ := read
    exact ⟨first, _, oneLine, by rw [same, unread]⟩
  | _ => trivial

theorem Wait.Step.written {wait wait' : Wait} {s s' : Successor}
    (step : Wait.Step event wait x s wait' x' s') : x'.written = x.written := by
  cases step <;> rfl

theorem Wait.Step.successor {wait wait' : Wait} {s s' : Successor}
    (step : Wait.Step event wait x s wait' x' s') :
    s' = s ∧ event = .other ∨
    s.phase = .unborn ∧ event = .other ∧
      (s' = { s with phase := .receiving } ∨ s' = { s with phase := .foreign }) ∨
    event = .kill ∧ s' = { s with phase := .gone, connections := 0 } ∧
      ∃ error, wait' = .ended (.error error) := by
  cases step with
  | spawn unborn => exact .inr (.inl ⟨unborn, rfl, .inl rfl⟩)
  | spawnForeign unborn => exact .inr (.inl ⟨unborn, rfl, .inr rfl⟩)
  | kill => exact .inr (.inr ⟨rfl, rfl, _, rfl⟩)
  | _ => exact .inl ⟨rfl, rfl⟩

/-- What was read is all of what was said, or a part of it. -/
theorem Successor.Step.read {pid : UInt32} {handed : HashMap SocketAddr SocketId}
    {s s' : Successor} {wait : Option Wait} (read : Read x wait)
    (step : Successor.Step pid handed event x s x' s') : Read x' wait := by
  cases step with
  | answer => exact read.say _
  | confirming => exact read.say _
  | babble => exact read.say _
  | _ => exact read

/-! ## Both -/

/-- What the node makes of an upgrade is what came of waiting for it. -/
def Main.Reported (wait : Option Wait) : Main → Prop
  | .leaving (some result) => wait = some (.ended result)
  | .draining (.replaced successor) | .stopped (.replaced successor) =>
    wait = some (.ended (.ok successor))
  | _ => True

/-- What holds at any time. -/
structure State.Sound (pid : UInt32) (s : State) : Prop where
  old : s.old.Sound
  distinct : ∀ a b socket, s.handed.lookup a = some socket → s.handed.lookup b = some socket → a = b
  successor : s.successor.Sound pid s.exchange
  read : Read s.exchange s.wait
  reported : s.main.Reported s.wait

variable {pid : UInt32} {event : Event} {s s' : State}

theorem sound_new (pid : UInt32) {old : ListenerSet} (sound : old.Sound) :
    State.Sound pid (.new old) := by
  refine ⟨sound, nofun, ⟨nofun, fun _ => ⟨rfl, nofun⟩, nofun, fun _ => rfl, nofun, rfl, ?_⟩, rfl, trivial⟩
  intro confirmed
  have twice := two_le_count_of_confirmed confirmed
  cases twice

theorem apart_of_sound {old : ListenerSet} (sound : old.Sound) (a b : SocketAddr) (socket : SocketId)
    (here : (old.listeners.running.mapValues RunningListener.socket).lookup a = some socket)
    (there : (old.listeners.running.mapValues RunningListener.socket).lookup b = some socket) :
    a = b := by
  rw [HashMap.lookup_mapValues] at here there
  have same := sound.custody.apart (.running a) (.running b) socket here there
  cases same
  rfl

theorem Main.Reported.step {main : Main} {wait wait' : Wait} {t t' : Successor}
    (reported : main.Reported (some wait)) (step : Wait.Step event wait x t wait' x' t') :
    main.Reported (some wait') := by
  have going : ∀ result, some wait ≠ some (.ended result) := by
    intro result ended
    cases ended
    cases step
  cases main with
  | serving => trivial
  | upgrading => trivial
  | leaving result =>
    cases result with
    | none => trivial
    | some result => exact absurd reported (going _)
  | draining why =>
    cases why with
    | replaced successor => exact absurd reported (going _)
    | _ => trivial
  | stopped why =>
    cases why with
    | replaced successor => exact absurd reported (going _)
    | _ => trivial

theorem Main.reported_after {result : Except WaitError UInt32} {wait : Option Wait}
    (reported : (Main.leaving (some result)).Reported wait) : (Main.after result).Reported wait := by
  cases result with
  | error error => trivial
  | ok successor => exact reported

theorem Successor.Sound.wait {t t' : Successor} {wait wait' : Wait}
    (sound : t.Sound pid x) (step : Wait.Step event wait x t wait' x' t') : t'.Sound pid x' := by
  have moved := sound.heard step.written
  cases step.successor with
  | inl kept =>
    rw [kept.1]
    exact moved
  | inr step =>
    cases step with
    | inr killed =>
      rw [killed.2.1]
      exact moved.go
    | inl spawned =>
      obtain ⟨unborn, _, started⟩ := spawned
      have silent : x'.written = [] := by
        have spoken := moved.spoken
        rw [unborn] at spoken
        exact spoken
      cases started with
      | inl node =>
        rw [node]
        exact moved.pass (by rw [unborn]; rfl) (fun _ => by rw [unborn]; rfl)
          (fun late => by cases late) silent moved.said
      | inr foreign =>
        rw [foreign]
        refine moved.pass (by rw [unborn]; rfl) (fun _ => by rw [unborn]; rfl)
          (fun late => by cases late) ?_ moved.said
        intro confirmed
        have twice := two_le_count_of_confirmed confirmed
        rw [silent] at twice
        cases twice

theorem State.Sound.step (sound : s.Sound pid) (step : Step pid event s s') : s'.Sound pid := by
  obtain ⟨old, distinct, successor, read, reported⟩ := sound
  cases step with
  | reload _ step => exact ⟨old.step step, distinct, successor, read, reported⟩
  | upgrade serving unasked =>
    refine ⟨old, apart_of_sound old, successor, ?_, trivial⟩
    rw [unasked] at read
    exact read
  | wait here step =>
    rw [here] at read reported
    exact ⟨old, distinct, successor.wait step, read.step step, reported.step step⟩
  | successor step => exact ⟨old, distinct, successor.step distinct step, step.read read, reported⟩
  | returns _ ended => exact ⟨old, distinct, successor.heard rfl, read.flags rfl rfl, ended⟩
  | drop => exact ⟨old, distinct, successor.heard rfl, read.flags rfl rfl, trivial⟩
  | shut leaving =>
    rw [leaving] at reported
    exact ⟨old, distinct, successor.heard rfl, read.flags rfl rfl, Main.reported_after reported⟩
  | abandon => exact ⟨old, distinct, successor.heard rfl, read.flags rfl rfl, trivial⟩
  | stop => exact ⟨old, distinct, successor, read, trivial⟩
  | @drain _ why draining =>
    rw [draining] at reported
    cases why with
    | replaced => exact ⟨old, distinct, successor, read, reported⟩
    | _ => exact ⟨old, distinct, successor, read, trivial⟩

def Runs (pid : UInt32) (allowed : Event → State → Prop) : State → State → Prop :=
  Relation.ReflTransGen fun s s' => ∃ event, allowed event s ∧ Step pid event s s'

def Reachable (old : ListenerSet) : Prop :=
  ∃ w : World, w.node.listeners = .empty ∧ ListenerSet.Runs ⟨w, none⟩ old

theorem State.sound_of_runs {old : ListenerSet} (reachable : Reachable old)
    {allowed : Event → State → Prop} (run : Runs pid allowed (.new old) s) : s.Sound pid := by
  obtain ⟨w, empty, before⟩ := reachable
  induction run with
  | refl => exact sound_new pid (ListenerSet.sound_of_runs empty before)
  | tail _ last ih =>
    obtain ⟨event, _, step⟩ := last
    exact ih.step step

end Upgrade

end Gfe
