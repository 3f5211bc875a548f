import Gfe.Config.Address
import Gfe.Listen.Listeners

/-! # Handing sockets over

The outgoing process writes a header and a line for each socket to a Unix socket,
the sockets themselves travelling beside the text, up to 64 with a message; the
successor reads both to the end and pairs them again by counting. How much of a
write the kernel takes at once, with which byte of a message the sockets travel
and how the reads are cut is the kernel's choice; a call that fails outright ends
either side with its error, and is left out here.
-/

namespace Gfe

namespace Handover

open Text Address

/-! ## The channel -/

abbrev Bytes := List UInt8

/-- A byte on its way, with the sockets that travel with it. -/
abbrev Cell := UInt8 × List SocketId

/-- What the kernel chooses, call after call. -/
structure Kernel where
  taken : Nat → Nat
  rides : Nat → Nat

/-- How much of `len` bytes a call takes: at least one, and not more than there
    are. -/
def Kernel.takes (kernel : Kernel) (call len : Nat) : Nat :=
  min len (1 + kernel.taken call % len)

/-- The sending half of a Unix socket: what was written to it. -/
structure Channel where
  wire : List Cell
  calls : Nat

def Channel.new : Channel := ⟨[], 0⟩

variable (kernel : Kernel)

/-- `write`: the front part of `bytes` that was taken. -/
def write (bytes : Bytes) (channel : Channel) : Nat × Channel :=
  let taken := kernel.takes channel.calls bytes.length
  (taken, ⟨channel.wire ++ (bytes.take taken).map fun byte => (byte, []), channel.calls + 1⟩)

/-- `sendmsg`: the sockets travel with one of the bytes that were taken. -/
def sendmsg (bytes : Bytes) (sockets : List SocketId) (channel : Channel) : Nat × Channel :=
  let taken := kernel.takes channel.calls bytes.length
  let rides := kernel.rides channel.calls % taken
  (taken, ⟨channel.wire ++ (bytes.take taken).mapIdx fun i byte =>
    (byte, if i = rides then sockets else []), channel.calls + 1⟩)

theorem takes_pos {len : Nat} (call : Nat) (some : 0 < len) : 0 < kernel.takes call len := by
  unfold Kernel.takes
  omega

theorem takes_le (call len : Nat) : kernel.takes call len ≤ len := Nat.min_le_left ..

/-- `write_all`: write until nothing is left. -/
def writeAll (bytes : Bytes) (channel : Channel) : Channel :=
  if some : 0 < bytes.length then
    have := takes_pos kernel channel.calls some
    writeAll (bytes.drop (write kernel bytes channel).1) (write kernel bytes channel).2
  else channel
termination_by bytes.length
decreasing_by
  simp only [write, List.length_drop]
  omega

/-! ## Sending -/

structure Protocol where
  name : Str
  version : UInt32

def Protocol.header (protocol : Protocol) : Str :=
  protocol.name ++ ' ' :: Nat.toDigits 10 protocol.version.toNat

/-- A socket being handed over: what it is for, and the address it is configured
    on. -/
structure Socket where
  role : Str
  addr : SocketAddr
  socket : SocketId
  deriving DecidableEq

inductive HandoverError where
  | notOneWord (word : Str)
  | noRoom
  | socketsLost
  | notText
  | notUnderstood
  | withoutAddress
  | malformedAddress
  | fewerSockets
  | unknownRole (role : Str)
  | moreSockets
  deriving DecidableEq

def isOneWord (word : Str) : Bool := !word.isEmpty && !word.any isWhitespace

def socketsPerMessage : Nat := 64

def entry (socket : Socket) : Str × SocketId :=
  (socket.role ++ ' ' :: displaySocketAddr socket.addr ++ ['\n'], socket.socket)

/-- One message: the sockets travel with its first part, and whatever part of the
    lines did not fit follows on its own. -/
def sendMessage (message : List (Str × SocketId)) (channel : Channel) :
    Except HandoverError Channel :=
  let lines := utf8 (message.flatMap Prod.fst)
  let sockets := message.map Prod.snd
  if socketsPerMessage < sockets.length then .error .noRoom
  else
    let (sent, channel) := sendmsg kernel lines sockets channel
    .ok (writeAll kernel (lines.drop sent) channel)

def sendMessages (entries : List (Str × SocketId)) (channel : Channel) :
    Except HandoverError Channel :=
  match entries with
  | [] => .ok channel
  | first :: rest => do
    let channel ← sendMessage kernel ((first :: rest).take socketsPerMessage) channel
    sendMessages ((first :: rest).drop socketsPerMessage) channel
termination_by entries.length
decreasing_by simp [socketsPerMessage]

def send (protocol : Protocol) (sockets : List Socket) (channel : Channel) :
    Except HandoverError Channel :=
  match (protocol.name :: sockets.map Socket.role).find? fun word => !isOneWord word with
  | some word => .error (.notOneWord word)
  | none =>
    let channel := writeAll kernel (utf8 protocol.header) channel
    let channel := writeAll kernel (utf8 ['\n']) channel
    sendMessages kernel (sockets.map entry) channel

/-! ## Receiving -/

/-- What a `recvmsg` returned. -/
structure Received where
  bytes : Bytes
  sockets : List SocketId
  /-- `CTRUNC`: there was not room for all the sockets. -/
  truncated : Bool

/-- How many bytes are asked for at once. -/
def chunkLength : Nat := 4096

/-- What is read of the cells of a part of the wire. -/
def Received.ofCells (cells : List Cell) : Received where
  bytes := cells.map Prod.fst
  sockets := cells.flatMap Prod.snd
  truncated := socketsPerMessage < (cells.flatMap Prod.snd).length

/-- The ways to read what is on the wire until its end: in parts of at most 4096
    bytes, none of which has the sockets of two messages. -/
inductive Delivers : List Cell → List Received → Prop where
  | ended : Delivers [] [.ofCells []]
  | read {front rest : List Cell} {reads : List Received} : front ≠ [] →
      front.length ≤ chunkLength → (front.filter fun cell => !cell.2.isEmpty).length ≤ 1 →
      Delivers rest reads → Delivers (front ++ rest) (.ofCells front :: reads)

/-- All text and all sockets, read until a read returns nothing; as long as none
    does there is no result. -/
def readAll (text : Bytes) (sockets : List SocketId) :
    List Received → Option (Except HandoverError (Bytes × List SocketId))
  | [] => none
  | received :: reads =>
    if received.truncated then some (.error .socketsLost)
    else if received.bytes.isEmpty then some (.ok (text, sockets ++ received.sockets))
    else readAll (text ++ received.bytes) (sockets ++ received.sockets) reads

variable (parse : Str → Option SocketAddr) (roles : List Str)

def pair : List Str → List SocketId → Except HandoverError (List Socket)
  | [], [] => .ok []
  | [], _ :: _ => .error .moreSockets
  | line :: lines, sockets => do
    let some (role, addr) := splitOnce ' ' line | .error .withoutAddress
    let some addr := parse addr | .error .malformedAddress
    let socket :: sockets := sockets | .error .fewerSockets
    if role ∉ roles then .error (.unknownRole role)
    else
      let others ← pair lines sockets
      return ⟨role, addr, socket⟩ :: others

def understand (protocol : Protocol) (text : Bytes) (sockets : List SocketId) :
    Except HandoverError (List Socket) := do
  let some text := fromUtf8 text | .error .notText
  let header :: lines := lines text | .error .notUnderstood
  if header ≠ protocol.header then .error .notUnderstood
  else pair parse roles lines sockets

/-- What is answered once the sockets are there. -/
def receipt (pid : UInt32) : Str := "received ".toList ++ Nat.toDigits 10 pid.toNat

/-- The sockets, and the line that is answered. -/
def receive (protocol : Protocol) (pid : UInt32) (reads : List Received) :
    Option (Except HandoverError (List Socket × Str)) :=
  (readAll [] [] reads).map fun result => do
    let (text, sockets) ← result
    let received ← understand parse roles protocol text sockets
    return (received, receipt pid ++ ['\n'])

/-! ## What is on the wire -/

section Wire

variable {kernel}

structure Carry (cells : List Cell) (text : Bytes) (sockets : List SocketId) : Prop where
  text : cells.map Prod.fst = text
  sockets : cells.flatMap Prod.snd = sockets
  room : ∀ cell ∈ cells, cell.2.length ≤ socketsPerMessage

theorem Carry.append {cells cells' : List Cell} {text text' : Bytes} {sockets sockets' : List SocketId}
    (one : Carry cells text sockets) (two : Carry cells' text' sockets') :
    Carry (cells ++ cells') (text ++ text') (sockets ++ sockets') := by
  refine ⟨by simp [one.text, two.text], by simp [one.sockets, two.sockets], ?_⟩
  intro cell member
  cases List.mem_append.mp member with
  | inl here => exact one.room cell here
  | inr there => exact two.room cell there

theorem carry_nil : Carry [] [] [] := ⟨rfl, rfl, nofun⟩

theorem carry_plain (bytes : Bytes) : Carry (bytes.map fun byte => (byte, [])) bytes [] := by
  refine ⟨by simp [Function.comp_def], by simp [List.flatMap_map], ?_⟩
  intro cell member
  obtain ⟨byte, _, same⟩ := List.mem_map.mp member
  simp [← same]

theorem carry_riding {bytes : Bytes} {rides : Nat} (inside : rides < bytes.length)
    {sockets : List SocketId} (room : sockets.length ≤ socketsPerMessage) :
    Carry (bytes.mapIdx fun i byte => (byte, if i = rides then sockets else [])) bytes sockets := by
  induction bytes generalizing rides with
  | nil => simp at inside
  | cons byte bytes ih =>
    rw [List.mapIdx_cons]
    cases rides with
    | zero =>
      have rest := carry_plain bytes
      have first : Carry [(byte, sockets)] [byte] sockets := ⟨rfl, by simp, by simpa using room⟩
      have alone : bytes.mapIdx (fun _ byte => (byte, ([] : List SocketId))) =
          bytes.map fun byte => (byte, []) := by
        apply List.ext_getElem <;> simp
      simpa [alone] using first.append rest
    | succ rides =>
      have rest := ih (by simpa using inside : rides < bytes.length)
      have first := carry_plain [byte]
      simpa using first.append rest

theorem wire_writeAll (bytes : Bytes) (channel : Channel) :
    (writeAll kernel bytes channel).wire = channel.wire ++ bytes.map fun byte => (byte, []) := by
  induction bytes, channel using writeAll.induct kernel with
  | case1 bytes channel some _ ih =>
    rw [writeAll, dif_pos some, ih]
    simp [write]
  | case2 bytes channel none =>
    have empty : bytes = [] := by simpa using none
    rw [writeAll, dif_neg none, empty]
    simp

theorem sendMessage_ok {message : List (Str × SocketId)} (channel : Channel)
    (some : utf8 (message.flatMap Prod.fst) ≠ []) (room : message.length ≤ socketsPerMessage) :
    ∃ channel' cells, sendMessage kernel message channel = .ok channel' ∧
      channel'.wire = channel.wire ++ cells ∧
      Carry cells (utf8 (message.flatMap Prod.fst)) (message.map Prod.snd) := by
  set lines := utf8 (message.flatMap Prod.fst)
  have roomy : (message.map Prod.snd).length ≤ socketsPerMessage := by simpa using room
  have sent := takes_pos kernel channel.calls (List.length_pos_iff.mpr some)
  have most := takes_le kernel channel.calls lines.length
  have riding : kernel.rides channel.calls % kernel.takes channel.calls lines.length <
      (lines.take (kernel.takes channel.calls lines.length)).length := by
    rw [List.length_take, Nat.min_eq_left most]
    exact Nat.mod_lt _ sent
  have whole := (carry_riding riding roomy).append
    (carry_plain (lines.drop (kernel.takes channel.calls lines.length)))
  rw [List.take_append_drop, List.append_nil] at whole
  unfold sendMessage
  rw [if_neg (Nat.not_lt.mpr roomy)]
  refine ⟨_, _, rfl, ?_, whole⟩
  rw [wire_writeAll, List.append_assoc]

theorem sendMessages_ok {entries : List (Str × SocketId)} (channel : Channel)
    (some : ∀ entry ∈ entries, entry.1 ≠ []) :
    ∃ channel' cells, sendMessages kernel entries channel = .ok channel' ∧
      channel'.wire = channel.wire ++ cells ∧
      Carry cells (utf8 (entries.flatMap Prod.fst)) (entries.map Prod.snd) := by
  induction entries, channel using sendMessages.induct with
  | case1 channel => exact ⟨channel, [], by rw [sendMessages], by simp, carry_nil⟩
  | case2 channel first rest ih =>
    have text : utf8 (((first :: rest).take socketsPerMessage).flatMap Prod.fst) ≠ [] := by
      apply utf8_ne_nil
      simp [socketsPerMessage, some first List.mem_cons_self]
    obtain ⟨middle, cells, sent, wire, carry⟩ := sendMessage_ok channel text
      (List.length_take_le _ _)
    obtain ⟨channel', cells', sent', wire', carry'⟩ := ih middle fun entry member =>
      some entry (List.mem_of_mem_drop member)
    refine ⟨channel', cells ++ cells', ?_, by simp [wire', wire], ?_⟩
    · rw [sendMessages, sent]
      exact sent'
    · have whole := carry.append carry'
      rwa [← utf8_append, ← List.flatMap_append, ← List.map_append, List.take_append_drop] at whole

/-- What a handover puts on the wire: the header, a line for each socket, and the
    sockets in their order. -/
theorem send_ok {protocol : Protocol} {sockets : List Socket}
    (named : isOneWord protocol.name = true)
    (words : ∀ socket ∈ sockets, isOneWord socket.role = true) :
    ∃ channel, send kernel protocol sockets .new = .ok channel ∧
      Carry channel.wire (utf8 (protocol.header ++ ['\n'] ++ (sockets.map entry).flatMap Prod.fst))
        (sockets.map Socket.socket) := by
  have fine : (protocol.name :: sockets.map Socket.role).find? (fun word => !isOneWord word) =
      none := by
    simp only [List.find?_eq_none, List.mem_cons, List.mem_map, Bool.not_eq_true', Bool.not_eq_false]
    intro word member
    cases member with
    | inl same => exact same ▸ named
    | inr there =>
      obtain ⟨socket, member, same⟩ := there
      exact same ▸ words socket member
  have some : ∀ written ∈ sockets.map entry, written.1 ≠ [] := by
    intro written member
    obtain ⟨socket, _, same⟩ := List.mem_map.mp member
    simp [← same, entry]
  obtain ⟨channel, cells, sent, wire, carry⟩ := @sendMessages_ok kernel _
    (writeAll kernel (utf8 ['\n']) (writeAll kernel (utf8 protocol.header) .new)) some
  refine ⟨channel, ?_, ?_⟩
  · rw [send, fine]
    exact sent
  · have start := (carry_plain (utf8 protocol.header)).append (carry_plain (utf8 ['\n']))
    have whole := start.append carry
    rw [wire, wire_writeAll, wire_writeAll, utf8_append, utf8_append]
    simpa [Channel.new, entry, Function.comp_def] using whole

end Wire

/-! ## What is made of it -/

section Understanding

variable {parse roles}

theorem flatMap_riding (cells : List Cell) :
    (cells.filter fun cell => !cell.2.isEmpty).flatMap Prod.snd = cells.flatMap Prod.snd := by
  induction cells with
  | nil => rfl
  | cons cell cells ih =>
    obtain ⟨byte, sockets⟩ := cell
    cases sockets with
    | nil => simpa using ih
    | cons socket sockets => simp [← ih]

theorem length_sockets_le {cells : List Cell}
    (one : (cells.filter fun cell => !cell.2.isEmpty).length ≤ 1)
    (room : ∀ cell ∈ cells, cell.2.length ≤ socketsPerMessage) :
    (cells.flatMap Prod.snd).length ≤ socketsPerMessage := by
  rw [← flatMap_riding]
  have inside : ∀ cell ∈ cells.filter fun cell => !cell.2.isEmpty,
      cell.2.length ≤ socketsPerMessage :=
    fun cell member => room cell (List.mem_of_mem_filter member)
  generalize cells.filter (fun cell => !cell.2.isEmpty) = riding at one inside ⊢
  cases riding with
  | nil => simp
  | cons cell others =>
    have alone : others = [] := by simpa using one
    simpa [alone] using inside cell List.mem_cons_self

/-- Whichever way the wire is read, all of it is. -/
theorem readAll_ok {wire : List Cell} {reads : List Received} (delivered : Delivers wire reads)
    (room : ∀ cell ∈ wire, cell.2.length ≤ socketsPerMessage) (text : Bytes)
    (sockets : List SocketId) :
    readAll text sockets reads =
      some (.ok (text ++ wire.map Prod.fst, sockets ++ wire.flatMap Prod.snd)) := by
  induction delivered generalizing text sockets with
  | ended => simp [readAll, Received.ofCells]
  | @read front rest reads some short one _ ih =>
    have few := length_sockets_le one fun cell member => room cell (List.mem_append_left _ member)
    have later := ih (fun cell member => room cell (List.mem_append_right _ member))
      (text ++ front.map Prod.fst) (sockets ++ front.flatMap Prod.snd)
    simp only [readAll, Received.ofCells, Nat.not_lt.mpr few, decide_false, Bool.false_eq_true,
      if_false, List.isEmpty_iff, List.map_eq_nil_iff, some]
    simpa using later

theorem notMem_of_isOneWord {word : Str} (one : isOneWord word = true) {c : Char}
    (space : isWhitespace c = true) : c ∉ word := by
  intro member
  simp only [isOneWord, Bool.and_eq_true, Bool.not_eq_true', List.any_eq_false] at one
  exact absurd space (one.2 c member)

theorem onOneLine_of_isOneWord {word : Str} (one : isOneWord word = true) : OnOneLine word :=
  ⟨notMem_of_isOneWord one (by decide), notMem_of_isOneWord one (by decide)⟩

theorem pair_ok {sockets : List Socket}
    (words : ∀ socket ∈ sockets, isOneWord socket.role = true ∧ socket.role ∈ roles)
    (roundTrips : ∀ socket ∈ sockets, parse (displaySocketAddr socket.addr) = some socket.addr) :
    pair parse roles
      (sockets.map fun socket => socket.role ++ ' ' :: displaySocketAddr socket.addr)
      (sockets.map Socket.socket) = .ok sockets := by
  induction sockets with
  | nil => rfl
  | cons socket sockets ih =>
    obtain ⟨word, known⟩ := words socket List.mem_cons_self
    have split := splitOnce_append (notMem_of_isOneWord word (by decide : isWhitespace ' ' = true))
      (displaySocketAddr socket.addr)
    have later := ih (fun other member => words other (List.mem_cons_of_mem _ member))
      fun other member => roundTrips other (List.mem_cons_of_mem _ member)
    simp only [List.map_cons, pair, split, roundTrips socket List.mem_cons_self, later,
      known, not_true_eq_false, if_false]
    rfl

theorem understand_ok {protocol : Protocol} {sockets : List Socket}
    (named : isOneWord protocol.name = true)
    (words : ∀ socket ∈ sockets, isOneWord socket.role = true ∧ socket.role ∈ roles)
    (roundTrips : ∀ socket ∈ sockets, parse (displaySocketAddr socket.addr) = some socket.addr) :
    understand parse roles protocol
      (utf8 (protocol.header ++ ['\n'] ++ (sockets.map entry).flatMap Prod.fst))
      (sockets.map Socket.socket) = .ok sockets := by
  have space : OnOneLine [' '] := by decide
  have header : OnOneLine protocol.header :=
    (onOneLine_of_isOneWord named).append (space.append (onOneLine_toDigits 10 _))
  have written : ∀ line ∈ sockets.map fun socket =>
      socket.role ++ ' ' :: displaySocketAddr socket.addr, OnOneLine line := by
    intro line member
    obtain ⟨socket, listed, same⟩ := List.mem_map.mp member
    rw [← same]
    exact (onOneLine_of_isOneWord (words socket listed).1).append
      (space.append (onOneLine_displaySocketAddr _))
  have text : lines (protocol.header ++ ['\n'] ++ (sockets.map entry).flatMap Prod.fst) =
      protocol.header :: sockets.map fun socket =>
        socket.role ++ ' ' :: displaySocketAddr socket.addr := by
    have all : protocol.header ++ ['\n'] ++ (sockets.map entry).flatMap Prod.fst =
        protocol.header ++ '\n' :: (sockets.map fun socket =>
          socket.role ++ ' ' :: displaySocketAddr socket.addr).flatMap fun line => line ++ ['\n'] := by
      simp [entry, List.flatMap_map]
    rw [all, lines_cons header, lines_flatMap written]
  simp only [understand, fromUtf8_utf8, text, ne_eq, not_true_eq_false, if_false]
  exact pair_ok words roundTrips

/-- What is received is what was sent, whatever the kernel chooses. -/
theorem receive_send {protocol : Protocol} {sockets : List Socket}
    (named : isOneWord protocol.name = true)
    (words : ∀ socket ∈ sockets, isOneWord socket.role = true ∧ socket.role ∈ roles)
    (roundTrips : ∀ socket ∈ sockets, parse (displaySocketAddr socket.addr) = some socket.addr)
    (pid : UInt32) :
    ∃ channel, send kernel protocol sockets .new = .ok channel ∧
      ∀ reads, Delivers channel.wire reads →
        receive parse roles protocol pid reads = some (.ok (sockets, receipt pid ++ ['\n'])) := by
  obtain ⟨channel, sent, carry⟩ := @send_ok kernel protocol sockets named
    fun socket member => (words socket member).1
  refine ⟨channel, sent, fun reads delivered => ?_⟩
  rw [receive, readAll_ok delivered carry.room, carry.text, carry.sockets]
  simp only [List.nil_append, Option.map_some]
  change some (do
    let received ← understand parse roles protocol _ _
    return (received, _)) = _
  rw [understand_ok named words roundTrips]
  rfl

end Understanding

/-! ## A node's sockets -/

/-- The listening sockets of a node, each with the address it is configured on. -/
structure Sockets where
  listeners : List (SocketAddr × SocketId)
  ops : Option (SocketAddr × SocketId)
  deriving DecidableEq

def gfeProtocol : Protocol := ⟨"gfe-handover".toList, 1⟩

def listenerRole : Str := "listener".toList

def opsRole : Str := "ops".toList

def Sockets.handed (sockets : Sockets) : List Socket :=
  (sockets.listeners.map fun (addr, socket) => ⟨listenerRole, addr, socket⟩) ++
    sockets.ops.toList.map fun (addr, socket) => ⟨opsRole, addr, socket⟩

def sendSockets (sockets : Sockets) : Except HandoverError Channel :=
  send kernel gfeProtocol sockets.handed .new

/-- Sort a socket that was received by its role. -/
def Sockets.add (sockets : Sockets) (handed : Socket) : Sockets :=
  if handed.role = opsRole then { sockets with ops := some (handed.addr, handed.socket) }
  else { sockets with listeners := sockets.listeners ++ [(handed.addr, handed.socket)] }

def receiveSockets (pid : UInt32) (reads : List Received) :
    Option (Except HandoverError (Sockets × Str)) :=
  (receive parse [listenerRole, opsRole] gfeProtocol pid reads).map fun result => do
    let (handed, answer) ← result
    return (handed.foldl Sockets.add ⟨[], none⟩, answer)

theorem listenerRole_ne_opsRole : listenerRole ≠ opsRole := by decide +kernel

theorem foldl_add_handed (sockets : Sockets) :
    sockets.handed.foldl Sockets.add ⟨[], none⟩ = sockets := by
  have listeners : ∀ (entries before : List (SocketAddr × SocketId)),
      (entries.map fun (addr, socket) => (⟨listenerRole, addr, socket⟩ : Socket)).foldl Sockets.add
        ⟨before, none⟩ = ⟨before ++ entries, none⟩ := by
    intro entries
    induction entries with
    | nil => simp
    | cons entry entries ih =>
      intro before
      rw [List.map_cons, List.foldl_cons, Sockets.add, if_neg listenerRole_ne_opsRole, ih]
      simp
  obtain ⟨entries, ops⟩ := sockets
  rw [Sockets.handed, List.foldl_append, listeners]
  cases ops <;> simp [Sockets.add]

end Handover

open Handover Address in
/-- Whatever the kernel takes at once, with whichever byte of a message the sockets
    travel and however the reads are cut: the successor has the sockets of the
    node, in their order, each with its address. -/
theorem handed_over_sockets_arrive (kernel : Kernel) (parse : Str → Option SocketAddr)
    (sockets : Sockets)
    (roundTrips : ∀ address ∈ sockets.listeners.map Prod.fst ++ sockets.ops.toList.map Prod.fst,
      parse (displaySocketAddr address) = some address) (pid : UInt32) :
    ∃ channel, sendSockets kernel sockets = .ok channel ∧
      ∀ reads, Delivers channel.wire reads →
        receiveSockets parse pid reads = some (.ok (sockets, receipt pid ++ ['\n'])) := by
  have handed : ∀ socket ∈ sockets.handed,
      socket.addr ∈ sockets.listeners.map Prod.fst ++ sockets.ops.toList.map Prod.fst ∧
        (socket.role = listenerRole ∨ socket.role = opsRole) := by
    intro socket member
    cases List.mem_append.mp member with
    | inl listener =>
      obtain ⟨entry, listed, same⟩ := List.mem_map.mp listener
      subst same
      exact ⟨List.mem_append_left _ (List.mem_map_of_mem listed), .inl rfl⟩
    | inr ops =>
      obtain ⟨entry, listed, same⟩ := List.mem_map.mp ops
      subst same
      exact ⟨List.mem_append_right _ (List.mem_map_of_mem listed), .inr rfl⟩
  have words : ∀ socket ∈ sockets.handed,
      isOneWord socket.role = true ∧ socket.role ∈ [listenerRole, opsRole] := by
    intro socket member
    cases (handed socket member).2 with
    | inl listener => rw [listener]; decide +kernel
    | inr ops => rw [ops]; decide +kernel
  obtain ⟨channel, sent, received⟩ := receive_send kernel
    (by decide +kernel : isOneWord gfeProtocol.name = true) words
    (fun socket member => roundTrips _ (handed socket member).1) pid
  refine ⟨channel, sent, fun reads delivered => ?_⟩
  rw [receiveSockets, received reads delivered]
  change some (Except.ok (sockets.handed.foldl Sockets.add ⟨[], none⟩, _)) = _
  rw [foldl_add_handed]

open Handover Address in
/-- More sockets than one message carries, written and read a byte at a time. -/
theorem many_sockets_arrive :
    let kernel : Kernel := ⟨fun _ => 0, fun _ => 0⟩
    let loopback (port : Nat) : SocketAddr := ⟨.v4 0x7f000001, UInt16.ofNat port⟩
    let sockets : Sockets := ⟨(List.range 65).map fun i => (loopback 80, i), some (loopback 81, 65)⟩
    let parse (text : Str) := [loopback 80, loopback 81].find? (displaySocketAddr · = text)
    ∃ channel, sendSockets kernel sockets = .ok channel ∧
      ∀ reads, Delivers channel.wire reads →
        receiveSockets parse 7 reads = some (.ok (sockets, receipt 7 ++ ['\n'])) := by
  intro kernel loopback sockets parse
  exact handed_over_sockets_arrive kernel parse sockets (by decide +kernel) 7

end Gfe
