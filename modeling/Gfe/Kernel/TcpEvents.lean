import Gfe.Kernel.Wire
import Gfe.Lib.HashMap

/-! # The kernel program

A program in the kernel is called when a connection of the node is established and when it
changes its state. It remembers when each connection was established, under a key made of
its addresses, and writes a record of it when it closes. The structures it writes have no
padding but what they name, on a machine that has the lowest byte first. Nothing is evicted
from its map here.
-/

namespace Gfe.Wire

open Endian

variable {here peer : SocketAddr}

/-! ## What the program is called with -/

/-- What a socket does, with the states it leaves and enters. -/
inductive SockOp where
  | passiveEstablished
  | activeEstablished
  | state (old new : UInt32)
  | other
  deriving DecidableEq

/-- Four words in the order of memory. -/
structure Words where
  w0 : UInt32
  w1 : UInt32
  w2 : UInt32
  w3 : UInt32

/-- `struct bpf_sock_ops` -/
structure SockOps where
  op : SockOp
  family : UInt32
  localIp4 : UInt32
  remoteIp4 : UInt32
  localIp6 : Words
  remoteIp6 : Words
  localPort : UInt32
  remotePort : UInt32
  srttUs : UInt32
  rttMin : UInt32
  totalRetrans : UInt32
  segsOut : UInt32
  bytesAcked : UInt64
  bytesReceived : UInt64

def afInet : UInt32 := 2

def afInet6 : UInt32 := 10

/-- `BPF_TCP_CLOSE` -/
def tcpClose : UInt32 := 7

/-! ## What the program writes -/

def word (value : UInt32) : List UInt8 := little 4 value.toNat

def Words.memory (words : Words) : List UInt8 :=
  word words.w0 ++ (word words.w1 ++ (word words.w2 ++ word words.w3))

@[simp] theorem length_word (value : UInt32) : (word value).length = 4 := length_little ..

@[simp] theorem Words.length_memory (words : Words) : words.memory.length = 16 := by
  simp [memory]

/-- `struct conn_key`, with two arrays of 16 bytes. -/
structure ConnKey where
  localAddr : List UInt8
  peerAddr : List UInt8
  localPort : UInt16
  peerPort : UInt16
  localSized : localAddr.length = 16
  peerSized : peerAddr.length = 16

def ConnKey.memory (key : ConnKey) : List UInt8 :=
  key.localAddr ++ (key.peerAddr ++ (little 2 key.localPort.toNat ++ little 2 key.peerPort.toNat))

@[simp] theorem ConnKey.length_memory (key : ConnKey) : key.memory.length = keyLen := by
  simp [memory, key.localSized, key.peerSized, keyLen]

/-- `__builtin_bswap32` -/
def bswap32 (value : UInt32) : UInt32 := UInt32.ofNat (ofBig (word value))

/-- An address in a key: 16 zeros, over which an IPv4 address is written with the two bytes
    that mark it, or an IPv6 address. -/
def keyAddr (family ip4 : UInt32) (ip6 : Words) : List UInt8 :=
  if family = afInet then List.replicate 10 0 ++ ([0xff, 0xff] ++ word ip4) else ip6.memory

theorem length_keyAddr (family ip4 : UInt32) (ip6 : Words) :
    (keyAddr family ip4 ip6).length = 16 := by
  rw [keyAddr]
  split <;> simp

def fillKey (ctx : SockOps) : ConnKey where
  localAddr := keyAddr ctx.family ctx.localIp4 ctx.localIp6
  peerAddr := keyAddr ctx.family ctx.remoteIp4 ctx.remoteIp6
  localPort := ctx.localPort.toUInt16
  peerPort := (bswap32 ctx.remotePort).toUInt16
  localSized := length_keyAddr ..
  peerSized := length_keyAddr ..

/-- `struct conn_open` -/
structure ConnOpen where
  establishedNs : UInt64
  accepted : UInt8
  deriving DecidableEq

def ConnOpen.memory (conn : ConnOpen) : List UInt8 :=
  little 8 conn.establishedNs.toNat ++ (conn.accepted :: List.replicate 7 0)

/-- `struct conn_closed` -/
structure ConnClosed where
  key : ConnKey
  accepted : UInt8
  stateBeforeClose : UInt8
  pad : UInt16
  srttUs : UInt32
  minRttUs : UInt32
  retransmits : UInt32
  segmentsOut : UInt32
  establishedNs : UInt64
  closedNs : UInt64
  bytesAcked : UInt64
  bytesReceived : UInt64

def doubleWord (value : UInt64) : List UInt8 := little 8 value.toNat

def ConnClosed.memory (closed : ConnClosed) : List UInt8 :=
  closed.key.memory ++ ([closed.accepted, closed.stateBeforeClose] ++ (little 2 closed.pad.toNat ++
    (word closed.srttUs ++ (word closed.minRttUs ++ (word closed.retransmits ++
      (word closed.segmentsOut ++ (doubleWord closed.establishedNs ++ (doubleWord closed.closedNs ++
        (doubleWord closed.bytesAcked ++ doubleWord closed.bytesReceived)))))))))

/-- The maps of the program: the connections that are open, by the bytes of their key, the
    records of those that have closed, and how many records were lost. -/
structure Maps where
  openConns : HashMap (List UInt8) ConnOpen
  closedConns : List (List UInt8)
  /-- 64 bits, one up for each connection: they do not come to their end. -/
  lost : Nat

def closedRecord (ctx : SockOps) (now : UInt64) (old : UInt32) (conn : ConnOpen) : ConnClosed where
  key := fillKey ctx
  accepted := conn.accepted
  stateBeforeClose := old.toUInt8
  pad := 0
  srttUs := ctx.srttUs >>> 3
  minRttUs := ctx.rttMin
  retransmits := ctx.totalRetrans
  segmentsOut := ctx.segsOut
  establishedNs := conn.establishedNs
  closedNs := now
  bytesAcked := ctx.bytesAcked
  bytesReceived := ctx.bytesReceived

/-- `tcp_events`, at the time `now`; a record is lost if the buffer for them is full. -/
def tcpEvents (ctx : SockOps) (now : UInt64) (full : Bool) (maps : Maps) : Maps :=
  if ctx.family ≠ afInet ∧ ctx.family ≠ afInet6 then maps
  else
    let key := (fillKey ctx).memory
    match ctx.op with
    | .passiveEstablished => { maps with openConns := maps.openConns.insert key ⟨now, 1⟩ }
    | .activeEstablished => { maps with openConns := maps.openConns.insert key ⟨now, 0⟩ }
    | .state old new =>
      if new ≠ tcpClose then maps
      else
        match maps.openConns.lookup key with
        | none => maps
        | some conn =>
          let reported := if full then { maps with lost := maps.lost + 1 }
            else { maps with
              closedConns := maps.closedConns ++ [(closedRecord ctx now old conn).memory] }
          { reported with openConns := reported.openConns.erase key }
    | .other => maps

/-- When a connection that is open was established, from what is remembered of it. -/
def establishedNs (conn : List UInt8) : Nat := ofLittle (conn.take 8)

/-- `TcpProbe::accept_queue_wait`, at the time `now`. -/
def acceptQueueWait (maps : Maps) (here peer : SocketAddr) (now : UInt64) : Option Nat :=
  (maps.openConns.lookup (encodeKey here peer)).map fun conn =>
    now.toNat - establishedNs conn.memory

/-! ## What the kernel says about a socket -/

/-- The words hold the address, with its first byte first in memory. -/
structure Words.Hold (words : Words) (bits : BitVec 128) : Prop where
  bytes : words.memory = big 16 bits.toNat

/-- The program is called for a socket between these addresses: one of IPv4, or one of IPv6,
    whose addresses may be those of IPv4, mapped. The remote port is given with its first byte
    first, in the upper half of a word. -/
inductive Describes (here peer : SocketAddr) (ctx : SockOps) : Prop where
  | inet {own other : BitVec 32} : ctx.family = afInet → here.ip = .v4 own → peer.ip = .v4 other →
      word ctx.localIp4 = big 4 own.toNat → word ctx.remoteIp4 = big 4 other.toNat →
      ctx.localPort.toNat = here.port.toNat →
      word ctx.remotePort = 0 :: 0 :: big 2 peer.port.toNat → Describes here peer ctx
  | inet6 {own other : BitVec 128} : ctx.family = afInet6 → here.ip = .v6 own → peer.ip = .v6 other →
      ctx.localIp6.Hold own → ctx.remoteIp6.Hold other → ctx.localPort.toNat = here.port.toNat →
      word ctx.remotePort = 0 :: 0 :: big 2 peer.port.toNat → Describes here peer ctx

/-! ## Keys of the kernel and of the node -/

theorem addressBytes_toCanonical (ip : IpAddr) : addressBytes ip.toCanonical = addressBytes ip := by
  cases ip with
  | v4 bits => rfl
  | v6 bits =>
    rw [IpAddr.toCanonical]
    split
    · rename_i mapped
      have high : (bits.extractLsb' 32 96).toNat = 0xffff := by
        rw [mapped]
        rfl
      have same : toIpv6Mapped (bits.extractLsb' 0 32) = bits := by
        have range := bits.isLt
        apply BitVec.eq_of_toNat_eq
        rw [BitVec.extractLsb'_toNat, Nat.shiftRight_eq_div_pow] at high
        rw [toNat_toIpv6Mapped, BitVec.extractLsb'_toNat, Nat.shiftRight_zero]
        omega
      rw [addressBytes, addressBytes, same]
    · rfl

theorem encodeKey_canonical (here peer : SocketAddr) :
    encodeKey (canonical here) (canonical peer) = encodeKey here peer := by
  simp only [encodeKey, canonical, addressBytes_toCanonical]

theorem addressBytes_v4 (bits : BitVec 32) :
    addressBytes (.v4 bits) = List.replicate 10 0 ++ ([0xff, 0xff] ++ big 4 bits.toNat) := by
  have low := bits.isLt
  have parts : big 16 (0xffff * 256 ^ 4 + bits.toNat) =
      big 12 ((0xffff * 256 ^ 4 + bits.toNat) / 256 ^ 4) ++
        big 4 ((0xffff * 256 ^ 4 + bits.toNat) % 256 ^ 4) := big_add 12 4 _
  have front : (0xffff * 256 ^ 4 + bits.toNat) / 256 ^ 4 = 0xffff := by
    omega
  have back : (0xffff * 256 ^ 4 + bits.toNat) % 256 ^ 4 = bits.toNat := by
    omega
  rw [addressBytes, toNat_toIpv6Mapped, parts, front, back, ← List.append_assoc]
  rfl

/-- The remote port is in the upper half of its word, highest byte first. -/
theorem bswap32_remotePort {value : UInt32} {port : UInt16}
    (held : word value = 0 :: 0 :: big 2 port.toNat) : (bswap32 value).toUInt16 = port := by
  have low : port.toNat < 256 ^ 2 := port.toNat_lt
  have whole : big 4 port.toNat = 0 :: 0 :: big 2 port.toNat := by
    have parts : big 4 port.toNat = big 2 (port.toNat / 256 ^ 2) ++ big 2 (port.toNat % 256 ^ 2) :=
      big_add 2 2 _
    rw [parts, Nat.div_eq_of_lt low, Nat.mod_eq_of_lt low]
    rfl
  have read : ofBig (0 :: 0 :: big 2 port.toNat) = port.toNat := by
    rw [← whole, ofBig_big]
    omega
  rw [bswap32, held, read]
  apply UInt16.toNat_inj.mp
  rw [UInt32.toNat_toUInt16, UInt32.toNat_ofNat']
  omega

theorem toUInt16_localPort {value : UInt32} {port : UInt16} (held : value.toNat = port.toNat) :
    value.toUInt16 = port := by
  have low := port.toNat_lt
  apply UInt16.toNat_inj.mp
  rw [UInt32.toNat_toUInt16, held]
  omega

/-- The key the program fills in is the one the node looks up. -/
theorem Describes.memory_fillKey {ctx : SockOps}
    (described : Describes here peer ctx) : (fillKey ctx).memory = encodeKey here peer := by
  cases described with
  | inet family ownIp otherIp own other ownPort otherPort =>
    simp only [ConnKey.memory, fillKey, keyAddr, if_pos family, own, other, encodeKey, ownIp,
      otherIp, addressBytes_v4, toUInt16_localPort ownPort, bswap32_remotePort otherPort]
  | inet6 family ownIp otherIp own other ownPort otherPort =>
    have differ : ctx.family ≠ afInet := by
      rw [family]
      decide
    simp only [ConnKey.memory, fillKey, keyAddr, if_neg differ, own.bytes, other.bytes, encodeKey,
      ownIp, otherIp, addressBytes, toUInt16_localPort ownPort, bswap32_remotePort otherPort]

/-! ## Records of the kernel -/

@[simp] theorem length_doubleWord (value : UInt64) : (doubleWord value).length = 8 :=
  length_little ..

theorem u32At_of_slice {bytes : List UInt8} {offset : Nat} {value : UInt32}
    (held : slice bytes offset 4 = some (word value)) : u32At bytes offset = some value := by
  have range : value.toNat < 256 ^ 4 := value.toNat_lt
  rw [u32At, held, Option.map_some, word, ofLittle_little, Nat.mod_eq_of_lt range,
    UInt32.ofNat_toNat]

theorem u64At_of_slice {bytes : List UInt8} {offset : Nat} {value : UInt64}
    (held : slice bytes offset 8 = some (doubleWord value)) : u64At bytes offset = some value := by
  have range : value.toNat < 256 ^ 8 := value.toNat_lt
  rw [u64At, held, Option.map_some, doubleWord, ofLittle_little, Nat.mod_eq_of_lt range,
    UInt64.ofNat_toNat]

/-- What the node makes of a record between these addresses. -/
def ConnClosed.connection (closed : ConnClosed) (here peer : SocketAddr) : ClosedConnection where
  here := here
  peer := peer
  origin := if closed.accepted = 1 then .accepted else .connected
  ending := ending closed.stateBeforeClose
  lifetime := closed.closedNs.toNat - closed.establishedNs.toNat
  rtt := fromMicros closed.srttUs
  minRtt := fromMicros closed.minRttUs
  retransmits := closed.retransmits
  segmentsSent := closed.segmentsOut
  bytesAcked := closed.bytesAcked
  bytesReceived := closed.bytesReceived

theorem ConnClosed.length_memory (closed : ConnClosed) : closed.memory.length = closedLen := by
  simp [memory, keyLen, closedLen]

theorem decodeClosed_memory {closed : ConnClosed}
    (keyed : decodeKey closed.key.memory = some (here, peer)) :
    decodeClosed closed.memory = some (closed.connection here peer) := by
  have key : closed.memory.take keyLen = closed.key.memory :=
    List.take_left' closed.key.length_memory
  have accepted : closed.memory.getD 36 0 = closed.accepted := by
    simp [ConnClosed.memory, keyLen]
  have state : closed.memory.getD 37 0 = closed.stateBeforeClose := by
    simp [ConnClosed.memory, keyLen]
  have srtt : u32At closed.memory 40 = some closed.srttUs := by
    apply u32At_of_slice
    simp [ConnClosed.memory, slice_append_right, slice_cons, slice_append_left, keyLen]
  have minRtt : u32At closed.memory 44 = some closed.minRttUs := by
    apply u32At_of_slice
    simp [ConnClosed.memory, slice_append_right, slice_cons, slice_append_left, keyLen]
  have retransmits : u32At closed.memory 48 = some closed.retransmits := by
    apply u32At_of_slice
    simp [ConnClosed.memory, slice_append_right, slice_cons, slice_append_left, keyLen]
  have segments : u32At closed.memory 52 = some closed.segmentsOut := by
    apply u32At_of_slice
    simp [ConnClosed.memory, slice_append_right, slice_cons, slice_append_left, keyLen]
  have established : u64At closed.memory 56 = some closed.establishedNs := by
    apply u64At_of_slice
    simp [ConnClosed.memory, slice_append_right, slice_cons, slice_append_left, keyLen]
  have ended : u64At closed.memory 64 = some closed.closedNs := by
    apply u64At_of_slice
    simp [ConnClosed.memory, slice_append_right, slice_cons, slice_append_left, keyLen]
  have acked : u64At closed.memory 72 = some closed.bytesAcked := by
    apply u64At_of_slice
    simp [ConnClosed.memory, slice_append_right, slice_cons, slice_append_left, keyLen]
  have received : u64At closed.memory 80 = some closed.bytesReceived := by
    apply u64At_of_slice
    simp [ConnClosed.memory, slice_append_right, slice_cons, slice_whole, keyLen]
  rw [decodeClosed, if_neg (not_not.mpr closed.length_memory), key, keyed, accepted, state, srtt,
    minRtt, retransmits, segments, established, ended, acked, received]
  rfl

theorem decodeClosed_of_length {bytes : List UInt8} (other : bytes.length ≠ closedLen) :
    decodeClosed bytes = none := by
  rw [decodeClosed, if_pos other]
  rfl

/-! ## What the node learns of a connection -/

theorem establishedNs_memory (conn : ConnOpen) :
    establishedNs conn.memory = conn.establishedNs.toNat := by
  have range : conn.establishedNs.toNat < 256 ^ 8 := conn.establishedNs.toNat_lt
  rw [establishedNs, ConnOpen.memory, List.take_left' (length_little ..), ofLittle_little,
    Nat.mod_eq_of_lt range]

theorem Describes.acceptQueueWait_eq {ctx : SockOps} {maps : Maps}
    {conn : ConnOpen} (described : Describes here peer ctx)
    (stored : maps.openConns.lookup (fillKey ctx).memory = some conn) (now : UInt64) :
    acceptQueueWait maps (canonical here) (canonical peer) now =
      some (now.toNat - conn.establishedNs.toNat) := by
  rw [described.memory_fillKey] at stored
  rw [acceptQueueWait, encodeKey_canonical, stored, Option.map_some, establishedNs_memory]

theorem Describes.decodeKey_fillKey {ctx : SockOps}
    (described : Describes here peer ctx) :
    decodeKey (fillKey ctx).memory = some (canonical here, canonical peer) := by
  rw [described.memory_fillKey, decodeKey_encodeKey]

/-- The kernel program and the node agree on every connection: on its key, on what is found
    by it, and on the record of its end. -/
theorem kernel_and_node_agree {here peer : SocketAddr} {ctx : SockOps}
    (described : Describes here peer ctx) :
    (fillKey ctx).memory = encodeKey (canonical here) (canonical peer) ∧
      (∀ (maps : Maps) (conn : ConnOpen), maps.openConns.lookup (fillKey ctx).memory = some conn →
        ∀ now, acceptQueueWait maps (canonical here) (canonical peer) now =
          some (now.toNat - conn.establishedNs.toNat)) ∧
      decodeKey (encodeKey here peer) = some (canonical here, canonical peer) ∧
      (∀ closed : ConnClosed, closed.key = fillKey ctx →
        decodeClosed closed.memory =
          some (closed.connection (canonical here) (canonical peer))) ∧
      ∀ bytes : List UInt8, bytes.length ≠ closedLen → decodeClosed bytes = none := by
  refine ⟨?key, ?found, decodeKey_encodeKey here peer, ?record, fun _ => decodeClosed_of_length⟩
  case key =>
    rw [described.memory_fillKey, encodeKey_canonical]
  case found =>
    intro maps conn stored now
    exact described.acceptQueueWait_eq stored now
  case record =>
    intro closed keyed
    apply decodeClosed_memory
    rw [keyed]
    exact described.decodeKey_fillKey

/-- A socket of IPv6 that a client at `10.0.0.7` has reached by IPv4. -/
def mappedSocket : SockOps where
  op := .passiveEstablished
  family := afInet6
  localIp4 := 0x0100007f
  remoteIp4 := 0x0700000a
  localIp6 := ⟨0, 0, 0xffff0000, 0x0100007f⟩
  remoteIp6 := ⟨0, 0, 0xffff0000, 0x0700000a⟩
  localPort := 443
  remotePort := 0x50c30000
  srttUs := 800
  rttMin := 90
  totalRetrans := 1
  segsOut := 12
  bytesAcked := 4000
  bytesReceived := 700

def mappedHere : SocketAddr := ⟨.v6 (toIpv6Mapped 0x7f000001), 443⟩

def mappedPeer : SocketAddr := ⟨.v6 (toIpv6Mapped 0x0a000007), 50000⟩

theorem describes_mapped : Describes mappedHere mappedPeer mappedSocket :=
  .inet6 rfl rfl rfl ⟨by decide⟩ ⟨by decide⟩ rfl (by decide)

theorem kernel_and_node_agree_mapped :
    canonical mappedPeer = ⟨.v4 0x0a000007, 50000⟩ ∧
      (fillKey mappedSocket).memory = encodeKey (canonical mappedHere) ⟨.v4 0x0a000007, 50000⟩ ∧
      decodeClosed (closedRecord mappedSocket 1500 1 ⟨500, 1⟩).memory =
        some ⟨⟨.v4 0x7f000001, 443⟩, ⟨.v4 0x0a000007, 50000⟩, .accepted, .aborted, 1000, 100000,
          90000, 1, 12, 4000, 700⟩ ∧
      decodeClosed [] = none := by
  have own : canonical mappedHere = ⟨.v4 0x7f000001, 443⟩ := by
    decide
  have other : canonical mappedPeer = ⟨.v4 0x0a000007, 50000⟩ := by
    decide
  obtain ⟨key, _, _, record, sized⟩ := kernel_and_node_agree describes_mapped
  rw [other] at key
  refine ⟨other, key, ?_, sized [] (by decide)⟩
  rw [record _ rfl, own, other]
  rfl

/-! ## Calls of the program -/

/-- One call of the program. -/
structure Event where
  ctx : SockOps
  now : UInt64
  full : Bool

theorem Describes.family {ctx : SockOps}
    (described : Describes here peer ctx) : ¬(ctx.family ≠ afInet ∧ ctx.family ≠ afInet6) := by
  cases described with
  | inet family => exact fun neither => neither.1 family
  | inet6 family => exact fun neither => neither.2 family

end Gfe.Wire
