import Gfe.Config.Types
import Gfe.Lib.Endian

/-! # What is exchanged with the kernel

The node and its kernel program share plain bytes: the key of a connection, by which the
node looks it up while it is open, and the record of one that has closed. Both sides write
and read them field by field. Addresses are in 16 bytes, those of IPv4 mapped into IPv6.
Durations are in nanoseconds.
-/

namespace Gfe.Wire

open Endian

/-- `KEY_LEN` -/
def keyLen : Nat := 36

/-- `CLOSED_LEN` -/
def closedLen : Nat := 88

/-! ## Keys -/

/-- `Ipv4Addr::to_ipv6_mapped` -/
def toIpv6Mapped (bits : BitVec 32) : BitVec 128 := 0xffff#96 ++ bits

def addressBytes : IpAddr → List UInt8
  | .v4 bits => big 16 (toIpv6Mapped bits).toNat
  | .v6 bits => big 16 bits.toNat

def encodeKey (here peer : SocketAddr) : List UInt8 :=
  addressBytes here.ip ++
    (addressBytes peer.ip ++ (little 2 here.port.toNat ++ little 2 peer.port.toNat))

def decodeAddress (octets : List UInt8) : IpAddr :=
  IpAddr.toCanonical (.v6 (BitVec.ofNat 128 (ofBig octets)))

def decodePort (bytes : List UInt8) : UInt16 := UInt16.ofNat (ofLittle bytes)

def decodeKey (key : List UInt8) : Option (SocketAddr × SocketAddr) := do
  let hereIp ← slice key 0 16
  let herePort ← slice key 32 2
  let peerIp ← slice key 16 16
  let peerPort ← slice key 34 2
  return (⟨decodeAddress hereIp, decodePort herePort⟩, ⟨decodeAddress peerIp, decodePort peerPort⟩)

/-! ## Records -/

def u32At (bytes : List UInt8) (offset : Nat) : Option UInt32 :=
  (slice bytes offset 4).map fun part => UInt32.ofNat (ofLittle part)

def u64At (bytes : List UInt8) (offset : Nat) : Option UInt64 :=
  (slice bytes offset 8).map fun part => UInt64.ofNat (ofLittle part)

inductive Origin where
  | accepted
  | connected
  deriving DecidableEq, Repr

inductive Ending where
  | peerClosed
  | nodeClosed
  | aborted
  | other
  deriving DecidableEq, Repr

def ending (stateBeforeClose : UInt8) : Ending :=
  -- `TCP_LAST_ACK`
  if stateBeforeClose = 9 then .peerClosed
  -- `TCP_FIN_WAIT1`, `TCP_FIN_WAIT2`, `TCP_CLOSING`, `TCP_TIME_WAIT`
  else if stateBeforeClose ∈ [4, 5, 11, 6] then .nodeClosed
  -- `TCP_ESTABLISHED`, `TCP_CLOSE_WAIT`
  else if stateBeforeClose ∈ [1, 8] then .aborted
  else .other

structure ClosedConnection where
  here : SocketAddr
  peer : SocketAddr
  origin : Origin
  ending : Ending
  lifetime : Nat
  rtt : Nat
  minRtt : Nat
  retransmits : UInt32
  segmentsSent : UInt32
  bytesAcked : UInt64
  bytesReceived : UInt64
  deriving DecidableEq

/-- `Duration::from_micros` -/
def fromMicros (micros : UInt32) : Nat := micros.toNat * 1000

def decodeClosed (bytes : List UInt8) : Option ClosedConnection := do
  if bytes.length ≠ closedLen then none
  let (here, peer) ← decodeKey (bytes.take keyLen)
  let established ← u64At bytes 56
  let closed ← u64At bytes 64
  return {
    here, peer
    origin := if bytes.getD 36 0 = 1 then .accepted else .connected
    ending := ending (bytes.getD 37 0)
    rtt := fromMicros (← u32At bytes 40)
    minRtt := fromMicros (← u32At bytes 44)
    retransmits := ← u32At bytes 48
    segmentsSent := ← u32At bytes 52
    -- `saturating_sub`
    lifetime := closed.toNat - established.toNat
    bytesAcked := ← u64At bytes 72
    bytesReceived := ← u64At bytes 80 }

/-! ## Reading what was written -/

/-- The address as the node sees it. -/
def canonical (address : SocketAddr) : SocketAddr := ⟨address.ip.toCanonical, address.port⟩

theorem toNat_toIpv6Mapped (bits : BitVec 32) :
    (toIpv6Mapped bits).toNat = 0xffff * 256 ^ 4 + bits.toNat := by
  have parts : (toIpv6Mapped bits).toNat = (0xffff#96).toNat <<< 32 ||| bits.toNat :=
    BitVec.toNat_append ..
  rw [parts, ← Nat.shiftLeft_add_eq_or_of_lt bits.isLt, Nat.shiftLeft_eq]
  rfl

theorem toCanonical_toIpv6Mapped (bits : BitVec 32) :
    IpAddr.toCanonical (.v6 (toIpv6Mapped bits)) = .v4 bits := by
  have low := bits.isLt
  have high : (toIpv6Mapped bits).extractLsb' 32 96 = 0xffff#96 := by
    apply BitVec.eq_of_toNat_eq
    rw [BitVec.extractLsb'_toNat, toNat_toIpv6Mapped, Nat.shiftRight_eq_div_pow, BitVec.toNat_ofNat]
    omega
  have rest : (toIpv6Mapped bits).extractLsb' 0 32 = bits := by
    apply BitVec.eq_of_toNat_eq
    rw [BitVec.extractLsb'_toNat, toNat_toIpv6Mapped, Nat.shiftRight_zero]
    omega
  rw [IpAddr.toCanonical, if_pos high, rest]

@[simp] theorem length_addressBytes (ip : IpAddr) : (addressBytes ip).length = 16 := by
  cases ip <;> exact length_big ..

theorem decodeAddress_big (bits : BitVec 128) :
    decodeAddress (big 16 bits.toNat) = IpAddr.toCanonical (.v6 bits) := by
  rw [decodeAddress, ofBig_big, Nat.mod_eq_of_lt (by have := bits.isLt; omega), BitVec.ofNat_toNat,
    BitVec.setWidth_eq]

theorem decodeAddress_addressBytes (ip : IpAddr) :
    decodeAddress (addressBytes ip) = ip.toCanonical := by
  cases ip with
  | v4 bits => rw [addressBytes, decodeAddress_big, toCanonical_toIpv6Mapped, IpAddr.toCanonical]
  | v6 bits => rw [addressBytes, decodeAddress_big]

theorem decodePort_little (port : UInt16) : decodePort (little 2 port.toNat) = port := by
  rw [decodePort, ofLittle_little, Nat.mod_eq_of_lt (by have := port.toNat_lt; omega),
    UInt16.ofNat_toNat]

theorem decodeKey_encodeKey (here peer : SocketAddr) :
    decodeKey (encodeKey here peer) = some (canonical here, canonical peer) := by
  have hereIp : slice (encodeKey here peer) 0 16 = some (addressBytes here.ip) :=
    slice_append_left _ (length_addressBytes _)
  have peerIp : slice (encodeKey here peer) 16 16 = some (addressBytes peer.ip) := by
    rw [encodeKey, slice_append_right _ _ (by simp), length_addressBytes]
    exact slice_append_left _ (length_addressBytes _)
  have herePort : slice (encodeKey here peer) 32 2 = some (little 2 here.port.toNat) := by
    rw [encodeKey, slice_append_right _ _ (by simp), length_addressBytes,
      slice_append_right _ _ (by simp), length_addressBytes]
    exact slice_append_left _ (length_little ..)
  have peerPort : slice (encodeKey here peer) 34 2 = some (little 2 peer.port.toNat) := by
    rw [encodeKey, slice_append_right _ _ (by simp), length_addressBytes,
      slice_append_right _ _ (by simp), length_addressBytes, slice_append_right _ _ (by simp),
      length_little]
    exact slice_whole (length_little ..)
  simp only [decodeKey, hereIp, peerIp, herePort, peerPort, Option.bind_eq_bind, Option.bind_some,
    decodeAddress_addressBytes, decodePort_little]
  rfl

end Gfe.Wire
