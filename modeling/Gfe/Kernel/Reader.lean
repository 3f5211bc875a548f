import Gfe.Kernel.TcpEvents
import Gfe.Listen.ListenerAt
import Mathlib.Logic.Function.Basic

/-! # What the node makes of the kernel's reports

The kernel program is called for the sockets of the node, at any time. A task of the node
takes its records from the ring and hands on every connection they are about, to be counted
and logged. What it comes to is compared with a tracker that knows a connection by its
addresses and sees what really happens to it.
-/

namespace Gfe.Wire

/-! ## What really happens -/

/-- A call of the kernel program for a socket between two addresses. -/
structure Call where
  event : Event
  here : SocketAddr
  peer : SocketAddr
  described : Describes here peer event.ctx

structure Opened where
  since : UInt64
  origin : Origin

/-- The connections that are open and not forgotten, in their order those that have closed before
    they were forgotten, and how many more have that the ring had no room for. One that was
    forgotten closes unseen. -/
structure Tracker where
  opened : SocketAddr × SocketAddr → Option Opened
  closed : List ClosedConnection
  lost : Nat

namespace Tracker

def empty : Tracker := ⟨fun _ => none, [], 0⟩

def closing (ctx : SockOps) (now : UInt64) (old : UInt32) (opened : Opened)
    (ends : SocketAddr × SocketAddr) : ClosedConnection where
  here := ends.1
  peer := ends.2
  origin := opened.origin
  ending := ending old.toUInt8
  lifetime := now.toNat - opened.since.toNat
  rtt := fromMicros (ctx.srttUs >>> 3)
  minRtt := fromMicros ctx.rttMin
  retransmits := ctx.totalRetrans
  segmentsSent := ctx.segsOut
  bytesAcked := ctx.bytesAcked
  bytesReceived := ctx.bytesReceived

def close (tracker : Tracker) (ends : SocketAddr × SocketAddr) (connection : ClosedConnection)
    (full : Bool) : Tracker where
  opened := Function.update tracker.opened ends none
  closed := if full then tracker.closed else tracker.closed ++ [connection]
  lost := if full then tracker.lost + 1 else tracker.lost

/-- The kernel has made room for another connection. -/
def forget (tracker : Tracker) (ends : SocketAddr × SocketAddr) : Tracker :=
  { tracker with opened := Function.update tracker.opened ends none }

def see (tracker : Tracker) (call : Call) : Tracker :=
  let ends := (canonical call.here, canonical call.peer)
  match call.event.ctx.op with
  | .passiveEstablished => { tracker with
      opened := Function.update tracker.opened ends (some ⟨call.event.now, .accepted⟩) }
  | .activeEstablished => { tracker with
      opened := Function.update tracker.opened ends (some ⟨call.event.now, .connected⟩) }
  | .state old new =>
    if new ≠ tcpClose then tracker
    else
      match tracker.opened ends with
      | none => tracker
      | some opened =>
        tracker.close ends (closing call.event.ctx call.event.now old opened ends)
          call.event.full
  | .other => tracker

end Tracker

/-! ## The task -/

/-- The kernel's maps, what the task has taken from the ring and not handed out, and what it has
    recorded, with the listener of each. `reading` is set while it empties the ring. -/
structure System where
  maps : Maps
  tracker : Tracker
  reading : Bool
  pending : List ClosedConnection
  records : List (ClosedConnection × Option Str)

def System.attached : System where
  maps := ⟨∅, [], 0⟩
  tracker := .empty
  reading := false
  pending := []
  records := []

/-- The connections of a record of the ring; one of another size is skipped. -/
def readRecord (bytes : List UInt8) : List ClosedConnection :=
  if bytes.length = closedLen then (decodeClosed bytes).toList else []

def listenerOf (listenerAt : SocketAddr → Option Listener) (connection : ClosedConnection) :
    Option Str :=
  match connection.origin with
  | .accepted => (listenerAt connection.here).map fun listener => listener.id.id
  | .connected => none

/-- The kernel program is called. -/
def System.calling (s : System) (call : Call) : System :=
  { s with
    maps := tcpEvents call.event.ctx call.event.now call.event.full s.maps
    tracker := s.tracker.see call }

inductive System.Step (s : System) : System → Prop where
  | call (call : Call) : Step s (s.calling call)
  /-- The map of open connections drops one to make room. -/
  | evict (here peer : SocketAddr) : Step s { s with
      maps := { s.maps with openConns := s.maps.openConns.erase (encodeKey here peer) }
      tracker := s.tracker.forget (canonical here, canonical peer) }
  /-- `next` hands out a connection, and `report` records it, with the listeners there are. -/
  | report {connection rest} (listeners : Listeners Listener) (localAddr : SocketId → SocketAddr)
      (order : List RunningListener) : s.reading = false → s.pending = connection :: rest →
      order.Perm listeners.running.values → Step s { s with
        pending := rest
        records := s.records ++
          [(connection, listenerOf (listeners.listenerAt localAddr order) connection)] }
  | wake : s.reading = false → s.pending = [] → Step s { s with reading := true }
  | take {bytes rest} : s.reading = true → s.maps.closedConns = bytes :: rest → Step s { s with
      maps := { s.maps with closedConns := rest }
      pending := s.pending ++ readRecord bytes }
  | clear : s.reading = true → s.maps.closedConns = [] → Step s { s with reading := false }

abbrev System.Runs : System → System → Prop := Relation.ReflTransGen System.Step

/-! ## What the kernel remembers -/

def Opened.conn (opened : Opened) : ConnOpen where
  establishedNs := opened.since
  accepted := match opened.origin with
    | .accepted => 1
    | .connected => 0

theorem Opened.establishedNs_conn (opened : Opened) : opened.conn.establishedNs = opened.since :=
  rfl

theorem encodeKey_eq_iff {here peer here' peer' : SocketAddr} :
    encodeKey here' peer' = encodeKey here peer ↔
      (canonical here', canonical peer') = (canonical here, canonical peer) := by
  constructor
  · intro same
    have read := congrArg decodeKey same
    rw [decodeKey_encodeKey, decodeKey_encodeKey] at read
    exact Option.some.inj read
  · intro same
    obtain ⟨first, second⟩ := Prod.mk.inj same
    rw [← encodeKey_canonical here' peer', first, second, encodeKey_canonical]

theorem readRecord_closedRecord {here peer : SocketAddr} {ctx : SockOps}
    (described : Describes here peer ctx) (now : UInt64) (old : UInt32) (opened : Opened) :
    readRecord (closedRecord ctx now old opened.conn).memory =
      [Tracker.closing ctx now old opened (canonical here, canonical peer)] := by
  have read : decodeClosed (closedRecord ctx now old opened.conn).memory =
      some (Tracker.closing ctx now old opened (canonical here, canonical peer)) := by
    obtain ⟨since, origin⟩ := opened
    rw [decodeClosed_memory described.decodeKey_fillKey]
    cases origin <;> rfl
  rw [readRecord, if_pos (ConnClosed.length_memory _), read]
  rfl

def Remembers (openConns : HashMap (List UInt8) ConnOpen)
    (opened : SocketAddr × SocketAddr → Option Opened) : Prop :=
  ∀ here peer, openConns.lookup (encodeKey here peer) =
    (opened (canonical here, canonical peer)).map Opened.conn

section

variable {openConns : HashMap (List UInt8) ConnOpen}
  {opened : SocketAddr × SocketAddr → Option Opened}

theorem Remembers.insert (remembers : Remembers openConns opened) (here peer : SocketAddr)
    (value : Opened) :
    Remembers (openConns.insert (encodeKey here peer) value.conn)
      (Function.update opened (canonical here, canonical peer) (some value)) := by
  intro here' peer'
  rw [HashMap.lookup_insert, if_congr encodeKey_eq_iff rfl rfl, Function.update_apply, remembers]
  split_ifs <;> rfl

theorem Remembers.erase (remembers : Remembers openConns opened) (here peer : SocketAddr) :
    Remembers (openConns.erase (encodeKey here peer))
      (Function.update opened (canonical here, canonical peer) none) := by
  intro here' peer'
  rw [HashMap.lookup_erase, if_congr encodeKey_eq_iff rfl rfl, Function.update_apply, remembers]
  split_ifs <;> rfl

end

/-! ## What the task has recorded -/

/-- What the kernel and the task have is what happened: the connections that are open, and in
    their order those that have closed and found room in the ring. -/
structure System.Tracked (s : System) : Prop where
  remembers : Remembers s.maps.openConns s.tracker.opened
  arrives : s.records.map Prod.fst ++ (s.pending ++ s.maps.closedConns.flatMap readRecord) =
    s.tracker.closed
  lost : s.maps.lost = s.tracker.lost

theorem tracked_attached : System.attached.Tracked where
  remembers := fun _ _ => rfl
  arrives := rfl
  lost := rfl

theorem tracked_close {s : System} {here peer : SocketAddr} {ctx : SockOps} {opened : Opened}
    (tracked : s.Tracked) (described : Describes here peer ctx) (now : UInt64) (old : UInt32)
    (full : Bool) :
    System.Tracked { s with
      maps :=
        let reported := if full then { s.maps with lost := s.maps.lost + 1 }
          else { s.maps with
            closedConns := s.maps.closedConns ++
              [(closedRecord ctx now old opened.conn).memory] }
        { reported with openConns := reported.openConns.erase (encodeKey here peer) }
      tracker := s.tracker.close (canonical here, canonical peer)
        (Tracker.closing ctx now old opened (canonical here, canonical peer)) full } := by
  obtain ⟨remembers, arrives, lost⟩ := tracked
  cases full with
  | true => exact ⟨remembers.erase here peer, arrives, congrArg (· + 1) lost⟩
  | false =>
    refine ⟨remembers.erase here peer, ?_, lost⟩
    have added : (s.maps.closedConns ++
        [(closedRecord ctx now old opened.conn).memory]).flatMap readRecord =
          s.maps.closedConns.flatMap readRecord ++
            [Tracker.closing ctx now old opened (canonical here, canonical peer)] := by
      rw [List.flatMap_append, List.flatMap_singleton, readRecord_closedRecord described]
    change _ ++ (_ ++ (s.maps.closedConns ++ _).flatMap readRecord) = s.tracker.closed ++ _
    rw [added, ← arrives, List.append_assoc, List.append_assoc]

/-- The calls of the program keep up with what happens. -/
theorem tracked_call {s : System} (tracked : s.Tracked) (call : Call) :
    (s.calling call).Tracked := by
  obtain ⟨⟨ctx, now, full⟩, here, peer, described⟩ := call
  rw [System.calling, tcpEvents, if_neg described.family, Tracker.see]
  dsimp only
  rw [described.memory_fillKey]
  cases ctx.op with
  | passiveEstablished =>
    exact ⟨tracked.remembers.insert here peer ⟨now, .accepted⟩, tracked.arrives, tracked.lost⟩
  | activeEstablished =>
    exact ⟨tracked.remembers.insert here peer ⟨now, .connected⟩, tracked.arrives, tracked.lost⟩
  | other => exact tracked
  | state old new =>
    dsimp only
    split
    · exact tracked
    · rw [tracked.remembers here peer]
      cases s.tracker.opened (canonical here, canonical peer) with
      | none => exact tracked
      | some opened => exact tracked_close tracked described now old full

theorem System.Step.tracked {s t : System} (step : s.Step t) (tracked : s.Tracked) : t.Tracked := by
  cases step with
  | call call => exact tracked_call tracked call
  | evict here peer =>
    exact ⟨tracked.remembers.erase here peer, tracked.arrives, tracked.lost⟩
  | report listeners localAddr order idle first =>
    refine ⟨tracked.remembers, ?_, tracked.lost⟩
    rw [← tracked.arrives, first]
    simp
  | wake => exact ⟨tracked.remembers, tracked.arrives, tracked.lost⟩
  | take reading first =>
    refine ⟨tracked.remembers, ?_, tracked.lost⟩
    rw [← tracked.arrives, first]
    simp
  | clear => exact ⟨tracked.remembers, tracked.arrives, tracked.lost⟩

theorem System.Runs.tracked {s : System} (run : System.attached.Runs s) : s.Tracked := by
  induction run with
  | refl => exact tracked_attached
  | tail _ step ih => exact step.tracked ih

/-- At every moment, the connections the task has recorded, those it has in hand and those in
    the ring are, in their order, those that have closed before they were forgotten, and the ones
    the ring had no room for are counted. -/
theorem System.reports_what_closed {s : System} (run : System.attached.Runs s) :
    s.records.map Prod.fst ++ (s.pending ++ s.maps.closedConns.flatMap readRecord) =
        s.tracker.closed ∧
      s.maps.lost = s.tracker.lost :=
  ⟨run.tracked.arrives, run.tracked.lost⟩

theorem describes_mapped_closing :
    Describes mappedHere mappedPeer { mappedSocket with op := .state 1 tcpClose } :=
  .inet6 rfl rfl rfl ⟨by decide⟩ ⟨by decide⟩ rfl (by decide)

/-- A client at `10.0.0.7` connects and half a millisecond later resets the connection. -/
def mappedOpening : Call where
  event := ⟨mappedSocket, 500, false⟩
  here := mappedHere
  peer := mappedPeer
  described := describes_mapped

def mappedClosing : Call where
  event := ⟨{ mappedSocket with op := .state 1 tcpClose }, 500500, false⟩
  here := mappedHere
  peer := mappedPeer
  described := describes_mapped_closing

theorem System.reports_what_closed_mapped :
    ∃ s : System, System.attached.Runs s ∧ s.reading = true ∧
      s.maps.closedConns.flatMap readRecord =
        [⟨⟨.v4 0x7f000001, 443⟩, ⟨.v4 0x0a000007, 50000⟩, .accepted, .aborted, 500000, 100000,
          90000, 1, 12, 4000, 700⟩] := by
  have run : System.attached.Runs
      { (System.attached.calling mappedOpening).calling mappedClosing with reading := true } :=
    ((Relation.ReflTransGen.single (.call mappedOpening)).tail (.call mappedClosing)).tail
      (.wake rfl rfl)
  obtain ⟨arrives, _⟩ := System.reports_what_closed run
  exact ⟨_, run, rfl, arrives.trans (by decide)⟩

/-- At every moment, the node is told how long ago a connection was established, if it is open
    and not forgotten, and of no other connection. -/
theorem System.waited_since_established {s : System} (run : System.attached.Runs s)
    (here peer : SocketAddr) (now : UInt64) :
    acceptQueueWait s.maps here peer now =
      (s.tracker.opened (canonical here, canonical peer)).map
        fun opened => now.toNat - opened.since.toNat := by
  rw [acceptQueueWait, run.tracked.remembers here peer]
  cases s.tracker.opened (canonical here, canonical peer) with
  | none => rfl
  | some opened =>
    simp only [Option.map_some, establishedNs_memory, Opened.establishedNs_conn]

theorem System.waited_since_established_mapped :
    acceptQueueWait (System.attached.calling mappedOpening).maps mappedHere mappedPeer 2000 =
      some 1500 := by
  have run : System.attached.Runs (System.attached.calling mappedOpening) :=
    Relation.ReflTransGen.single (.call mappedOpening)
  rw [System.waited_since_established run]
  decide

end Gfe.Wire
