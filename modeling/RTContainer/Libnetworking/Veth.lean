import Mathlib.Data.List.Basic

/-! The virtual ethernet interfaces: their receive queues, creation, pairing and
destruction, and the transmission to the peer. Messages, the hardware address and the
attachment to the network stack are left out. A step of the source that goes through a
pointer to a freed record has no result here (`none`). -/

set_option autoImplicit false

namespace RTContainer.Libnetworking

open Function

/-- A packet: where its first `mbuf` is, and the length in its header. -/
structure Mbuf where
  address : Nat
  pkthdrLen : Int
  deriving DecidableEq

def vethQueueSize : Int := 64

/-- `struct mbuf_queue`; the list `head` is given by the packets of its entries. -/
structure MbufQueue where
  head : List Mbuf
  count : Int
  maxSize : Int
  deriving DecidableEq

def mbufQueueInit (maxSize : Int) : Option MbufQueue :=
  if maxSize ≤ 0 then none else some ⟨[], 0, maxSize⟩

namespace MbufQueue

/-- `mbuf_queue_enqueue` of a packet: its result, the queue, and what was given to
`m_freem()`. The flag tells whether `malloc()` has an entry. -/
def enqueue (queue : MbufQueue) (m : Mbuf) (entry : Bool) : Int × MbufQueue × List Mbuf :=
  if queue.count ≥ queue.maxSize then (-1, queue, [m])
  else if entry then
    (0, { queue with head := queue.head ++ [m], count := queue.count + 1 }, [])
  else (-1, queue, [m])

def dequeue (queue : MbufQueue) : Option Mbuf × MbufQueue :=
  match queue.head with
  | [] => (none, queue)
  | m :: rest => (some m, { queue with head := rest, count := queue.count - 1 })

def destroy (queue : MbufQueue) : List Mbuf :=
  match _dequeued : queue.dequeue with
  | (none, _) => []
  | (some m, rest) => m :: rest.destroy
termination_by queue.head.length
decreasing_by
  unfold dequeue at _dequeued
  split at _dequeued
  · nomatch _dequeued
  · next filled =>
      cases _dequeued
      rw [filled]
      exact Nat.lt_succ_self _

end MbufQueue

/-- `struct veth_softc` with the send queue and the output statistics of its
interface; `width` is that of an `unsigned long`. -/
structure VethSoftc (width : Nat) where
  ifSnd : List Mbuf
  ifOpackets : BitVec width
  ifObytes : BitVec width
  ifOerrors : BitVec width
  peer : Option Nat
  rxQueue : MbufQueue
  rxTaskId : BitVec 32
  txPackets : BitVec width
  txBytes : BitVec width
  txDropped : BitVec width
  running : Bool

/-- The interfaces at their addresses. -/
abbrev VethSoftcs (width : Nat) := Nat → Option (VethSoftc width)

variable {width : Nat}

def newSoftc (width : Nat) (rxQueue : MbufQueue) : VethSoftc width where
  ifSnd := []
  ifOpackets := 0
  ifObytes := 0
  ifOerrors := 0
  peer := none
  rxQueue := rxQueue
  rxTaskId := 0
  txPackets := 0
  txBytes := 0
  txDropped := 0
  running := false

variable (softcs : VethSoftcs width)

/-- `veth_create` with what `malloc()` returns: the result and the interfaces. -/
def vethCreate (name : Option String) (allocated : Option Nat) : Option Nat × VethSoftcs width :=
  match name, allocated with
  | some _, some sc =>
    match mbufQueueInit vethQueueSize with
    | none => (none, softcs)
    | some rxQueue => (some sc, update softcs sc (some (newSoftc width rxQueue)))
  | _, _ => (none, softcs)

def writePeer (sc : Nat) (peer : Option Nat) : Option (VethSoftcs width) :=
  (softcs sc).map fun softc => update softcs sc (some { softc with peer := peer })

def vethSetPair (veth1 veth2 : Option Nat) : Option (Int × VethSoftcs width) :=
  match veth1, veth2 with
  | some veth1, some veth2 =>
    if veth1 = veth2 then some (-1, softcs)
    else do
      let softcs ← writePeer softcs veth1 (some veth2)
      let softcs ← writePeer softcs veth2 (some veth1)
      return (0, softcs)
  | _, _ => some (-1, softcs)

def breakPeer (sc : Nat) (peer : Option Nat) : Option (VethSoftcs width) :=
  match peer with
  | none => some softcs
  | some peer => do
      let softcs ← writePeer softcs peer none
      writePeer softcs sc none

/-- `veth_destroy`: the interfaces, and the packets that are freed. -/
def vethDestroy (sc : Option Nat) : Option (VethSoftcs width × List Mbuf) :=
  match sc with
  | none => some (softcs, [])
  | some sc => do
      let softc ← softcs sc
      let softcs := update softcs sc (some { softc with running := false, rxTaskId := 0 })
      let softcs ← breakPeer softcs sc softc.peer
      return (update softcs sc none, softc.rxQueue.destroy)

end RTContainer.Libnetworking
