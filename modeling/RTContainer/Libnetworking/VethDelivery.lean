import RTContainer.Lib.Run
import RTContainer.Libnetworking.Veth

/-! Delivery from an interface to its peer, for every interleaving of `veth_start` on the one
and `mbuf_queue_dequeue` on the receive queue of the other. `veth_start` takes a packet from
the send queue, hands it to the queue of the peer under the lock of that queue, and counts
it; between these steps the other side can go on. -/

set_option autoImplicit false

namespace RTContainer.Libnetworking

variable {width : Nat}

/-- Where the sending thread is in `veth_start`. -/
inductive VethStartPoint where
  | outside
  | loop
  | taken (m : Mbuf) (len : Int)
  | enqueued (result : Int) (len : Int)
  deriving DecidableEq

/-- An interface and its peer, the sending thread, and the history of the link: the packets
taken from `if_snd`, those offered to the queue of the peer and whether it has stored
them, those dequeued, and those that `m_freem()` got. -/
structure VethLink (width : Nat) where
  sender : VethSoftc width
  receiver : VethSoftc width
  point : VethStartPoint
  taken : List Mbuf
  offered : List (Mbuf × Bool)
  received : List Mbuf
  freed : List Mbuf

namespace VethLink

variable (link : VethLink width)

def start : VethLink width :=
  if !link.sender.running || link.sender.peer.isNone then link
  else { link with point := .loop }

def ifDequeue : VethLink width :=
  match link.sender.ifSnd with
  | [] => { link with point := .outside }
  | m :: rest =>
    { link with
      sender := { link.sender with ifSnd := rest }
      point := .taken m m.pkthdrLen
      taken := link.taken ++ [m] }

def enqueue (link : VethLink width) (m : Mbuf) (len : Int) (entry : Bool) : VethLink width :=
  let (result, rxQueue, freed) := link.receiver.rxQueue.enqueue m entry
  { link with
    receiver := { link.receiver with rxQueue := rxQueue }
    point := .enqueued result len
    offered := link.offered ++ [(m, decide (result = 0))]
    freed := link.freed ++ freed }

/-- The statistics of `veth_start`. -/
def count (result len : Int) : VethLink width :=
  if result = 0 then
    { link with
      sender := { link.sender with
        txPackets := link.sender.txPackets + 1
        txBytes := link.sender.txBytes + BitVec.ofInt width len
        ifOpackets := link.sender.ifOpackets + 1
        ifObytes := link.sender.ifObytes + BitVec.ofInt width len }
      point := .loop }
  else
    { link with
      sender := { link.sender with
        txDropped := link.sender.txDropped + 1
        ifOerrors := link.sender.ifOerrors + 1 }
      point := .loop }

/-- `mbuf_queue_dequeue` on the receive queue of the peer. -/
def dequeue (link : VethLink width) : VethLink width :=
  let (m, rxQueue) := link.receiver.rxQueue.dequeue
  { link with
    receiver := { link.receiver with rxQueue := rxQueue }
    received := link.received ++ m.toList }

inductive Call where
  | output (m : Mbuf)
  | setRunning (running : Bool)
  | start
  | ifDequeue
  | enqueue (entry : Bool)
  | count
  | dequeue

/-- The stack fills the send queue, the interface is set up or down, the sending thread
makes its next step, or a receiver dequeues. A step of the sending thread that is not
its next changes nothing. -/
def step (call : Call) : VethLink width :=
  match call, link.point with
  | .output m, _ =>
    { link with sender := { link.sender with ifSnd := link.sender.ifSnd ++ [m] } }
  | .setRunning running, _ => { link with sender := { link.sender with running := running } }
  | .start, .outside => link.start
  | .ifDequeue, .loop => link.ifDequeue
  | .enqueue entry, .taken m len => link.enqueue m len entry
  | .count, .enqueued result len => link.count result len
  | .dequeue, _ => link.dequeue
  | _, _ => link

/-- The packet that `veth_start` has taken and not yet offered. -/
def inHand : List Mbuf :=
  match link.point with
  | .taken m _ => [m]
  | _ => []

/-- The packets that `veth_start` has taken and not yet counted. -/
def uncounted : Nat :=
  match link.point with
  | .taken _ _ | .enqueued _ _ => 1
  | _ => 0

def stored : List Mbuf :=
  (link.offered.filter Prod.snd).map Prod.fst

def refused : List Mbuf :=
  (link.offered.filter fun offer => !offer.2).map Prod.fst

def pending : Nat × Nat :=
  match link.point with
  | .enqueued result _ => if result = 0 then (1, 0) else (0, 1)
  | _ => (0, 0)

structure Accounts (link : VethLink width) : Prop where
  /-- Each packet taken has been offered to the peer, in this order, or is in hand. -/
  taken : link.taken = link.offered.map Prod.fst ++ link.inHand
  /-- The packets stored have been received, in this order, or are queued. -/
  stored : link.stored = link.received ++ link.receiver.rxQueue.head
  /-- The packets refused are those that have been freed. -/
  refused : link.refused = link.freed
  txPackets : link.sender.txPackets + BitVec.ofNat width link.pending.1 =
    BitVec.ofNat width link.stored.length
  txDropped : link.sender.txDropped + BitVec.ofNat width link.pending.2 =
    BitVec.ofNat width link.refused.length
  counted : link.receiver.rxQueue.count = link.receiver.rxQueue.head.length
  bounded : link.receiver.rxQueue.count ≤ link.receiver.rxQueue.maxSize

/-- In addition, what has been taken is what is counted, but for the packet that
`veth_start` is busy with. -/
structure Delivers (link : VethLink width) : Prop extends Accounts link where
  total : link.sender.txPackets + link.sender.txDropped +
    BitVec.ofNat width link.uncounted = BitVec.ofNat width link.taken.length

variable {link}

theorem stored_refused_length (link : VethLink width) :
    link.stored.length + link.refused.length = link.offered.length := by
  unfold stored refused
  rw [List.length_map, List.length_map]
  exact (List.length_eq_length_filter_add Prod.snd).symm

theorem uncounted_eq (link : VethLink width) :
    link.uncounted = link.pending.1 + link.pending.2 + link.inHand.length := by
  unfold uncounted pending inHand
  cases link.point with
  | outside => rfl
  | loop => rfl
  | taken m len => rfl
  | enqueued result len =>
    dsimp only
    split <;> rfl

theorem Accounts.delivers (accounts : link.Accounts) : link.Delivers where
  toAccounts := accounts
  total := by
    have lengths : link.taken.length =
        link.stored.length + link.refused.length + link.inHand.length := by
      rw [stored_refused_length, accounts.taken, List.length_append, List.length_map]
    rw [uncounted_eq, lengths, BitVec.ofNat_add, BitVec.ofNat_add, BitVec.ofNat_add,
      BitVec.ofNat_add, ← accounts.txPackets, ← accounts.txDropped]
    ac_rfl

theorem Accounts.start (accounts : link.Accounts) (outside : link.point = .outside) :
    link.start.Accounts := by
  unfold VethLink.start
  split
  · exact accounts
  · have taken := accounts.taken
    have packets := accounts.txPackets
    have dropped := accounts.txDropped
    unfold inHand at taken
    unfold pending at packets dropped
    rw [outside] at taken packets dropped
    exact ⟨taken, accounts.stored, accounts.refused, packets, dropped, accounts.counted,
      accounts.bounded⟩

theorem Accounts.ifDequeue (accounts : link.Accounts) (loop : link.point = .loop) :
    link.ifDequeue.Accounts := by
  have taken := accounts.taken
  have packets := accounts.txPackets
  have dropped := accounts.txDropped
  unfold inHand at taken
  unfold pending at packets dropped
  rw [loop] at taken packets dropped
  unfold VethLink.ifDequeue
  split
  · exact ⟨taken, accounts.stored, accounts.refused, packets, dropped, accounts.counted,
      accounts.bounded⟩
  · next m rest _ =>
      refine ⟨?_, accounts.stored, accounts.refused, packets, dropped, accounts.counted,
        accounts.bounded⟩
      rw [taken, List.append_nil]
      rfl

theorem enqueue_cases (queue : MbufQueue) (m : Mbuf) (entry : Bool) :
    queue.enqueue m entry = (-1, queue, [m]) ∨
      queue.count < queue.maxSize ∧ queue.enqueue m entry =
        (0, { queue with head := queue.head ++ [m], count := queue.count + 1 }, []) := by
  unfold MbufQueue.enqueue
  split
  · exact .inl rfl
  · next room =>
      cases entry with
      | false => exact .inl rfl
      | true => exact .inr ⟨Int.not_le.mp room, rfl⟩

section

variable (accounts : link.Accounts)
include accounts

theorem Accounts.enqueue {m : Mbuf} {len : Int} (inHand : link.point = .taken m len)
    (entry : Bool) :
    (link.enqueue m len entry).Accounts := by
  have taken := accounts.taken
  have packets := accounts.txPackets
  have dropped := accounts.txDropped
  have stored := accounts.stored
  have refused := accounts.refused
  have counted := accounts.counted
  unfold VethLink.inHand at taken
  unfold pending at packets dropped
  rw [inHand] at taken packets dropped
  unfold VethLink.stored at stored packets
  unfold VethLink.refused at refused dropped
  rcases enqueue_cases link.receiver.rxQueue m entry with fails | ⟨room, stores⟩
  · simp only [VethLink.enqueue, fails]
    refine ⟨?_, ?_, ?_, ?_, ?_, counted, accounts.bounded⟩
    · simpa [VethLink.inHand] using taken
    · simpa [VethLink.stored] using stored
    · simpa [VethLink.refused] using refused
    · simpa [VethLink.stored, pending] using packets
    · simpa [VethLink.refused, pending, BitVec.ofNat_add] using dropped
  · simp only [VethLink.enqueue, stores]
    refine ⟨?_, ?_, ?_, ?_, ?_, ?_, Int.add_one_le_of_lt room⟩
    · simpa [VethLink.inHand] using taken
    · simp [VethLink.stored, stored]
    · simpa [VethLink.refused] using refused
    · simpa [VethLink.stored, pending, BitVec.ofNat_add] using packets
    · simpa [VethLink.refused, pending] using dropped
    · simp [counted]

theorem Accounts.count {result len : Int} (enqueued : link.point = .enqueued result len) :
    (link.count result len).Accounts := by
  have taken := accounts.taken
  have packets := accounts.txPackets
  have dropped := accounts.txDropped
  unfold inHand at taken
  unfold pending at packets dropped
  rw [enqueued] at taken packets dropped
  unfold VethLink.count
  split
  · next zero =>
      simp only [zero, if_true] at packets dropped
      refine ⟨taken, accounts.stored, accounts.refused, ?_, dropped, accounts.counted,
        accounts.bounded⟩
      exact (BitVec.add_zero _).trans packets
  · next failed =>
      simp only [failed, if_false] at packets dropped
      refine ⟨taken, accounts.stored, accounts.refused, packets, ?_, accounts.counted,
        accounts.bounded⟩
      exact (BitVec.add_zero _).trans dropped

theorem Accounts.dequeue : link.dequeue.Accounts := by
  have stored := accounts.stored
  have counted := accounts.counted
  have bounded := accounts.bounded
  cases filled : link.receiver.rxQueue.head with
  | nil =>
    have same : link.receiver.rxQueue.dequeue = (none, link.receiver.rxQueue) := by
      simp only [MbufQueue.dequeue, filled]
    simp only [VethLink.dequeue, same]
    refine ⟨accounts.taken, ?_, accounts.refused, accounts.txPackets, accounts.txDropped,
      counted, bounded⟩
    rw [Option.toList_none, List.append_nil]
    exact stored
  | cons m rest =>
    have removes : link.receiver.rxQueue.dequeue = (some m, { link.receiver.rxQueue with
        head := rest, count := link.receiver.rxQueue.count - 1 }) := by
      simp only [MbufQueue.dequeue, filled]
    rw [filled] at stored counted
    simp only [VethLink.dequeue, removes]
    refine ⟨accounts.taken, ?_, accounts.refused, accounts.txPackets, accounts.txDropped,
      ?_, Int.le_trans (Int.sub_le_self _ (by decide)) bounded⟩
    · rw [Option.toList_some, List.append_assoc]
      exact stored
    · show link.receiver.rxQueue.count - 1 = (rest.length : Int)
      rw [counted, List.length_cons]
      omega

/-- A packet is received in its turn, queued or dropped, whatever the interleaving. -/
theorem Accounts.step (call : Call) : (link.step call).Accounts := by
  unfold VethLink.step
  split
  · exact ⟨accounts.taken, accounts.stored, accounts.refused, accounts.txPackets,
      accounts.txDropped, accounts.counted, accounts.bounded⟩
  · exact ⟨accounts.taken, accounts.stored, accounts.refused, accounts.txPackets,
      accounts.txDropped, accounts.counted, accounts.bounded⟩
  · next outside => exact accounts.start outside
  · next loop => exact accounts.ifDequeue loop
  · next entry m len inHand => exact accounts.enqueue inHand entry
  · next result len enqueued => exact accounts.count enqueued
  · exact accounts.dequeue
  · exact accounts

end

/-- A link whose interfaces have been created with receive queues of some size, before
anything is sent. -/
structure Fresh (link : VethLink width) (maxSize : Int) : Prop where
  queue : mbufQueueInit maxSize = some link.receiver.rxQueue
  txPackets : link.sender.txPackets = 0
  txDropped : link.sender.txDropped = 0
  outside : link.point = .outside
  taken : link.taken = []
  offered : link.offered = []
  received : link.received = []
  freed : link.freed = []

theorem Fresh.accounts {maxSize : Int} (fresh : link.Fresh maxSize) : link.Accounts := by
  have queue := fresh.queue
  unfold mbufQueueInit at queue
  split at queue
  · nomatch queue
  · next positive =>
      have empty := Option.some.inj queue
      refine ⟨?_, ?_, ?_, ?_, ?_, ?_, ?_⟩
      · simp only [inHand, fresh.taken, fresh.offered, fresh.outside, List.map_nil, List.append_nil]
      · simp only [stored, fresh.offered, fresh.received, ← empty, List.filter_nil,
          List.map_nil, List.append_nil]
      · simp only [refused, fresh.offered, fresh.freed, List.filter_nil, List.map_nil]
      · simp [stored, pending, fresh.offered, fresh.outside, fresh.txPackets]
      · simp [refused, pending, fresh.offered, fresh.outside, fresh.txDropped]
      · rw [← empty]
        rfl
      · rw [← empty]
        exact Int.le_of_lt (Int.not_le.mp positive)

/-- In every state of every interleaving the packets arrive in their order, each is received
once, queued, or dropped, and the counters tell their number, as far as their width
goes. -/
theorem delivers_throughout {maxSize : Int} (fresh : link.Fresh maxSize) (calls : List Call) :
    Machine.Throughout step Delivers link calls := by
  have any : Machine.Meets step (fun _ _ => True) link calls :=
    Machine.meets_of_forall (fun _ _ => trivial) link calls
  have always := Machine.throughout_of_preserved fresh.accounts
    (fun _ call accounts _ => Accounts.step accounts call) any
  exact always.imp fun _ accounts => accounts.delivers

/-- An interface that is up, and its peer. -/
def ofPair (sender receiver : VethSoftc width) (peer : Nat) : VethLink width where
  sender := { sender with running := true, peer := some peer }
  receiver := receiver
  point := .outside
  taken := []
  offered := []
  received := []
  freed := []

def created (width : Nat) : VethSoftc width := newSoftc width ⟨[], 0, vethQueueSize⟩

theorem created_fresh (width peer : Nat) :
    (ofPair (created width) (created width) peer).Fresh vethQueueSize :=
  ⟨rfl, rfl, rfl, rfl, rfl, rfl, rfl, rfl⟩

/-- A packet is received while the next one is taken. -/
theorem delivers_throughout_two :
    Machine.Throughout step Delivers (ofPair (created 32) (created 32) 0x200)
      [.output ⟨0x1000, 60⟩, .output ⟨0x1100, 1500⟩, .start, .ifDequeue, .enqueue true, .count,
        .ifDequeue, .dequeue, .enqueue false, .count, .ifDequeue] :=
  delivers_throughout (created_fresh 32 0x200) _

/-- A packet is put on the send queue, and `veth_start` is done with it. -/
def packetRound : List Call :=
  [.output ⟨0x1000, 60⟩, .ifDequeue, .enqueue true, .count]

theorem packetRound_takes (loop : link.point = .loop) (empty : link.sender.ifSnd = []) :
    (Machine.run step link packetRound).point = .loop ∧
      (Machine.run step link packetRound).sender.ifSnd = [] ∧
      (Machine.run step link packetRound).taken.length = link.taken.length + 1 := by
  simp only [packetRound, Machine.run_cons, Machine.run_nil, step, loop, empty, VethLink.ifDequeue,
    List.nil_append, VethLink.enqueue, VethLink.count]
  split <;> exact ⟨rfl, rfl, List.length_append⟩

theorem packetRounds_take (rounds : Nat) (loop : link.point = .loop)
    (empty : link.sender.ifSnd = []) :
    (Machine.run step link (List.replicate rounds packetRound).flatten).point = .loop ∧
      (Machine.run step link (List.replicate rounds packetRound).flatten).taken.length =
        link.taken.length + rounds := by
  induction rounds generalizing link with
  | zero => exact ⟨loop, rfl⟩
  | succ rounds ih =>
    obtain ⟨loopOne, emptyOne, takenOne⟩ := packetRound_takes loop empty
    obtain ⟨loopAll, takenAll⟩ := ih loopOne emptyOne
    rw [List.replicate_succ, List.flatten_cons, Machine.run_append]
    exact ⟨loopAll, by rw [takenAll, takenOne]; omega⟩

theorem counters_exceeded (rounds : Nat) (many : 2 ^ 33 ≤ rounds) :
    let link := ofPair (created 32) (created 32) 0x200
    let final := Machine.run step link (.start :: (List.replicate rounds packetRound).flatten)
    link.Fresh vethQueueSize ∧ final.point = .loop ∧ final.taken.length = rounds ∧
      final.sender.txPackets.toNat + final.sender.txDropped.toNat ≠ final.taken.length := by
  intro link final
  have started : (step link .start).point = .loop := rfl
  obtain ⟨loop, taken⟩ := packetRounds_take rounds started rfl
  have taken : final.taken.length = rounds := taken.trans (Nat.zero_add rounds)
  have packets := final.sender.txPackets.isLt
  have dropped := final.sender.txDropped.isLt
  refine ⟨created_fresh 32 0x200, loop, taken, ?_⟩
  rw [taken]
  omega

/-- The 32-bit counters together cannot tell that 2^33 packets have been taken. -/
theorem counters_wrap :
    let link := ofPair (created 32) (created 32) 0x200
    let final := Machine.run step link (.start :: (List.replicate (2 ^ 33) packetRound).flatten)
    link.Fresh vethQueueSize ∧ final.point = .loop ∧ final.taken.length = 2 ^ 33 ∧
      final.sender.txPackets.toNat + final.sender.txDropped.toNat ≠ final.taken.length :=
  counters_exceeded (2 ^ 33) (Nat.le_refl _)

end VethLink

end RTContainer.Libnetworking
