/-
# `SendBuffer` — packets until they are acknowledged

`SendBuffer` of `src/send_buffer.cpp`.  The slots from `first_sequence_` on
hold one packet each for the sequence numbers of the window.  A packet leaves
at the front by acknowledgement; a message whose time is over leaves a
tombstone in each of its slots until then, so that the peer can be told.
Retransmissions and drop requests wait in two rings of sequence numbers, whose
entries may be stale: an entry counts when its slot says so.

Left out are the enqueue times and their bounds, which only feed
`buffered_span_milliseconds`.  `std::size_t` counters are natural numbers.
-/
import Srt.Lib.RingQueue
import Srt.Lib.Fenwick
import Srt.Lib.System
import Srt.Reliability.ReceiveBuffer

namespace Srt

structure OutboundPacket where
  header : DataHeader
  payload : Bytes
  sequencePosition : Nat
  deriving DecidableEq, Repr

structure SendDropResult where
  packets : Nat := 0
  bytes : Nat := 0
  firstMessageNumber : Nat := 0
  sequences : SequenceRange := ⟨.ofNat 0, .ofNat 0⟩
  deriving DecidableEq, Repr

/-- The union `SlotMetadata`. -/
inductive SlotMetadata
  | live (lastRetransmissionSend expiration : Nat)
  | dropped (messageFirst messageLast : SequenceNumber) (remainingBytes : Nat)
  deriving DecidableEq, Repr

namespace SlotMetadata

/-- `metadata.live.expiration_microseconds`. -/
def expiration : SlotMetadata → Nat
  | .live _ expiration => expiration
  | .dropped .. => 0

def lastRetransmissionSend : SlotMetadata → Nat
  | .live last _ => last
  | .dropped .. => 0

def messageFirst : SlotMetadata → SequenceNumber
  | .live .. => .ofNat 0
  | .dropped first .. => first

def messageLast : SlotMetadata → SequenceNumber
  | .live .. => .ofNat 0
  | .dropped _ last _ => last

def remainingBytes : SlotMetadata → Nat
  | .live .. => 0
  | .dropped _ _ bytes => bytes

end SlotMetadata

structure SendSlot where
  header : DataHeader := { sequence := .ofNat 0 }
  payloadIndex : Nat := 0
  sequencePosition : Nat := 0
  firstSend : Nat := 0
  metadata : SlotMetadata := .live 0 0
  payloadSize : Nat := 0
  plaintextSize : Nat := 0
  protectionMode : CryptoMode := .automatic
  occupied : Bool := false
  dropped : Bool := false
  dropRequestQueued : Bool := false
  sent : Bool := false
  submitted : Bool := false
  retransmissionQueued : Bool := false
  hasRetransmissionSendTime : Bool := false
  deriving DecidableEq, Repr

structure SendBuffer where
  slots : SlotRing SendSlot
  capacity_lt : slots.capacity < SequenceNumber.halfRange
  maximumPayloadSize : Nat
  firstSequence : SequenceNumber
  payloads : PayloadPool
  retransmissions : RingQueue SequenceNumber
  dropRequests : RingQueue SequenceNumber
  rangeDropRequests : List SequenceRange := []
  /-- The cells of the tree over the tombstones. -/
  droppedCounts : Nat → Nat := fun _ => 0
  nextSequencePosition : Nat := 0
  sequenceSpan : Nat := 0
  nextUnsentOffset : Nat := 0
  occupiedCount : Nat := 0
  retainedDropCount : Nat := 0
  bufferedPlaintextBytes : Nat := 0
  expiringPacketCount : Nat := 0
  earliestExpiration : Nat := 0
  packetsInFlight : Nat := 0

/-! ## The queue of sequence-only drop requests -/

namespace RangeDropQueue

def maximumRangeDropTerms : Nat := maximumDataPayloadSize / 4

def capacity : Nat := maximumRangeDropTerms + 1

/-- A range that wraps is two. -/
def split (range : SequenceRange) : List SequenceRange :=
  if range.first.value ≤ range.last.value then [range]
  else [⟨.ofNat 0, range.last⟩, ⟨range.first, .ofNat (2 ^ 31 - 1)⟩]

/-- One range of the union against the last one so far. -/
def coalesce (merged : List SequenceRange) (range : SequenceRange) : List SequenceRange :=
  match merged with
  | last :: rest =>
    if range.first.value ≤ last.last.value + 1 then
      ⟨last.first, if range.last.value > last.last.value then range.last else last.last⟩ :: rest
    else range :: last :: rest
  | [] => [range]

/-- `queue`: the new queue, or `none` when the batch is refused. -/
def queue (q incoming : List SequenceRange) : Option (List SequenceRange) :=
  if maximumRangeDropTerms < incoming.length then none
  else if incoming = [] then some q
  else if incoming.any (fun r => r.last.distanceFrom r.first < 0) then none
  else
    let sorted := (incoming.flatMap split).mergeSort (fun a b => a.first.value ≤ b.first.value)
    let all := q.merge sorted (fun a b => a.first.value ≤ b.first.value)
    let merged := (all.foldl coalesce []).reverse
    if capacity < merged.length then none else some merged

/-- `next`, with the queue it leaves. -/
def next : List SequenceRange → Option (SequenceRange × List SequenceRange)
  | [] => none
  | first :: rest =>
    let single :=
      if SequenceNumber.halfRange ≤ first.last.value - first.first.value then
        let result : SequenceRange := ⟨first.first, first.first.advanced (2 ^ 30 - 1)⟩
        (result, ⟨result.last.next, first.last⟩ :: rest)
      else (first, rest)
    match rest.getLast? with
    | some last =>
      if first.first = .ofNat 0 ∧ last.last = .ofNat (2 ^ 31 - 1)
          ∧ 0 ≤ first.last.distanceFrom last.first then
        some (⟨last.first, first.last⟩, rest.dropLast)
      else some single
    | none => some single

end RangeDropQueue

namespace SendBuffer

/-- The constructor: refused dimensions give no buffer. -/
def make (initial : SequenceNumber) (capacity : Nat)
    (maximumPayloadSize : Nat := maximumDataPayloadSize) : Option SendBuffer :=
  if h : 0 < capacity ∧ capacity < SequenceNumber.halfRange ∧ 0 < maximumPayloadSize
      ∧ maximumPayloadSize ≤ maximumDataPayloadSize then
    some {
      slots := .replicate capacity h.1 {}
      capacity_lt := h.2.1
      maximumPayloadSize
      firstSequence := initial
      payloads := .make capacity
      retransmissions := .make capacity h.1 (.ofNat 0)
      dropRequests := .make capacity h.1 (.ofNat 0) }
  else none

def capacity (b : SendBuffer) : Nat :=
  b.slots.capacity

variable (b : SendBuffer)

def slot (offset : Nat) : SendSlot :=
  b.slots.get offset

def setSlot (offset : Nat) (s : SendSlot) : SendBuffer :=
  { b with slots := b.slots.set offset s }

def available : Nat :=
  b.capacity - b.sequenceSpan

def nextSequence : SequenceNumber :=
  b.firstSequence.advanced b.sequenceSpan

/-- The offset of a sequence number of the window. -/
def offsetOf (sequence : SequenceNumber) : Option Nat :=
  if b.sequenceSpan ≤ (sequence.distanceFrom b.firstSequence).toNat
      ∨ sequence.distanceFrom b.firstSequence < 0 then none
  else some (sequence.distanceFrom b.firstSequence).toNat

/-- `find`: the offset of a live packet. -/
def find (sequence : SequenceNumber) : Option Nat :=
  (b.offsetOf sequence).filter fun i => (b.slot i).occupied

/-! ## Enqueueing -/

def synchronizeEmpty (next : SequenceNumber) : Bool × SendBuffer :=
  if b.sequenceSpan ≠ 0 ∨ b.occupiedCount ≠ 0 then (b.nextSequence == next, b)
  else
    let skipped := (next.value + 2 ^ 31 - b.firstSequence.value) % 2 ^ 31
    if 2 ^ 64 - 1 - b.nextSequencePosition < skipped then (false, b)
    else
      (true, { b with
        slots := { b.slots with head := 0, head_lt := b.slots.capacity_pos }
        nextSequencePosition := b.nextSequencePosition + skipped
        firstSequence := next
        nextUnsentOffset := 0
        bufferedPlaintextBytes := 0
        expiringPacketCount := 0
        retainedDropCount := 0 })

/-- What every packet of a message has in common. -/
structure MessageFields where
  messageNumber : Nat
  timestamp : PacketTimestamp := {}
  destinationSocketId : Nat := 0
  inOrder : Bool := true
  expiration : Nat := 0
  deriving DecidableEq, Repr

/-- The place of a packet in its message. -/
def boundaryOf (first last : Bool) : MessageBoundary :=
  if first && last then .solo
  else if first then .first
  else if last then .last
  else .subsequent

/-- One packet at the end of the window. -/
def enqueuePacket (f : MessageFields) (boundary : MessageBoundary)
    (payload : Bytes) : SendBuffer :=
  let acquired := b.payloads.acquire payload
  let earliest :=
    if f.expiration ≠ 0 ∧ (b.expiringPacketCount = 0 ∨ f.expiration < b.earliestExpiration) then
      f.expiration
    else b.earliestExpiration
  { b with
    slots := b.slots.set b.sequenceSpan { b.slot b.sequenceSpan with
      header := {
        sequence := b.firstSequence.advanced b.sequenceSpan
        messageNumber := f.messageNumber % 2 ^ 26
        boundary
        inOrder := f.inOrder
        timestamp := f.timestamp
        destinationSocketId := f.destinationSocketId }
      payloadIndex := acquired.1
      sequencePosition := b.nextSequencePosition
      metadata := .live 0 f.expiration
      payloadSize := payload.length
      plaintextSize := payload.length
      protectionMode := .automatic
      occupied := true
      dropped := false
      sent := false
      submitted := false
      retransmissionQueued := false
      hasRetransmissionSendTime := false }
    payloads := acquired.2
    nextSequencePosition := b.nextSequencePosition + 1
    sequenceSpan := b.sequenceSpan + 1
    occupiedCount := b.occupiedCount + 1
    bufferedPlaintextBytes := b.bufferedPlaintextBytes + payload.length
    expiringPacketCount :=
      if f.expiration ≠ 0 then b.expiringPacketCount + 1 else b.expiringPacketCount
    earliestExpiration := earliest }

/-- The loop of `enqueue_message` with `count` packets to go. -/
def enqueuePackets (f : MessageFields) : Nat → Bool → Bytes → SendBuffer → SendBuffer
  | 0, _, _, b => b
  | count + 1, first, bytes, b =>
    enqueuePackets f count false (bytes.drop b.maximumPayloadSize)
      (b.enqueuePacket f (boundaryOf first (count == 0)) (bytes.take b.maximumPayloadSize))

def enqueueMessage (message : Bytes) (f : MessageFields) :
    Except Error Unit × SendBuffer :=
  let count := (message.length + b.maximumPayloadSize - 1) / b.maximumPayloadSize
  if message = [] then (.error .invalidState, b)
  else if b.available < count then (.error .bufferTooSmall, b)
  else if 2 ^ 64 - 1 - b.nextSequencePosition < count then (.error .invalidState, b)
  else (.ok (), enqueuePackets f count true message b)

/-- `enqueue_stream`: the number of bytes accepted. -/
def enqueueStream (bytes : Bytes) (f : MessageFields) :
    Except Error Nat × SendBuffer :=
  if bytes = [] then (.error .invalidState, b)
  else if b.available = 0 then (.error .bufferTooSmall, b)
  else
    let accepted := min bytes.length (b.available * b.maximumPayloadSize)
    match b.enqueueMessage (bytes.take accepted) { f with inOrder := true, expiration := 0 } with
    | (.ok (), b) => (.ok accepted, b)
    | (.error e, b) => (.error e, b)

/-! ## Discarding -/

/-- `discard_slot`: what a live packet gives back. -/
def releaseSlot (s : SendSlot) : SendBuffer :=
  if s.occupied then
    { b with
      payloads := b.payloads.release s.payloadIndex
      packetsInFlight := if s.sent then b.packetsInFlight - 1 else b.packetsInFlight
      bufferedPlaintextBytes := b.bufferedPlaintextBytes - s.plaintextSize
      expiringPacketCount :=
        if s.metadata.expiration ≠ 0 then b.expiringPacketCount - 1 else b.expiringPacketCount
      occupiedCount := b.occupiedCount - 1 }
  else b

/-- The tombstone at an offset is counted in or out. -/
def countDropped (offset : Nat) (retain : Bool) : SendBuffer :=
  { b with
    droppedCounts := Fenwick.update 64 b.capacity (if retain then (· + 1) else (· - 1))
      (b.slots.position offset) b.droppedCounts
    retainedDropCount :=
      if retain then b.retainedDropCount + 1 else b.retainedDropCount - 1 }

/-- What `discard_slot` leaves in the slot. -/
def discarded (s : SendSlot) (retain : Bool) : SendSlot :=
  let kept := { s with
    occupied := false
    dropped := retain
    dropRequestQueued := false
    sent := false
    submitted := false
    retransmissionQueued := false
    hasRetransmissionSendTime := false }
  if retain then
    { kept with metadata := if s.dropped then s.metadata else .dropped (.ofNat 0) (.ofNat 0) 0 }
  else
    { kept with
      metadata := .live 0 0
      payloadSize := 0
      plaintextSize := 0
      protectionMode := .automatic }

/-- `discard_slot`. -/
def discardSlot (offset : Nat) (retain : Bool := false) : SendBuffer :=
  let s := b.slot offset
  let b := b.releaseSlot s
  let b := if s.dropped = retain then b else b.countDropped offset retain
  b.setSlot offset (discarded s retain)

/-- The slots of `count` offsets from `offset` on. -/
def discardSlots : Nat → Nat → SendBuffer → SendBuffer
  | 0, _, b => b
  | count + 1, offset, b => discardSlots count (offset + 1) (b.discardSlot offset)

/-- The window moves over `count` slots. -/
def advanceWindow (count : Nat) (first : SequenceNumber) : SendBuffer :=
  { b with
    slots := b.slots.advance count
    sequenceSpan := b.sequenceSpan - count
    nextUnsentOffset := b.nextUnsentOffset - min b.nextUnsentOffset count
    firstSequence := first }

def acknowledgeBefore (sequence : SequenceNumber) :
    Except Error Unit × SendBuffer :=
  if sequence.distanceFrom b.firstSequence < 0 then (.ok (), b)
  else if b.sequenceSpan < (sequence.distanceFrom b.firstSequence).toNat then
    (.error .invalidControlPayload, b)
  else
    (.ok (), (discardSlots (sequence.distanceFrom b.firstSequence).toNat 0 b).advanceWindow
      (sequence.distanceFrom b.firstSequence).toNat sequence)

/-- Every live packet of the first `count` slots was submitted. -/
def submittedBelow (count : Nat) : Bool :=
  (List.range count).all fun i => !((b.slot i).occupied && !(b.slot i).submitted)

def acknowledgeSubmittedBefore (sequence : SequenceNumber) :
    Except Error Unit × SendBuffer :=
  if sequence.distanceFrom b.firstSequence < 0 then (.ok (), b)
  else if b.sequenceSpan < (sequence.distanceFrom b.firstSequence).toNat then
    (.error .invalidControlPayload, b)
  else if !b.submittedBelow (sequence.distanceFrom b.firstSequence).toNat then
    (.error .invalidControlPayload, b)
  else b.acknowledgeBefore sequence

/-! ## The two rings -/

/-- An entry of the ring of drop requests that still counts. -/
def dropRequestStands (sequence : SequenceNumber) : Bool :=
  (b.offsetOf sequence).any fun i => (b.slot i).dropped && (b.slot i).dropRequestQueued

def compactDropRequestQueue : SendBuffer :=
  { b with dropRequests := (b.dropRequests.compact b.dropRequestStands).rewind }

/-- The offset where the message of the tombstone at `offset` begins. -/
def messageOffset (offset : Nat) : Nat :=
  ((b.slot offset).metadata.messageFirst.distanceFrom b.firstSequence).toNat

/-- A full ring is compacted before it is given up. -/
def pushDropRequest (offset : Nat) : Bool × SendBuffer :=
  let b := if b.dropRequests.size = b.capacity then b.compactDropRequestQueue else b
  if b.dropRequests.size = b.capacity then (false, b)
  else
    (true, { b with
      dropRequests := b.dropRequests.push (b.firstSequence.advanced offset) }.setSlot offset
        { b.slot offset with dropRequestQueued := true })

def queueDropRequest (sequence : SequenceNumber) : Bool × SendBuffer :=
  match b.offsetOf sequence with
  | none => (false, b)
  | some i =>
    if !(b.slot i).dropped then (false, b)
    else if (b.slot (b.messageOffset i)).dropRequestQueued then (true, b)
    else b.pushDropRequest (b.messageOffset i)

/-- An entry of the ring of retransmissions that still counts. -/
def retransmissionStands (sequence : SequenceNumber) : Bool :=
  (b.find sequence).any fun i => (b.slot i).retransmissionQueued

def compactRetransmissionQueue : SendBuffer :=
  { b with retransmissions := b.retransmissions.compact b.retransmissionStands }

def pushRetransmission (sequence : SequenceNumber) (offset : Nat) :
    Bool × SendBuffer :=
  let b :=
    if b.retransmissions.size = b.capacity then b.compactRetransmissionQueue else b
  if b.retransmissions.size = b.capacity then (false, b)
  else
    (true, { b with
      retransmissions := b.retransmissions.push sequence }.setSlot offset
        { b.slot offset with retransmissionQueued := true })

def queueRetransmission (sequence : SequenceNumber) : Bool × SendBuffer :=
  match b.offsetOf sequence with
  | none => (false, b)
  | some i =>
    if (b.slot i).dropped then b.queueDropRequest sequence
    else if !(b.slot i).occupied then (false, b)
    else if !(b.slot i).sent || (b.slot i).retransmissionQueued then (true, b)
    else b.pushRetransmission sequence i

def hasPendingRetransmission : Bool :=
  b.retransmissions.toList.any b.retransmissionStands

/-! ## Sending -/

def outbound (i : Nat) : OutboundPacket :=
  ⟨(b.slot i).header, b.payloads.get (b.slot i).payloadIndex, (b.slot i).sequencePosition⟩

/-- The same packet sent again. -/
def outboundAgain (i : Nat) : OutboundPacket :=
  { b.outbound i with header := { (b.slot i).header with retransmitted := true } }

/-- The first loop of `next_packet`: stale entries are skipped. -/
def nextRetransmission (defer : Bool) : Nat → SendBuffer → Option OutboundPacket × SendBuffer
  | 0, b => (none, b)
  | fuel + 1, b =>
    match b.retransmissions.front with
    | none => (none, b)
    | some sequence =>
      let popped := { b with retransmissions := b.retransmissions.tail }
      match b.find sequence with
      | none => nextRetransmission defer fuel popped
      | some i =>
        if !(b.slot i).retransmissionQueued then nextRetransmission defer fuel popped
        else
          (some (b.outboundAgain i),
            popped.setSlot i { b.slot i with retransmissionQueued := defer })

/-- The second loop: the first packet from the unsent offset on. -/
def nextOriginal (defer : Bool) (now : Nat) :
    Nat → SendBuffer → Option OutboundPacket × SendBuffer
  | 0, b => (none, b)
  | fuel + 1, b =>
    if b.sequenceSpan ≤ b.nextUnsentOffset then (none, b)
    else
      let i := b.nextUnsentOffset
      let passed := { b with nextUnsentOffset := i + 1 }
      if (b.slot i).occupied && !(b.slot i).sent then
        (some (b.outbound i),
          { passed with packetsInFlight := b.packetsInFlight + 1 }.setSlot i { b.slot i with
            sent := true, submitted := !defer, firstSend := now })
      else nextOriginal defer now fuel passed

def nextPacket (defer : Bool := false) (allowRetransmission : Bool := true)
    (now : Nat := 0) : Option OutboundPacket × SendBuffer :=
  match (if allowRetransmission then nextRetransmission defer b.retransmissions.size b
    else (none, b)) with
  | (some packet, b) => (some packet, b)
  | (none, b) => nextOriginal defer now b.sequenceSpan b

def peekNewPacket : Option OutboundPacket :=
  ((List.range' b.nextUnsentOffset (b.sequenceSpan - b.nextUnsentOffset)).find? fun i =>
    (b.slot i).occupied && !(b.slot i).sent).map b.outbound

/-- `peek_retransmission_packet`, which drops stale entries on its way. -/
def peekRetransmissionFrom : Nat → SendBuffer → Option OutboundPacket × SendBuffer
  | 0, b => (none, b)
  | fuel + 1, b =>
    match b.retransmissions.front with
    | none => (none, b)
    | some sequence =>
      match (b.find sequence).filter fun i => (b.slot i).retransmissionQueued with
      | some i => (some (b.outboundAgain i), b)
      | none =>
        peekRetransmissionFrom fuel { b with retransmissions := b.retransmissions.tail }

def peekRetransmissionPacket : Option OutboundPacket × SendBuffer :=
  peekRetransmissionFrom b.retransmissions.size b

def requeuePreparedRetransmission (sequence : SequenceNumber) : SendBuffer :=
  match b.find sequence with
  | none => b
  | some i =>
    ((b.setSlot i { b.slot i with retransmissionQueued := false }).queueRetransmission sequence).2

def retainsPacket (sequence : SequenceNumber) : Bool :=
  (b.find sequence).isSome

def notePacketSubmitted (sequence : SequenceNumber) : SendBuffer :=
  match b.find sequence with
  | none => b
  | some i => if (b.slot i).sent then b.setSlot i { b.slot i with submitted := true } else b

/-- `preserve_protected_payload`. -/
def preserveProtectedPayload (sequence : SequenceNumber) (key : EncryptionKey)
    (mode : CryptoMode) (payload : Bytes) : Except Error Unit × SendBuffer :=
  match b.find sequence, cryptoSuiteForMode mode with
  | some i, some suite =>
    let s := b.slot i
    if !s.sent ∨ (key ≠ .even ∧ key ≠ .odd) then (.error .invalidState, b)
    else if maximumDataPayloadSize - suite.authenticationTagSize < s.plaintextSize then
      (.error .bufferTooSmall, b)
    else if payload.length ≠ s.plaintextSize + suite.authenticationTagSize then
      (.error .invalidPayloadSize, b)
    else if s.header.encryptionKey ≠ .none then
      if s.header.encryptionKey = key ∧ s.protectionMode = mode ∧ s.payloadSize = payload.length
          ∧ payload = (b.payloads.get s.payloadIndex).take payload.length then
        (.ok (), b)
      else (.error .invalidState, b)
    else
      (.ok (), { b with payloads := b.payloads.store s.payloadIndex payload }.setSlot i { s with
        payloadSize := payload.length
        protectionMode := mode
        header := { s.header with encryptionKey := key } })
  | _, _ => (.error .invalidState, b)

/-- `preserve_encrypted_payload`. -/
def preserveEncryptedPayload (sequence : SequenceNumber) (key : EncryptionKey)
    (payload : Bytes) : Except Error Unit × SendBuffer :=
  b.preserveProtectedPayload sequence key .aesCtr payload

/-! ## Retransmission requests -/

/-- `dropped_prefix`. -/
def droppedPrefix (stop : Nat) : Nat :=
  Fenwick.prefixSum 64 b.droppedCounts stop

/-- The tombstones among `count` slots from offset `start` on. -/
def droppedBetween (start count : Nat) : Nat :=
  let physical := b.slots.position start
  let firstCount := min count (b.capacity - physical)
  b.droppedPrefix (physical + firstCount) - b.droppedPrefix physical
    + b.droppedPrefix (count - firstCount)

/-- Whether the slots `[start, last]` beyond the unsent offset are tombstones. -/
def unsentDropped (start last : Nat) : Bool :=
  let start := max start b.nextUnsentOffset
  if start < last + 1 then b.droppedBetween start (last + 1 - start) == last + 1 - start else true

/-- `validate_retransmission_range` finds nothing wrong. -/
def validRetransmissionRange (range : SequenceRange) : Bool :=
  let first := range.first.distanceFrom b.firstSequence
  let last := range.last.distanceFrom b.firstSequence
  if range.last.distanceFrom range.first < 0 ∨ first < 0 ∨ last < first
      ∨ b.sequenceSpan ≤ last.toNat then false
  else b.unsentDropped first.toNat last.toNat

/-- Sent again too recently. -/
def repeatsTooSoon (s : SendSlot) (now minimumRepeat : Nat) : Bool :=
  !s.dropped && minimumRepeat != 0 && s.hasRetransmissionSendTime
    && (decide (now < s.metadata.lastRetransmissionSend)
      || decide (now - s.metadata.lastRetransmissionSend < minimumRepeat))

/-- What a request queued. -/
structure Queued where
  packets : Nat := 0
  bytes : Nat := 0
  deriving DecidableEq, Repr

/-- One sequence number of a request; `none` is the failure of
`queue_retransmission`. -/
def requestOne (now minimumRepeat : Nat) (sequence : SequenceNumber)
    (queued : Queued) : Option Queued × SendBuffer :=
  let found := b.find sequence
  if found.any fun i => repeatsTooSoon (b.slot i) now minimumRepeat then (some queued, b)
  else
    let newlyQueued := found.any fun i => (b.slot i).sent && !(b.slot i).retransmissionQueued
    let size := (found.map fun i => (b.slot i).plaintextSize).getD 0
    match b.queueRetransmission sequence with
    | (false, b) => (none, b)
    | (true, b) =>
      (some (if newlyQueued then ⟨queued.packets + 1, queued.bytes + size⟩ else queued), b)

/-- The loop of `request_retransmission`. -/
def requestFrom (now minimumRepeat : Nat) :
    Nat → SequenceNumber → Queued → SendBuffer → Except (Error × Queued) Queued × SendBuffer
  | 0, _, queued, b => (.ok queued, b)
  | count + 1, sequence, queued, b =>
    match b.requestOne now minimumRepeat sequence queued with
    | (none, b) => (.error (.invalidControlPayload, queued), b)
    | (some queued, b) => requestFrom now minimumRepeat count sequence.next queued b

/-- `request_retransmission`; an error carries what was queued before it. -/
def requestRetransmission (range : SequenceRange) (now minimumRepeat : Nat) :
    Except (Error × Queued) Queued × SendBuffer :=
  if !b.validRetransmissionRange range then (.error (.invalidControlPayload, {}), b)
  else
    requestFrom now minimumRepeat ((range.last.distanceFrom range.first).toNat + 1) range.first
      {} b

def noteRetransmissionSent (sequence : SequenceNumber) (now : Nat) :
    SendBuffer :=
  match b.find sequence with
  | none => b
  | some i =>
    if (b.slot i).sent then
      b.setSlot i { b.slot i with
        retransmissionQueued := false
        hasRetransmissionSendTime := true
        metadata := .live now (b.slot i).metadata.expiration }
    else b

/-- `request_retransmission_of_last_sent`. -/
def requestLastSentFrom (b : SendBuffer) : Nat → Bool × SendBuffer
  | 0 => (false, b)
  | offset + 1 =>
    if (b.slot offset).occupied && (b.slot offset).sent && !(b.slot offset).dropped then
      b.queueRetransmission (b.slot offset).header.sequence
    else b.requestLastSentFrom offset

def requestRetransmissionOfLastSent : Bool × SendBuffer :=
  b.requestLastSentFrom b.sequenceSpan

/-- `request_retransmission_of_all_sent` with `count` slots to go. -/
def requestAllSentFrom : Nat → Nat → Nat → SendBuffer → Nat × SendBuffer
  | 0, _, queued, b => (queued, b)
  | count + 1, offset, queued, b =>
    let s := b.slot offset
    if !s.occupied || !s.sent || s.retransmissionQueued then
      requestAllSentFrom count (offset + 1) queued b
    else
      match b.queueRetransmission s.header.sequence with
      | (false, b) => (queued, b)
      | (true, b) => requestAllSentFrom count (offset + 1) (queued + 1) b

def requestRetransmissionOfAllSent : Nat × SendBuffer :=
  requestAllSentFrom b.sequenceSpan 0 0 b

/-! ## Drop requests -/

/-- The request for the message of the tombstone at `i`. -/
def dropResult (i : Nat) (sequence : SequenceNumber) : SendDropResult :=
  let last := ((b.slot i).metadata.messageLast.distanceFrom b.firstSequence).toNat
  { packets := last - i + 1
    bytes := (b.slot i).metadata.remainingBytes
    firstMessageNumber := (b.slot i).header.messageNumber
    sequences := ⟨sequence, b.firstSequence.advanced last⟩ }

/-- The loop of `next_pending_drop_request` over the messages. -/
def nextMessageDrop : Nat → SendBuffer → Option SendDropResult × SendBuffer
  | 0, b => (none, b)
  | fuel + 1, b =>
    match b.dropRequests.front with
    | none => (none, b)
    | some sequence =>
      let popped := { b with dropRequests := b.dropRequests.tail }
      match b.offsetOf sequence with
      | none => nextMessageDrop fuel popped
      | some i =>
        if !((b.slot i).dropped && (b.slot i).dropRequestQueued) then
          nextMessageDrop fuel popped
        else
          (some (b.dropResult i sequence),
            popped.setSlot i { b.slot i with dropRequestQueued := false })

def nextPendingDropRequest : Option SendDropResult × SendBuffer :=
  match nextMessageDrop b.dropRequests.size b with
  | (some result, b) => (some result, b)
  | (none, b) =>
    match RangeDropQueue.next b.rangeDropRequests with
    | some (range, rest) =>
      (some {
        packets := (range.last.distanceFrom range.first).toNat + 1
        sequences := range },
        { b with rangeDropRequests := rest })
    | none => (none, b)

def hasPendingDropRequest : Bool × SendBuffer :=
  let b := if b.dropRequests.size ≠ 0 then b.compactDropRequestQueue else b
  (b.dropRequests.size != 0 || !b.rangeDropRequests.isEmpty, b)

/-- The tombstones of one number that follow offset `offset`. -/
def skipDropped (b : SendBuffer) (messageNumber : Nat) : Nat → Nat → Nat
  | 0, offset => offset
  | fuel + 1, offset =>
    if offset < b.sequenceSpan ∧ (b.slot offset).dropped = true
        ∧ (b.slot offset).header.messageNumber = messageNumber then
      b.skipDropped messageNumber fuel (offset + 1)
    else offset

/-- The loop of `queue_retained_drop_requests`. -/
def queueRetainedFrom : Nat → Nat → Nat → SendBuffer → Nat × SendBuffer
  | 0, _, queued, b => (queued, b)
  | fuel + 1, offset, queued, b =>
    if b.sequenceSpan ≤ offset then (queued, b)
    else if !(b.slot offset).dropped then queueRetainedFrom fuel (offset + 1) queued b
    else
      let requested := b.queueDropRequest (b.firstSequence.advanced offset)
      queueRetainedFrom fuel
        (requested.2.skipDropped (b.slot offset).header.messageNumber b.sequenceSpan (offset + 1))
        (if requested.1 then queued + 1 else queued) requested.2

def queueRetainedDropRequests : Nat × SendBuffer :=
  queueRetainedFrom b.sequenceSpan 0 0 b

/-- The number of tombstones at the front. -/
def retiredCount (b : SendBuffer) : Nat → Nat → Nat
  | 0, count => count
  | fuel + 1, count =>
    if count < b.sequenceSpan ∧ (b.slot count).dropped = true then
      b.retiredCount fuel (count + 1)
    else count

def retiredPrefix : Option SequenceRange :=
  let count := b.retiredCount b.sequenceSpan 0
  if count = 0 then none
  else some ⟨b.firstSequence, b.firstSequence.advanced (count - 1)⟩

def releaseRetiredPrefix : SendBuffer :=
  b.retiredPrefix.elim b fun range => (b.acknowledgeBefore range.last.next).2

/-- `queue_range_drop_requests`. -/
def queueRangeDropRequests (ranges : List SequenceRange) : Bool × SendBuffer :=
  match RangeDropQueue.queue b.rangeDropRequests ranges with
  | some queue => (true, { b with rangeDropRequests := queue })
  | none => (false, b)

/-! ## Dropping -/

/-- A fragment behind a fragment of its message that was dropped. -/
def continuesDropped (s : SendSlot) (packets lastMessage : Nat) : Bool :=
  packets != 0 && s.header.messageNumber == lastMessage
    && (s.header.boundary == .subsequent || s.header.boundary == .last)

/-- The loop of `drop_messages_older_than`: the packets and bytes dropped. -/
def dropOlderFrom (cutoff : Nat) : Nat → Nat → Nat → Nat → SendBuffer → Nat × Nat × SendBuffer
  | 0, packets, bytes, _, b => (packets, bytes, b)
  | fuel + 1, packets, bytes, lastMessage, b =>
    let s := b.slot packets
    if !s.occupied then (packets, bytes, b)
    else if !continuesDropped s packets lastMessage
        && (!s.sent || decide (cutoff < s.firstSend)) then (packets, bytes, b)
    else
      dropOlderFrom cutoff fuel (packets + 1) (bytes + s.plaintextSize) s.header.messageNumber
        (b.discardSlot packets)

def dropMessagesOlderThan (cutoff : Nat) : SendDropResult × SendBuffer :=
  let first := b.slot 0
  if b.sequenceSpan = 0 ∨ first.sent = false ∨ cutoff < first.firstSend then ({}, b)
  else
    match dropOlderFrom cutoff b.sequenceSpan 0 0 first.header.messageNumber b with
    | (packets, bytes, dropped) =>
      if packets = 0 then
        ({ firstMessageNumber := first.header.messageNumber
           sequences := ⟨b.firstSequence, .ofNat 0⟩ }, dropped)
      else
        ({ packets
           bytes
           firstMessageNumber := first.header.messageNumber
           sequences := ⟨b.firstSequence, b.firstSequence.advanced (packets - 1)⟩ },
          dropped.advanceWindow packets (b.firstSequence.advanced (packets - 1)).next)

/-- The tombstones of an expired message: the packets and bytes dropped. -/
def entombFrom (first : SequenceNumber) (messageNumber : Nat) :
    Nat → Nat → Nat → SendBuffer → Nat × Nat × SendBuffer
  | 0, offset, bytes, b => (offset, bytes, b)
  | fuel + 1, offset, bytes, b =>
    let s := b.slot offset
    if b.sequenceSpan ≤ offset ∨ s.occupied = false
        ∨ s.header.messageNumber ≠ messageNumber then (offset, bytes, b)
    else
      let b := b.discardSlot offset true
      let b := b.setSlot offset { b.slot offset with
        metadata := .dropped first (b.slot offset).metadata.messageLast
          (b.slot offset).metadata.remainingBytes }
      entombFrom first messageNumber fuel (offset + 1) (bytes + s.plaintextSize) b

/-- The walk back over the tombstones: each remembers the end of its message
and the bytes from it on. -/
def labelFrom (last : SequenceNumber) : Nat → Nat → Nat → SendBuffer → SendBuffer
  | 0, _, _, b => b
  | count + 1, stop, bytes, b =>
    let s := b.slot (stop - 1)
    let bytes := bytes + s.plaintextSize
    labelFrom last count (stop - 1) bytes (b.setSlot (stop - 1) { s with
      metadata := .dropped s.metadata.messageFirst last bytes })

/-- The message of the expired packet at `offset`. -/
def expireMessage (offset : Nat) : SendDropResult × SendBuffer :=
  let number := (b.slot offset).header.messageNumber
  let first := b.firstSequence.advanced offset
  match entombFrom first number b.sequenceSpan offset 0 b with
  | (stop, bytes, entombed) =>
    let last := first.advanced (stop - offset - 1)
    ({ packets := stop - offset
       bytes
       firstMessageNumber := number
       sequences := ⟨first, last⟩ },
      labelFrom last (stop - offset) stop 0 entombed)

/-- The scan of `drop_expired_message`: the first expired packet, or the
earliest expiration. -/
def expiredFrom (b : SendBuffer) (now : Nat) : Nat → Nat → Nat → Nat ⊕ Nat
  | 0, _, earliest => .inr earliest
  | fuel + 1, offset, earliest =>
    let s := b.slot offset
    if !s.occupied || s.metadata.expiration == 0 then
      b.expiredFrom now fuel (offset + 1) earliest
    else if now ≤ s.metadata.expiration then
      b.expiredFrom now fuel (offset + 1) (min earliest s.metadata.expiration)
    else .inl offset

def dropExpiredMessage (now : Nat) : SendDropResult × SendBuffer :=
  if b.expiringPacketCount = 0 ∨ now ≤ b.earliestExpiration then ({}, b)
  else
    match b.expiredFrom now b.sequenceSpan 0 (2 ^ 64 - 1) with
    | .inl offset => b.expireMessage offset
    | .inr earliest => ({}, { b with earliestExpiration := earliest })

def nextExpiration : Option Nat :=
  if b.expiringPacketCount = 0 then none else some b.earliestExpiration

/-! ## Runs -/

/-- The operations that change a buffer. -/
inductive Op
  | synchronizeEmpty (next : SequenceNumber)
  | enqueueMessage (message : Bytes) (fields : MessageFields)
  | enqueueStream (bytes : Bytes) (fields : MessageFields)
  | nextPacket (defer allowRetransmission : Bool) (now : Nat)
  | peekRetransmissionPacket
  | requeuePreparedRetransmission (sequence : SequenceNumber)
  | preserveProtectedPayload (sequence : SequenceNumber) (key : EncryptionKey) (mode : CryptoMode)
      (payload : Bytes)
  | notePacketSubmitted (sequence : SequenceNumber)
  | acknowledgeSubmittedBefore (sequence : SequenceNumber)
  | acknowledgeBefore (sequence : SequenceNumber)
  | requestRetransmission (range : SequenceRange) (now minimumRepeat : Nat)
  | noteRetransmissionSent (sequence : SequenceNumber) (now : Nat)
  | requestRetransmissionOfLastSent
  | requestRetransmissionOfAllSent
  | nextPendingDropRequest
  | hasPendingDropRequest
  | queueRetainedDropRequests
  | releaseRetiredPrefix
  | compactRetransmissionQueue
  | queueRangeDropRequests (ranges : List SequenceRange)
  | dropMessagesOlderThan (cutoff : Nat)
  | dropExpiredMessage (now : Nat)

def apply : Op → SendBuffer
  | .synchronizeEmpty next => (b.synchronizeEmpty next).2
  | .enqueueMessage message fields => (b.enqueueMessage message fields).2
  | .enqueueStream bytes fields => (b.enqueueStream bytes fields).2
  | .nextPacket defer allow now => (b.nextPacket defer allow now).2
  | .peekRetransmissionPacket => b.peekRetransmissionPacket.2
  | .requeuePreparedRetransmission sequence => b.requeuePreparedRetransmission sequence
  | .preserveProtectedPayload sequence key mode payload =>
    (b.preserveProtectedPayload sequence key mode payload).2
  | .notePacketSubmitted sequence => b.notePacketSubmitted sequence
  | .acknowledgeSubmittedBefore sequence => (b.acknowledgeSubmittedBefore sequence).2
  | .acknowledgeBefore sequence => (b.acknowledgeBefore sequence).2
  | .requestRetransmission range now minimumRepeat =>
    (b.requestRetransmission range now minimumRepeat).2
  | .noteRetransmissionSent sequence now => b.noteRetransmissionSent sequence now
  | .requestRetransmissionOfLastSent => b.requestRetransmissionOfLastSent.2
  | .requestRetransmissionOfAllSent => b.requestRetransmissionOfAllSent.2
  | .nextPendingDropRequest => b.nextPendingDropRequest.2
  | .hasPendingDropRequest => b.hasPendingDropRequest.2
  | .queueRetainedDropRequests => b.queueRetainedDropRequests.2
  | .releaseRetiredPrefix => b.releaseRetiredPrefix
  | .compactRetransmissionQueue => b.compactRetransmissionQueue
  | .queueRangeDropRequests ranges => (b.queueRangeDropRequests ranges).2
  | .dropMessagesOlderThan cutoff => (b.dropMessagesOlderThan cutoff).2
  | .dropExpiredMessage now => (b.dropExpiredMessage now).2

/-- A buffer under any sequence of operations. -/
def system : Lts.System SendBuffer Op :=
  .ofFun (fun b => ∃ initial capacity size, make initial capacity size = some b) apply

end SendBuffer

end Srt
