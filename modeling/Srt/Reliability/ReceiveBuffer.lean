/-
# `ReceiveBuffer` — the receive ring and everything kept beside it

The ring of `src/receive_buffer.cpp`: a window of `capacity` sequence
numbers from `firstStored` on, one slot a number.  Beside the slots stand
the structures that answer queries without a scan: how many slots are
occupied and how many bytes they hold, the payload pool, a bitmap of
readable and one of occupied slots, and the trie of message numbers whose
payload was rejected.  `nextAck` is the cumulative acknowledgement.

`Slot&` becomes the offset of the slot; a function that writes through it
writes the whole slot back.  Loops that the source bounds by the window are
recursions on fuel, and the fuel given is the capacity.  `std::size_t`
counters are natural numbers: what the source subtracts is always there.
Left out are the timestamps of the first and the last stored packet, which
only the buffered-span statistic reads.
-/
import Srt.Lib.SlotRing
import Srt.Lib.BitIndex
import Srt.Lib.CountedTrie
import Srt.Reliability.PayloadPool
import Srt.Codec

namespace Srt

/-- `SequenceRange`; both ends belong to it. -/
structure SequenceRange where
  first : SequenceNumber
  last : SequenceNumber
  deriving DecidableEq, Repr, Inhabited

inductive ReceiveStatus
  | acceptedInOrder
  | acceptedOutOfOrder
  | duplicate
  | olderThanWindow
  | beyondWindow
  deriving DecidableEq, Repr

/-- `ReceiveInsertResult` of an insertion without error. -/
structure ReceiveInsertResult where
  status : ReceiveStatus
  /-- `gap_before_packet`, when `has_gap`. -/
  gapBeforePacket : Option SequenceRange := none
  contiguousAdvance : Nat := 0
  deriving DecidableEq, Repr

/-- `ReceivedMessageResult` of a pop without error, with the bytes written. -/
structure ReceivedMessageResult where
  bytes : Bytes
  messageNumber : Nat
  firstSequence : SequenceNumber
  timestamp : PacketTimestamp
  deriving DecidableEq, Repr

structure BufferedMessageInfo where
  firstSequence : SequenceNumber
  lastSequence : SequenceNumber
  timestamp : PacketTimestamp
  deriving DecidableEq, Repr

/-- Which packets of a dropped range stay. -/
inductive DropPreservation
  | none
  | completeMessages
  | receivedPackets
  deriving DecidableEq, Repr

structure ReceiveSlot where
  header : DataHeader := default
  payloadIndex : Nat := 0
  payloadSize : Nat := 0
  payloadOffset : Nat := 0
  rejectedPayload : Bool := false
  occupied : Bool := false
  dropped : Bool := false
  /-- Zero when no deadline runs. -/
  gapDeadline : Nat := 0
  deriving DecidableEq, Repr, Inhabited

/-- The slot ends a message: `last` or `solo`. -/
def ReceiveSlot.endsMessage (s : ReceiveSlot) : Bool :=
  s.header.boundary == .last || s.header.boundary == .solo

structure ReceiveBuffer where
  slots : SlotRing ReceiveSlot
  capacity_lt : slots.capacity < SequenceNumber.halfRange
  firstStored : SequenceNumber
  nextAck : SequenceNumber
  /-- The session has classified every slot below this offset. -/
  classifiedLossPrefix : Nat := 0
  occupied : Nat := 0
  bufferedPayloadBytes : Nat := 0
  discardingMessage : Option Nat := none
  rejectedMessages : CountedTrie 32
  payloads : PayloadPool
  /-- Slots whose payload can be read. -/
  occupiedIndex : BitIndex 64
  /-- Occupied slots, those with a rejected payload included. -/
  storageIndex : BitIndex 64
  /-- The remembered answers, `none` when invalid. -/
  messageQuery : Option (Option BufferedMessageInfo) := none
  packetQuery : Option (Option BufferedMessageInfo) := none

namespace ReceiveBuffer

def indexLevels (capacity : Nat) : Nat :=
  BitIndex.levelsFor 64 capacity ((capacity + 63) / 64)

/-- The constructor, which throws on a capacity it cannot serve. -/
def make (initial : SequenceNumber) (capacity : Nat) : Option ReceiveBuffer :=
  if h : 0 < capacity ∧ capacity < SequenceNumber.halfRange then
    some {
      slots := .replicate capacity h.1 {}
      capacity_lt := h.2
      firstStored := initial
      nextAck := initial
      rejectedMessages := .empty (capacity * 2)
      payloads := .make capacity
      occupiedIndex := .empty (indexLevels capacity)
      storageIndex := .empty (indexLevels capacity) }
  else none

def capacity (b : ReceiveBuffer) : Nat :=
  b.slots.capacity

variable (b : ReceiveBuffer)

def slot (i : Nat) : ReceiveSlot :=
  b.slots.get i

def setSlot (i : Nat) (s : ReceiveSlot) : ReceiveBuffer :=
  { b with slots := b.slots.set i s }

/-! ## What the operations share -/

/-- `index_occupied`: both bitmaps, or only the one of readable slots. -/
def indexOccupied (i : Nat) (occupied : Bool) (storage : Bool := true) :
    ReceiveBuffer :=
  { b with
    storageIndex :=
      if storage then b.storageIndex.write (b.slots.position i) occupied else b.storageIndex
    occupiedIndex := b.occupiedIndex.write (b.slots.position i) occupied }

/-- The bytes, the pool cell and the count of an occupied slot. -/
def releasePayload (s : ReceiveSlot) : ReceiveBuffer :=
  { b with
    bufferedPayloadBytes := b.bufferedPayloadBytes - (s.payloadSize - s.payloadOffset)
    payloads := b.payloads.release s.payloadIndex
    occupied := b.occupied - 1 }

def invalidateDeliveryQueries : ReceiveBuffer :=
  { b with messageQuery := none, packetQuery := none }

def advanceFrontier (packets : Nat) : ReceiveBuffer :=
  { b with
    slots := b.slots.advance packets
    firstStored := b.firstStored.advanced packets
    classifiedLossPrefix := b.classifiedLossPrefix - min packets b.classifiedLossPrefix }

def messageRejected (message : Nat) : Bool :=
  b.rejectedMessages.contains message

def addRejectedMessage (message : Nat) : ReceiveBuffer :=
  { b with rejectedMessages := b.rejectedMessages.add message }

/-- `remove_rejected_message`; the flag itself goes when the slot is written. -/
def removeRejectedMessage (s : ReceiveSlot) : ReceiveBuffer :=
  if s.rejectedPayload then
    { b with rejectedMessages := b.rejectedMessages.remove s.header.messageNumber }
  else b

/-- The offset of a number inside the window. -/
def offsetOf (sequence : SequenceNumber) : Option Nat :=
  let d := sequence.distanceFrom b.firstStored
  if b.capacity ≤ d.toNat ∨ d < 0 then none else some d.toNat

/-- `find`: the slot of a packet whose payload can be read. -/
def find (sequence : SequenceNumber) : Option Nat :=
  match b.offsetOf sequence with
  | none => none
  | some i =>
    if (b.slot i).occupied && !(b.slot i).rejectedPayload
        && (b.slot i).header.sequence == sequence then some i
    else none

def containsData (sequence : SequenceNumber) : Bool :=
  (b.find sequence).isSome

def isSettled (sequence : SequenceNumber) : Bool :=
  match b.offsetOf sequence with
  | none => false
  | some i =>
    (b.slot i).dropped || ((b.slot i).occupied && (b.slot i).header.sequence == sequence)

/-- `advance_acknowledgement`; the test of its loop is `is_settled`. -/
def advanceAcknowledgementFrom : Nat → ReceiveBuffer → ReceiveBuffer
  | 0, b => b
  | fuel + 1, b =>
    if b.isSettled b.nextAck then
      advanceAcknowledgementFrom fuel { b with nextAck := b.nextAck.next }
    else b

def advanceAcknowledgement : ReceiveBuffer :=
  b.advanceAcknowledgementFrom b.capacity

/-- The end of a round of `trim_dropped_prefix`: the head slot is emptied and
passed. -/
def retireHead (s : ReceiveSlot) : ReceiveBuffer :=
  let b := (b.indexOccupied 0 false).invalidateDeliveryQueries.removeRejectedMessage s
  (b.setSlot 0 { s with
    rejectedPayload := false, payloadSize := 0, payloadOffset := 0, gapDeadline := 0 })
    |>.advanceFrontier 1

/-- Which message is being discarded once the head packet was looked at. -/
def discardingAt (s : ReceiveSlot) : Option Nat :=
  let current := b.discardingMessage.filter (· == s.header.messageNumber)
  if current.isNone && b.messageRejected s.header.messageNumber then
    some s.header.messageNumber
  else current

def trimDroppedPrefixFrom : Nat → ReceiveBuffer → ReceiveBuffer
  | 0, b => b
  | fuel + 1, b =>
    let s := b.slot 0
    if s.dropped then
      trimDroppedPrefixFrom fuel (b.retireHead { s with dropped := false })
    else if !s.occupied then b
    else
      let b := { b with discardingMessage := b.discardingAt s }
      if b.discardingMessage.isNone then b
      else
        let b := b.releasePayload s
        let b := if s.endsMessage then { b with discardingMessage := none } else b
        trimDroppedPrefixFrom fuel (b.retireHead { s with occupied := false })

def trimDroppedPrefix : ReceiveBuffer :=
  b.trimDroppedPrefixFrom b.capacity

def discardMessagePayload (sequence : SequenceNumber) : ReceiveBuffer :=
  match b.find sequence with
  | none => b
  | some i =>
    let s := b.slot i
    let b := b.invalidateDeliveryQueries.indexOccupied i false false
    let b := b.setSlot i { s with rejectedPayload := true }
    (b.addRejectedMessage s.header.messageNumber).trimDroppedPrefix

/-! ## Insertion -/

/-- The packet goes into the empty slot at offset `i`. -/
def occupySlot (i : Nat) (packet : DataPacket) : ReceiveBuffer :=
  let acquired := b.payloads.acquire packet.payload
  let b := { b.invalidateDeliveryQueries with payloads := acquired.2 }
  let b := b.setSlot i {
    header := packet.header
    payloadIndex := acquired.1
    payloadSize := packet.payload.length
    occupied := true }
  let b := b.indexOccupied i true
  { b with
    occupied := b.occupied + 1
    bufferedPayloadBytes := b.bufferedPayloadBytes + packet.payload.length }

/-- `gap_before_packet`: what is missing in front of a packet. -/
def gapBefore (sequence : SequenceNumber) : Option SequenceRange :=
  if sequence.distanceFrom b.nextAck > 0 then
    some ⟨b.nextAck, sequence.advanced SequenceNumber.mask⟩
  else none

def insert : PacketView → Except Error ReceiveInsertResult × ReceiveBuffer
  | .control _ _ => (.error .invalidPacketType, b)
  | .data packet =>
    if maximumDataPayloadSize < packet.payload.length then (.error .invalidPacketType, b)
    else
      let sequence := packet.header.sequence
      if sequence.distanceFrom b.firstStored < 0 then
        (.ok { status := .olderThanWindow }, b)
      else
        match b.offsetOf sequence with
        | none => (.ok { status := .beyondWindow }, b)
        | some i =>
          if (b.slot i).occupied || (b.slot i).dropped then
            (.ok { status := .duplicate }, b)
          else
            let stored := b.occupySlot i packet
            let acknowledged := stored.advanceAcknowledgement
            let advance := acknowledged.nextAck.distanceFrom b.nextAck
            let result : ReceiveInsertResult := {
              status :=
                if sequence.distanceFrom b.nextAck = 0 then .acceptedInOrder
                else .acceptedOutOfOrder
              gapBeforePacket := b.gapBefore sequence
              contiguousAdvance := advance.toNat }
            (.ok result,
              if acknowledged.rejectedMessages.root.isSome
                  || acknowledged.discardingMessage.isSome then
                acknowledged.trimDroppedPrefix
              else acknowledged)

/-! ## Queries -/

def nextOccupiedOffset (start : Nat) : Option Nat :=
  if b.capacity ≤ start then none
  else
    let position := b.slots.position start
    let stop := min b.capacity (position + b.capacity - start)
    let found :=
      match b.occupiedIndex.nextBit position stop with
      | some p => some p
      | none =>
        if b.slots.head ≤ position ∧ b.slots.head ≠ 0 then
          b.occupiedIndex.nextBit 0 b.slots.head
        else none
    found.map (fun p => (p + b.capacity - b.slots.head) % b.capacity)

/-- The fragments that follow a `first` packet, up to the `last` one. -/
def fragmentsEnd (b : ReceiveBuffer) (message : Nat) : Nat → SequenceNumber → Option SequenceNumber
  | 0, _ => none
  | fuel + 1, sequence =>
    match b.find sequence with
    | none => none
    | some i =>
      let h := (b.slot i).header
      if h.messageNumber ≠ message ∨ (h.boundary ≠ .subsequent ∧ h.boundary ≠ .last) then none
      else if h.boundary = .last then some sequence
      else b.fragmentsEnd message fuel sequence.next

/-- The complete message that starts at an offset. -/
def completeMessageAt (offset : Nat) : Option BufferedMessageInfo :=
  let candidate := b.firstStored.advanced offset
  match b.find candidate with
  | none => none
  | some i =>
    let h := (b.slot i).header
    match h.boundary with
    | .solo => some ⟨candidate, candidate, h.timestamp⟩
    | .first =>
      (b.fragmentsEnd h.messageNumber (b.capacity - offset - 1) candidate.next).map
        (⟨candidate, ·, h.timestamp⟩)
    | _ => none

def searchCompleteMessage (b : ReceiveBuffer) : Nat → Nat → Option BufferedMessageInfo
  | 0, _ => none
  | fuel + 1, start =>
    match b.nextOccupiedOffset start with
    | none => none
    | some offset =>
      match b.completeMessageAt offset with
      | some message => some message
      | none => b.searchCompleteMessage fuel (offset + 1)

/-- `first_complete_message`, with the buffer that remembers the answer. -/
def firstCompleteMessage : Option BufferedMessageInfo × ReceiveBuffer :=
  match b.messageQuery with
  | some message => (message, b)
  | none =>
    let message := if b.occupied = 0 then none else b.searchCompleteMessage b.capacity 0
    (message, { b with messageQuery := some message })

/-- `first_buffered_packet`, with the buffer that remembers the answer. -/
def firstBufferedPacket : Option BufferedMessageInfo × ReceiveBuffer :=
  match b.packetQuery with
  | some packet => (packet, b)
  | none =>
    let packet :=
      if b.occupied = 0 then none
      else
        match b.nextOccupiedOffset 0 with
        | none => none
        | some offset =>
          let candidate := b.firstStored.advanced offset
          (b.find candidate).map (fun i =>
            ⟨candidate, candidate, (b.slot i).header.timestamp⟩)
    (packet, { b with packetQuery := some packet })

def nextMessageTimestamp : Option PacketTimestamp :=
  (b.find b.firstStored).map (fun i => (b.slot i).header.timestamp)

/-- `window_available`: how far the window reaches beyond its last settled
slot. -/
def windowAvailableFrom (b : ReceiveBuffer) : Nat → Nat
  | 0 => b.capacity
  | offset + 1 =>
    if (b.slot offset).occupied || (b.slot offset).dropped then b.capacity - (offset + 1)
    else b.windowAvailableFrom offset

def windowAvailable : Nat :=
  b.windowAvailableFrom b.capacity

/-! ## Pops -/

/-- The first loop of `pop_message`: the packets of the message at the head
and their bytes. -/
def scanMessage (b : ReceiveBuffer) (message : Nat) :
    Nat → SequenceNumber → Nat → Nat → Except Error (Nat × Nat)
  | 0, _, _, _ => .error .invalidState
  | fuel + 1, sequence, packets, total =>
    match b.find sequence with
    | none => .error .wouldBlock
    | some i =>
      let s := b.slot i
      if s.header.messageNumber ≠ message ∨ s.payloadOffset ≠ 0
          ∨ (0 < packets ∧ s.header.boundary ≠ .subsequent ∧ s.header.boundary ≠ .last) then
        .error .invalidState
      else if s.endsMessage then .ok (packets + 1, total + s.payloadSize)
      else b.scanMessage message fuel sequence.next (packets + 1) (total + s.payloadSize)

/-- The bytes a slot has left. -/
def payloadOf (i : Nat) : Bytes :=
  ((b.payloads.get (b.slot i).payloadIndex).take (b.slot i).payloadSize).drop
    (b.slot i).payloadOffset

/-- A delivered packet leaves its slot; `dropped` is the marker it leaves. -/
def deliverSlot (i : Nat) (dropped : Bool) : ReceiveBuffer :=
  let s := b.slot i
  let b := (b.releasePayload s).indexOccupied i false
  b.setSlot i { s with
    occupied := false, dropped, payloadSize := 0, payloadOffset := 0, gapDeadline := 0 }

/-- The second loop of `pop_message`.  The count goes down with each packet
instead of once at the end. -/
def deliverSlots : Nat → Nat → ReceiveBuffer → Bytes × ReceiveBuffer
  | 0, _, b => ([], b)
  | packets + 1, i, b =>
    let bytes := b.payloadOf i
    let (rest, b) := deliverSlots packets (i + 1) (b.deliverSlot i false)
    (bytes ++ rest, b)

def popMessage (size : Nat) :
    Except Error ReceivedMessageResult × ReceiveBuffer :=
  match b.find b.firstStored with
  | none => (.error .wouldBlock, b)
  | some i =>
    let s := b.slot i
    if s.header.boundary ≠ .solo ∧ s.header.boundary ≠ .first then (.error .invalidState, b)
    else if s.payloadOffset ≠ 0 then (.error .invalidState, b)
    else
      match b.scanMessage s.header.messageNumber b.capacity b.firstStored 0 0 with
      | .error e => (.error e, b)
      | .ok (packets, total) =>
        if size < total then (.error .bufferTooSmall, b)
        else
          let (bytes, delivered) := deliverSlots packets 0 b.invalidateDeliveryQueries
          (.ok ⟨bytes, s.header.messageNumber, b.firstStored, s.header.timestamp⟩,
            (delivered.advanceFrontier packets).trimDroppedPrefix)

def popMessageUnordered (size : Nat) :
    Except Error ReceivedMessageResult × ReceiveBuffer :=
  let (message, b) := b.firstCompleteMessage
  match message with
  | none => (.error .wouldBlock, b)
  | some message =>
    if message.firstSequence = b.firstStored then b.popMessage size
    else if message.firstSequence ≠ message.lastSequence then (.error .invalidState, b)
    else
      match b.find message.firstSequence with
      | none => (.error .invalidState, b)
      | some i =>
        let s := b.slot i
        if s.header.boundary ≠ .solo ∨ s.payloadOffset ≠ 0 then (.error .invalidState, b)
        else if size < s.payloadSize then (.error .bufferTooSmall, b)
        else
          let bytes := b.payloadOf i
          -- The delivered marker stays until the frontier reaches it.
          let delivered := b.invalidateDeliveryQueries.deliverSlot i true
          (.ok ⟨bytes, s.header.messageNumber, message.firstSequence, s.header.timestamp⟩,
            delivered.advanceAcknowledgement.trimDroppedPrefix)

/-- The loop of `pop_stream`: the bytes read with `space` left. -/
def streamFrom (due : PacketTimestamp → Bool) : Nat → Nat → ReceiveBuffer → Bytes × ReceiveBuffer
  | 0, _, b => ([], b)
  | fuel + 1, space, b =>
    if space = 0 then ([], b)
    else
      match b.find b.firstStored with
      | none => ([], b)
      | some i =>
        let s := b.slot i
        if !due s.header.timestamp then ([], b)
        else
          let copied := min (s.payloadSize - s.payloadOffset) space
          let bytes := (b.payloadOf i).take copied
          let s := { s with payloadOffset := s.payloadOffset + copied }
          let b := { b with bufferedPayloadBytes := b.bufferedPayloadBytes - copied }
          let b := b.setSlot i s
          if s.payloadOffset ≠ s.payloadSize then (bytes, b)
          else
            let b := (b.invalidateDeliveryQueries.deliverSlot i false).advanceFrontier 1
            let (rest, b) := streamFrom due fuel (space - copied) b.trimDroppedPrefix
            (bytes ++ rest, b)

def popStream (size : Nat) (due : PacketTimestamp → Bool := fun _ => true) :
    Except Error ReceivedMessageResult × ReceiveBuffer :=
  if size = 0 then (.error .invalidState, b)
  else
    match b.find b.firstStored with
    | none => (.error .wouldBlock, b)
    | some i =>
      let h := (b.slot i).header
      if !due h.timestamp then (.error .wouldBlock, b)
      else
        let (bytes, popped) := streamFrom due b.capacity size b
        (.ok ⟨bytes, h.messageNumber, b.firstStored, h.timestamp⟩, popped)

/-! ## Gaps -/

/-- One round of `mark_gap`. -/
def markGapAt (sequence : SequenceNumber) (deadline : Nat) : ReceiveBuffer :=
  match b.offsetOf sequence with
  | none => b
  | some i =>
    let s := b.slot i
    if !s.occupied && !s.dropped && s.gapDeadline == 0 then
      b.setSlot i { s with gapDeadline := deadline }
    else b

def markGapFrom (deadline : Nat) : Nat → SequenceNumber → ReceiveBuffer → ReceiveBuffer
  | 0, _, b => b
  | count + 1, sequence, b =>
    markGapFrom deadline count sequence.next (b.markGapAt sequence deadline)

def markGap (range : SequenceRange) (deadline : Nat) : ReceiveBuffer :=
  let distance := range.last.distanceFrom range.first
  if deadline = 0 ∨ distance < 0 then b
  else markGapFrom deadline (distance.toNat + 1) range.first b

/-- The loop of `next_expired_gap`: an expired gap, the cursor behind it and
the inspections left. -/
def nextExpiredGapFrom (b : ReceiveBuffer) (now : Nat) :
    Nat → SequenceNumber → Option SequenceNumber × SequenceNumber × Nat
  | 0, cursor => (none, cursor, 0)
  | remaining + 1, cursor =>
    match b.offsetOf cursor with
    | none => (none, cursor, remaining + 1)
    | some i =>
      let s := b.slot i
      if !s.occupied && !s.dropped && s.gapDeadline != 0 && decide (s.gapDeadline ≤ now) then
        (some cursor, cursor.next, remaining)
      else b.nextExpiredGapFrom now remaining cursor.next

def nextExpiredGap (now : Nat) (cursor : SequenceNumber) (remaining : Nat) :
    Option SequenceNumber × SequenceNumber × Nat :=
  b.nextExpiredGapFrom now remaining
    (if cursor.distanceFrom b.firstStored < 0 then b.firstStored else cursor)

/-! ## Drops -/

/-- A packet stored where its number belongs. -/
def slotAt (i : Nat) : Option ReceiveSlot :=
  if (b.slot i).occupied && (b.slot i).header.sequence == b.firstStored.advanced i then
    some (b.slot i)
  else none

/-- Back to the `first` packet of the message that `offset` belongs to. -/
def seekFirst (b : ReceiveBuffer) (message offset : Nat) : Nat → Option Nat
  | 0 => some 0
  | i + 1 =>
    match b.slotAt (i + 1) with
    | none => none
    | some s =>
      if s.header.messageNumber ≠ message then none
      else if s.header.boundary = .first then some (i + 1)
      else if i + 1 ≠ offset ∧ s.header.boundary ≠ .subsequent then none
      else if i + 1 = offset ∧ s.header.boundary ≠ .subsequent ∧ s.header.boundary ≠ .last then
        none
      else b.seekFirst message offset i

/-- Forward to its `last` packet. -/
def seekLast (b : ReceiveBuffer) (message : Nat) : Nat → Nat → Option Nat
  | 0, _ => none
  | fuel + 1, i =>
    match b.slotAt i with
    | none => none
    | some s =>
      if s.payloadOffset ≠ 0 ∨ s.header.messageNumber ≠ message then none
      else if s.header.boundary = .last then some i
      else if s.header.boundary ≠ .subsequent then none
      else b.seekLast message fuel (i + 1)

/-- `complete_message_last_offset`: the last packet of the complete message
that `offset` belongs to. -/
def completeMessageLastOffset (offset : Nat) : Option Nat :=
  match b.slotAt offset with
  | none => none
  | some member =>
    if member.payloadOffset ≠ 0 then none
    else if member.header.boundary = .solo then some offset
    else
      let message := member.header.messageNumber
      match b.seekFirst message offset offset with
      | none => none
      | some first =>
        match b.slotAt first with
        | none => none
        | some start =>
          if start.header.boundary ≠ .first ∨ start.header.messageNumber ≠ message then none
          else b.seekLast message (b.capacity - (first + 1)) (first + 1)

/-- What the loop of `drop_range_impl` carries along. -/
structure DropProgress where
  buffer : ReceiveBuffer
  firstPreserved : Option SequenceNumber := none
  preserveThrough : Option Nat := none
  newlyDropped : Nat := 0

/-- The slot at `offset` becomes a dropped marker. -/
def dropSlot (offset : Nat) : ReceiveBuffer :=
  let s := b.slot offset
  if s.occupied then
    let b := (b.invalidateDeliveryQueries.releasePayload s).indexOccupied offset false
    (b.removeRejectedMessage s).setSlot offset { s with
      rejectedPayload := false, occupied := false, payloadSize := 0, payloadOffset := 0,
      dropped := true, gapDeadline := 0 }
  else b.setSlot offset { s with dropped := true, gapDeadline := 0 }

/-- One round of that loop. -/
def dropRound (preservation : DropPreservation) (p : DropProgress) (offset : Nat) : DropProgress :=
  let b := p.buffer
  let s := b.slot offset
  let preserved := p.firstPreserved.getD s.header.sequence
  let drop : DropProgress := { p with
    buffer := b.dropSlot offset
    newlyDropped := if s.dropped then p.newlyDropped else p.newlyDropped + 1 }
  match preservation with
  | .none => drop
  | .receivedPackets =>
    if s.occupied && !s.rejectedPayload
        && s.header.sequence == b.firstStored.advanced offset then
      { p with firstPreserved := some preserved }
    else drop
  | .completeMessages =>
    if p.preserveThrough.any (offset ≤ ·) then p
    else
      match b.completeMessageLastOffset offset with
      | some last => { p with firstPreserved := some preserved, preserveThrough := some last }
      | none => drop

/-- The loop over the offsets from `offset` on. -/
def dropRounds (preservation : DropPreservation) : Nat → Nat → DropProgress → DropProgress
  | 0, _, p => p
  | count + 1, offset, p =>
    dropRounds preservation count (offset + 1) (dropRound preservation p offset)

/-- Where the frontier goes once a range that starts at or before it is
dropped; `std::size_t` makes a negative distance a huge one. -/
def dropAdvance (last : SequenceNumber) (preserved : Option SequenceNumber) :
    Nat :=
  let target := last.next
  let target :=
    match preserved with
    | some s =>
      if s.distanceFrom b.firstStored ≥ 0 ∧ target.distanceFrom s > 0 then s else target
    | none => target
  ((target.distanceFrom b.firstStored) % 2 ^ 64).toNat

/-- The frontier skips what a drop left behind. -/
def skipFrontier (packets : Nat) : ReceiveBuffer :=
  (if packets = 0 then b else b.invalidateDeliveryQueries).advanceFrontier packets

/-- The acknowledgement is never left behind the frontier. -/
def catchUpAcknowledgement : ReceiveBuffer :=
  if b.firstStored.distanceFrom b.nextAck > 0 then
    { b with nextAck := b.firstStored }.advanceAcknowledgement
  else b

/-- The loop of `drop_range_impl` over the part of a range inside the window. -/
def dropWithin (range : SequenceRange) (preservation : DropPreservation) :
    DropProgress :=
  let firstOffset := (range.first.distanceFrom b.firstStored).toNat
  let finalOffset := min (range.last.distanceFrom b.firstStored).toNat (b.capacity - 1)
  dropRounds preservation (finalOffset + 1 - firstOffset) firstOffset { buffer := b }

/-- Marked, acknowledged and trimmed. -/
def dropTrimmed (range : SequenceRange) (preservation : DropPreservation) :
    ReceiveBuffer :=
  (b.dropWithin range preservation).buffer.advanceAcknowledgement.trimDroppedPrefix

/-- `additional_advance`: what the frontier still skips. -/
def additionalAdvance (range : SequenceRange)
    (preservation : DropPreservation) : Nat :=
  let trimmed := b.dropTrimmed range preservation
  if range.first.distanceFrom b.firstStored ≤ 0
      ∧ range.last.distanceFrom trimmed.firstStored ≥ 0 then
    trimmed.dropAdvance range.last (b.dropWithin range preservation).firstPreserved
  else 0

/-- `drop_range_impl`. -/
def dropRangeImpl (range : SequenceRange) (preservation : DropPreservation) :
    ReceiveBuffer :=
  if range.last.distanceFrom range.first < 0 then b
  else if range.last.distanceFrom b.firstStored < 0 then b
  else
    ((b.dropTrimmed range preservation).skipFrontier
      (b.additionalAdvance range preservation)).catchUpAcknowledgement

/-- What it returns, with the number of newly dropped packets. -/
def dropRangeResult (range : SequenceRange)
    (preservation : DropPreservation) : Except Error Nat :=
  if range.last.distanceFrom range.first < 0 then .error .invalidControlPayload
  else if range.last.distanceFrom b.firstStored < 0 then .ok 0
  else
    .ok ((b.dropWithin range preservation).newlyDropped + b.additionalAdvance range preservation)

def dropRange (range : SequenceRange) : ReceiveBuffer :=
  b.dropRangeImpl range .none

def dropPeerRequestedRange (range : SequenceRange) : ReceiveBuffer :=
  b.dropRangeImpl range .completeMessages

def dropPeerRequestedStreamRange (range : SequenceRange) : ReceiveBuffer :=
  b.dropRangeImpl range .receivedPackets

/-- What `acknowledge_peer_drop_range` returns: whether the range reaches
over the acknowledgement. -/
def acknowledgesPeerDropRange (range : SequenceRange) : Bool :=
  !(decide (range.last.distanceFrom range.first < 0)
    || decide (range.first.distanceFrom b.nextAck > 0)
    || decide (range.last.distanceFrom b.nextAck < 0))

/-- `acknowledge_peer_drop_range`. -/
def acknowledgePeerDropRange (range : SequenceRange) : ReceiveBuffer :=
  if b.acknowledgesPeerDropRange range then
    { b with nextAck := range.last.next }.advanceAcknowledgement
  else b

/-- One round of the loop of `discard_before`. -/
def discardSlot (i : Nat) : ReceiveBuffer :=
  let s := b.slot i
  let b := if s.occupied then b.releasePayload s else b
  ((b.indexOccupied i false).removeRejectedMessage s).setSlot i {}

def discardSlots : Nat → Nat → ReceiveBuffer → ReceiveBuffer
  | 0, _, b => b
  | count + 1, i, b => discardSlots count (i + 1) (b.discardSlot i)

/-- Every slot and both counters start afresh. -/
def resetSlots : ReceiveBuffer :=
  { b with
    slots := { b.slots with slots := fun _ => {} }
    occupied := 0
    bufferedPayloadBytes := 0 }

/-- The first `count` packets leave the window. -/
def discardWindow (count : Nat) : ReceiveBuffer :=
  let b := discardSlots (min count b.capacity) 0 b.invalidateDeliveryQueries
  if b.capacity ≤ count then b.resetSlots else b

/-- The acknowledgement moves up to a number it is behind. -/
def raiseAcknowledgement (next : SequenceNumber) : ReceiveBuffer :=
  if b.nextAck.distanceFrom next < 0 then { b with nextAck := next } else b

/-- `discard_before`; a distance is below the half range, so the source's
second test never fails. -/
def discardBefore (next : SequenceNumber) : ReceiveBuffer :=
  if next.distanceFrom b.firstStored ≤ 0 then b
  else
    ((b.discardWindow (next.distanceFrom b.firstStored).toNat).advanceFrontier
      (next.distanceFrom b.firstStored).toNat).raiseAcknowledgement next

end ReceiveBuffer

end Srt
