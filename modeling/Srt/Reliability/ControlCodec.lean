/-
# `ControlCodec` — reliability actions as control packets

`encode_reliability_action` of `src/session.cpp` with the payload codecs of
`src/control.cpp`.  An action is a record of which each kind uses a part;
`carried` is the part that goes over the wire, and the round trip gives back
exactly that.  A lite ACK carries its sequence number and nothing else.

A loss list is a sequence of words: a single number, or the two ends of a
range with the top bit set on the first.
-/
import Srt.Reliability.ReceiveBuffer

namespace Srt

open SequenceRange SequenceNumber

variable {header : ControlHeader}

/-! ## Words of a payload -/

/-- The word at an offset; every reader has checked the size first. -/
def readWord (payload : Bytes) (offset : Nat) : Nat :=
  match payload.drop offset with
  | a :: b :: c :: d :: _ => readU32 a b c d
  | _ => 0

theorem readWord_head {n : Nat} (h : n < 2 ^ 32) (rest : Bytes) :
    readWord (writeU32 n ++ rest) 0 = n :=
  readU32_writeU32 h

@[simp] theorem readWord_tail (n : Nat) (rest : Bytes) (offset : Nat) :
    readWord (writeU32 n ++ rest) (offset + 4) = readWord rest offset := by
  unfold readWord
  rw [Nat.add_comm, ← List.drop_drop]
  rfl

def readWord32 (payload : Bytes) (offset : Nat) : UInt32 := .ofNat (readWord payload offset)

/-- `valid_sequence_word`. -/
def validSequenceWord (value : Nat) : Bool := value < 2 ^ 31

/-- `is_zero_word_payload`. -/
def isZeroWordPayload (payload : Bytes) : Bool := payload == [0, 0, 0, 0]

/-! ## Acknowledgements -/

inductive AcknowledgementKind
  | lite
  | small
  | full
  deriving DecidableEq, Repr

structure Acknowledgement where
  kind : AcknowledgementKind := .full
  acknowledgementNumber : UInt32 := 0
  nextSequence : SequenceNumber := .ofNat 0
  roundTripTimeMicroseconds : UInt32 := 100000
  roundTripTimeVarianceMicroseconds : UInt32 := 50000
  availableReceiveBufferPackets : UInt32 := 0
  receiveRatePacketsPerSecond : UInt32 := 0
  estimatedLinkCapacityPacketsPerSecond : UInt32 := 0
  receiveRateBytesPerSecond : UInt32 := 0
  hasRateMetrics : Bool := false
  deriving DecidableEq, Repr

def decodeAcknowledgement (packet : PacketView) : Except Error Acknowledgement :=
  match packet with
  | .data _ => .error .invalidControlType
  | .control header payload =>
    if header.type ≠ .acknowledgement then .error .invalidControlType
    else if payload.length = 4 then
      if header.typeSpecific ≠ 0 then .error .invalidControlPayload
      else if validSequenceWord (readWord payload 0) = false then .error .invalidControlPayload
      else .ok {
        kind := .lite
        acknowledgementNumber := header.typeSpecific
        nextSequence := .ofNat (readWord payload 0) }
    else if payload.length ≠ 16 ∧ payload.length ≠ 24 ∧ payload.length ≠ 28
        ∧ payload.length ≠ 32 then .error .invalidControlPayload
    else if validSequenceWord (readWord payload 0) = false then .error .invalidControlPayload
    else
      let a : Acknowledgement := {
        kind := if payload.length = 16 then .small else .full
        acknowledgementNumber := header.typeSpecific
        nextSequence := .ofNat (readWord payload 0)
        roundTripTimeMicroseconds := readWord32 payload 4
        roundTripTimeVarianceMicroseconds := readWord32 payload 8
        availableReceiveBufferPackets := readWord32 payload 12 }
      let a : Acknowledgement :=
        if payload.length ≥ 24 then
          { a with
            receiveRatePacketsPerSecond := readWord32 payload 16
            estimatedLinkCapacityPacketsPerSecond := readWord32 payload 20
            hasRateMetrics := true }
        else a
      .ok (if payload.length ≥ 28 then
        { a with receiveRateBytesPerSecond := readWord32 payload 24 } else a)

/-- The payload words of an acknowledgement, as many as its kind has. -/
def Acknowledgement.payload (a : Acknowledgement) : Bytes :=
  let first := writeU32 a.nextSequence.value
  let timing := writeU32 a.roundTripTimeMicroseconds.toNat
    ++ (writeU32 a.roundTripTimeVarianceMicroseconds.toNat
      ++ writeU32 a.availableReceiveBufferPackets.toNat)
  let rates := writeU32 a.receiveRatePacketsPerSecond.toNat
    ++ (writeU32 a.estimatedLinkCapacityPacketsPerSecond.toNat
      ++ writeU32 a.receiveRateBytesPerSecond.toNat)
  match a.kind with
  | .lite => first
  | .small => first ++ timing
  | .full => first ++ (timing ++ rates)

def encodeAcknowledgementPayload (a : Acknowledgement) (capacity : Nat) : Except Error Bytes :=
  if capacity < a.payload.length then .error .bufferTooSmall else .ok a.payload

/-! ## Drop requests -/

structure DropRequest where
  messageNumber : UInt32 := 0
  sequences : SequenceRange := default
  deriving DecidableEq, Repr

def decodeDropRequest (packet : PacketView) : Except Error DropRequest :=
  match packet with
  | .data _ => .error .invalidControlType
  | .control header payload =>
    if header.type ≠ .dropRequest then .error .invalidControlType
    else if payload.length ≠ 8 then .error .invalidControlPayload
    else if validSequenceWord (readWord payload 0) = false
        ∨ validSequenceWord (readWord payload 4) = false then .error .invalidControlPayload
    else
      let first := ofNat (readWord payload 0)
      let last := ofNat (readWord payload 4)
      if last.distanceFrom first < 0 then .error .invalidControlPayload
      else .ok {
        messageNumber := .ofNat (header.typeSpecific.toNat % 2 ^ 26)
        sequences := ⟨first, last⟩ }

/-- The ends of a range are in wrap order. -/
def SequenceRange.Ordered (range : SequenceRange) : Prop :=
  0 ≤ range.last.distanceFrom range.first

instance (range : SequenceRange) : Decidable range.Ordered :=
  inferInstanceAs (Decidable (0 ≤ _))

def encodeDropRequestPayload (request : DropRequest) (capacity : Nat) : Except Error Bytes :=
  if ¬request.sequences.Ordered then .error .invalidControlPayload
  else if capacity < 8 then .error .bufferTooSmall
  else .ok (writeU32 request.sequences.first.value ++ writeU32 request.sequences.last.value)

/-! ## Loss lists -/

/-- One entry of a loss list and the bytes it takes. -/
def decodeLossRange (payload : Bytes) : Except Error (SequenceRange × Nat) :=
  if payload.length < 4 then .error .invalidControlPayload
  else
    let firstWord := readWord payload 0
    let first := ofNat firstWord
    if firstWord < 2 ^ 31 then .ok (⟨first, first⟩, 4)
    else if payload.length < 8 then .error .invalidControlPayload
    else
      let lastWord := readWord payload 4
      let last := ofNat lastWord
      if 2 ^ 31 ≤ lastWord then .error .invalidControlPayload
      else if last.distanceFrom first < 0 then .error .invalidControlPayload
      else .ok (⟨first, last⟩, 8)

/-- The loop of a NAK's receiver: entries until the payload is used up.  An
entry takes at least a word, so the length of the payload is enough fuel. -/
def decodeLossRanges : Nat → Bytes → Except Error (List SequenceRange)
  | _, [] => .ok []
  | 0, _ => .error .invalidControlPayload
  | n + 1, payload => do
      let (range, consumed) ← decodeLossRange payload
      let rest ← decodeLossRanges n (payload.drop consumed)
      return range :: rest

/-- The words of one entry. -/
def SequenceRange.words (range : SequenceRange) : Bytes :=
  if range.first = range.last then writeU32 range.first.value
  else writeU32 (range.first.value + 2 ^ 31) ++ writeU32 range.last.value

def encodeLossRanges : List SequenceRange → Nat → Except Error Bytes
  | [], _ => .ok []
  | range :: ranges, capacity =>
    if ¬range.Ordered then .error .invalidControlPayload
    else if capacity < range.words.length then .error .bufferTooSmall
    else do
      let rest ← encodeLossRanges ranges (capacity - range.words.length)
      return range.words ++ rest

/-! ## Actions -/

inductive ReliabilityActionKind
  | acknowledgement
  | acknowledgementOfAck
  | lossReport
  | dropRequest
  | keepalive
  | shutdown
  deriving DecidableEq, Repr

/-- What the encoder reads of a `ReliabilityAction`; the ranges of a loss
report are kept beside it. -/
structure ReliabilityAction where
  kind : ReliabilityActionKind := .acknowledgement
  acknowledgement : Acknowledgement := {}
  acknowledgementNumber : UInt32 := 0
  drop : DropRequest := {}
  deriving DecidableEq, Repr

/-- Type, type-specific word and payload of an action. -/
def ReliabilityAction.fields (action : ReliabilityAction) (lossRanges : List SequenceRange)
    (capacity : Nat) : Except Error (ControlType × UInt32 × Bytes) :=
  match action.kind with
  | .acknowledgement =>
    if action.acknowledgement.kind = .full ∧ action.acknowledgement.acknowledgementNumber = 0
    then .error .invalidControlPayload
    else do
      let payload ← encodeAcknowledgementPayload action.acknowledgement capacity
      return (.acknowledgement, if action.acknowledgement.kind = .full
        then action.acknowledgement.acknowledgementNumber else 0, payload)
  | .acknowledgementOfAck => .ok (.acknowledgementOfAck, action.acknowledgementNumber, [])
  | .lossReport =>
    if lossRanges = [] then .error .invalidControlPayload
    else do
      let payload ← encodeLossRanges lossRanges capacity
      return (.negativeAcknowledgement, 0, payload)
  | .dropRequest => do
      let payload ← encodeDropRequestPayload action.drop capacity
      return (.dropRequest, action.drop.messageNumber, payload)
  | .keepalive => .ok (.keepalive, 0, [])
  | .shutdown => .ok (.shutdown, 0, [])

/-- The payload goes behind a header that is encoded without one. -/
def encodeReliabilityAction (action : ReliabilityAction) (lossRanges : List SequenceRange)
    (timestamp : PacketTimestamp) (destinationSocketId : UInt32) (capacity : Nat) :
    Except Error Bytes :=
  if capacity < packetHeaderSize then .error .bufferTooSmall
  else do
    let (type, typeSpecific, payload) ←
      action.fields lossRanges (capacity - packetHeaderSize)
    let header ← encodePacket
      (.control { type, typeSpecific, timestamp, destinationSocketId } []) capacity
    return header ++ payload

/-- What a session reads off a control packet: the action it stands for and
the ranges of a loss report. -/
def readReliabilityAction (packet : PacketView) :
    Except Error (ReliabilityAction × List SequenceRange) :=
  match packet with
  | .data _ => .error .invalidPacketType
  | .control header payload =>
    match header.type with
    | .acknowledgement => do
        let acknowledgement ← decodeAcknowledgement packet
        return ({ kind := .acknowledgement, acknowledgement }, [])
    | .negativeAcknowledgement => do
        let ranges ← decodeLossRanges payload.length payload
        return ({ kind := .lossReport }, ranges)
    | .acknowledgementOfAck =>
      if isZeroWordPayload payload = false then .error .invalidControlPayload
      else .ok ({
        kind := .acknowledgementOfAck
        acknowledgementNumber := header.typeSpecific }, [])
    | .dropRequest => do
        let drop ← decodeDropRequest packet
        return ({ kind := .dropRequest, drop }, [])
    | .keepalive =>
      if isZeroWordPayload payload = false then .error .invalidControlPayload
      else .ok ({ kind := .keepalive }, [])
    | .shutdown =>
      if isZeroWordPayload payload = false then .error .invalidControlPayload
      else .ok ({ kind := .shutdown }, [])
    | _ => .error .unsupported

/-! ## Round trips -/

/-- What an acknowledgement of its kind carries; the rest is read back as the
default.  Only a full one has a number, and its rates are always valid. -/
def Acknowledgement.carried (a : Acknowledgement) : Acknowledgement :=
  match a.kind with
  | .lite => { kind := .lite, nextSequence := a.nextSequence }
  | .small =>
    { kind := .small
      nextSequence := a.nextSequence
      roundTripTimeMicroseconds := a.roundTripTimeMicroseconds
      roundTripTimeVarianceMicroseconds := a.roundTripTimeVarianceMicroseconds
      availableReceiveBufferPackets := a.availableReceiveBufferPackets }
  | .full => { a with hasRateMetrics := true }

/-- A message number has twenty-six bits on the wire. -/
def DropRequest.carried (d : DropRequest) : DropRequest :=
  { d with messageNumber := .ofNat (d.messageNumber.toNat % 2 ^ 26) }

def ReliabilityAction.carried (action : ReliabilityAction) : ReliabilityAction :=
  match action.kind with
  | .acknowledgement =>
    { kind := .acknowledgement, acknowledgement := action.acknowledgement.carried }
  | .acknowledgementOfAck =>
    { kind := .acknowledgementOfAck, acknowledgementNumber := action.acknowledgementNumber }
  | .lossReport => { kind := .lossReport }
  | .dropRequest => { kind := .dropRequest, drop := action.drop.carried }
  | .keepalive => { kind := .keepalive }
  | .shutdown => { kind := .shutdown }

section Words

theorem readWord_only {n : Nat} (h : n < 2 ^ 32) : readWord (writeU32 n) 0 = n := readU32_writeU32 h

theorem readWord32_head (n : UInt32) (rest : Bytes) :
    readWord32 (writeU32 n.toNat ++ rest) 0 = n := by
  rw [readWord32, readWord_head n.toNat_lt, UInt32.ofNat_toNat]

theorem readWord32_only (n : UInt32) : readWord32 (writeU32 n.toNat) 0 = n := by
  rw [readWord32, readWord_only n.toNat_lt, UInt32.ofNat_toNat]

theorem readWord32_tail (n : Nat) (rest : Bytes) (offset : Nat) :
    readWord32 (writeU32 n ++ rest) (offset + 4) = readWord32 rest offset := by
  rw [readWord32, readWord_tail, readWord32]

theorem SequenceNumber.value_lt_word (s : SequenceNumber) : s.value < 2 ^ 32 :=
  Nat.lt_trans s.value_lt (by decide)

theorem validSequenceWord_value (s : SequenceNumber) : validSequenceWord s.value = true := by
  simpa [validSequenceWord] using s.value_lt

theorem SequenceNumber.ofNat_self (s : SequenceNumber) : ofNat s.value = s := by
  ext
  exact Nat.mod_eq_of_lt s.value_lt

end Words

theorem decodeAcknowledgement_payload {a : Acknowledgement} (htype : header.type = .acknowledgement)
    (hnumber : header.typeSpecific = if a.kind = .full then a.acknowledgementNumber else 0) :
    decodeAcknowledgement (.control header a.payload) = .ok a.carried := by
  have hword := a.nextSequence.value_lt_word
  have hvalid := validSequenceWord_value a.nextSequence
  have hself := a.nextSequence.ofNat_self
  cases hkind : a.kind with
  | lite =>
    rw [hkind] at hnumber
    simp only [Acknowledgement.payload, Acknowledgement.carried, hkind, decodeAcknowledgement,
      htype, hnumber, writeU32_length, readWord_only hword, hvalid, hself]
    simp
  | small =>
    rw [hkind] at hnumber
    simp only [Acknowledgement.payload, Acknowledgement.carried, hkind, decodeAcknowledgement,
      htype, hnumber, readWord_head hword, hvalid, hself]
    simp [readWord32_tail _ _ 0, readWord32_tail _ _ 4, readWord32_tail _ _ 8, readWord32_head,
      readWord32_only]
  | full =>
    rw [hkind] at hnumber
    simp only [Acknowledgement.payload, Acknowledgement.carried, hkind, decodeAcknowledgement,
      htype, hnumber, readWord_head hword, hvalid, hself, List.append_assoc]
    simp [readWord32_tail _ _ 0, readWord32_tail _ _ 4, readWord32_tail _ _ 8,
      readWord32_tail _ _ 12, readWord32_tail _ _ 16, readWord32_tail _ _ 20, readWord32_head,
      readWord32_only]

theorem decodeDropRequest_payload {d : DropRequest} (htype : header.type = .dropRequest)
    (hnumber : header.typeSpecific = d.messageNumber) (hordered : d.sequences.Ordered) :
    decodeDropRequest (.control header
      (writeU32 d.sequences.first.value ++ writeU32 d.sequences.last.value)) = .ok d.carried := by
  have hfirst := d.sequences.first.value_lt_word
  have hlast := d.sequences.last.value_lt_word
  have hlastWord : readWord (writeU32 d.sequences.first.value ++
      writeU32 d.sequences.last.value) 4 = d.sequences.last.value := by
    rw [readWord_tail _ _ 0, readWord_only hlast]
  have hnot : ¬d.sequences.last.distanceFrom d.sequences.first < 0 := not_lt.2 hordered
  simp only [decodeDropRequest, htype, hnumber, readWord_head hfirst, hlastWord,
    validSequenceWord_value, ofNat_self, if_neg hnot, DropRequest.carried]
  simp

/-! ### Loss lists -/

section LossRanges

variable {range : SequenceRange} {ranges : List SequenceRange}

/-- An entry is read back and its length is what it takes. -/
theorem decodeLossRange_words (hordered : range.Ordered) (rest : Bytes) :
    decodeLossRange (range.words ++ rest) = .ok (range, range.words.length) := by
  obtain ⟨first, last⟩ := range
  have hfirst := first.value_lt
  have hlast := last.value_lt
  by_cases hsingle : first = last
  · subst hsingle
    have hwords : words ⟨first, first⟩ = writeU32 first.value := if_pos rfl
    simp only [hwords, decodeLossRange, readWord_head first.value_lt_word,
      List.length_append, writeU32_length, if_pos hfirst, first.ofNat_self]
    rw [if_neg (by omega)]
  have htop : first.value + 2 ^ 31 < 2 ^ 32 := by omega
  have hmasked : ofNat (first.value + 2 ^ 31) = first := by
    ext
    simp only [ofNat_value]
    omega
  have hnot : ¬last.distanceFrom first < 0 := not_lt.2 hordered
  simp only [words, if_neg hsingle, decodeLossRange, List.append_assoc,
    readWord_head htop, List.length_append, writeU32_length, readWord_tail _ _ 0,
    readWord_head last.value_lt_word, hmasked, last.ofNat_self, if_neg hnot]
  rw [if_neg (by omega), if_neg (by omega), if_neg (by omega), if_neg (by omega)]

theorem words_length_le : range.words.length ≤ 8 := by
  unfold words
  split <;> simp

theorem words_length_pos : 0 < range.words.length := by
  unfold words
  split <;> simp

/-- Reading a list of entries gives the ranges in their order. -/
theorem decodeLossRanges_words : ∀ {ranges : List SequenceRange} {n : Nat},
    (∀ range ∈ ranges, range.Ordered) → (ranges.flatMap words).length ≤ n →
    decodeLossRanges n (ranges.flatMap words) = .ok ranges
  | [], n, _, _ => by cases n <;> rfl
  | range :: ranges, n, hordered, hn => by
      have hpos := @words_length_pos range
      rw [List.flatMap_cons, List.length_append] at hn
      obtain ⟨n, rfl⟩ : ∃ m, n = m + 1 := ⟨n - 1, by omega⟩
      have hne : range.words ++ ranges.flatMap words ≠ [] := by
        intro hnil
        rw [(List.append_eq_nil_iff.1 hnil).1] at hpos
        exact absurd hpos (by simp)
      have hrest := decodeLossRanges_words (n := n)
        (fun r hr => hordered r (List.mem_cons_of_mem _ hr)) (by omega)
      rw [List.flatMap_cons, decodeLossRanges, decodeLossRange_words (hordered range (by simp))]
      · simp only [bind, Except.bind, List.drop_left, hrest]
        rfl
      · exact hne

/-- The encoder writes the entries one after the other, or refuses. -/
theorem encodeLossRanges_eq_ok : ∀ {ranges : List SequenceRange} {capacity : Nat} {bytes : Bytes},
    encodeLossRanges ranges capacity = .ok bytes ↔
      (∀ range ∈ ranges, range.Ordered) ∧ bytes = ranges.flatMap words ∧
      (ranges.flatMap words).length ≤ capacity
  | [], capacity, bytes => by simp [encodeLossRanges, eq_comm]
  | range :: ranges, capacity, bytes => by
      rw [encodeLossRanges, List.flatMap_cons, List.length_append, List.forall_mem_cons]
      by_cases hordered : range.Ordered
      · rw [if_neg (not_not.2 hordered)]
        by_cases hfits : capacity < range.words.length
        · rw [if_pos hfits]
          constructor
          · intro h; cases h
          · rintro ⟨-, -, hlen⟩; omega
        rw [if_neg hfits]
        constructor
        · intro h
          cases hrest : encodeLossRanges ranges (capacity - range.words.length) with
          | error e => rw [hrest] at h; cases h
          | ok rest =>
            rw [hrest] at h
            obtain ⟨hall, rfl, hlen⟩ := encodeLossRanges_eq_ok.1 hrest
            cases h
            exact ⟨⟨hordered, hall⟩, rfl, by omega⟩
        rintro ⟨⟨-, hall⟩, rfl, hlen⟩
        have hrest : encodeLossRanges ranges (capacity - range.words.length) =
            .ok (ranges.flatMap words) :=
          encodeLossRanges_eq_ok.2 ⟨hall, rfl, by omega⟩
        rw [hrest]
        rfl
      rw [if_pos hordered]
      constructor
      · intro h; cases h
      · rintro ⟨⟨h, -⟩, -⟩; exact absurd h hordered

/-- `maximum_loss_ranges_per_report`. -/
def maximumLossRangesPerReport : Nat := maximumDataPayloadSize / 8

/-- Ranges take at most two words each. -/
theorem flatMap_words_length_le : (ranges.flatMap words).length ≤ 8 * ranges.length := by
  induction ranges with
  | nil => simp
  | cons range ranges ih =>
    have := @words_length_le range
    rw [List.flatMap_cons, List.length_append, List.length_cons]
    omega

theorem flatMap_words_length_mod : (ranges.flatMap words).length % 4 = 0 := by
  induction ranges with
  | nil => rfl
  | cons range ranges ih =>
    have hrange : range.words.length % 4 = 0 := by
      unfold words
      split <;> simp
    rw [List.flatMap_cons, List.length_append]
    omega

end LossRanges

/-! ### Actions -/

/-- The actions the encoder takes: a full ACK has a number, the ranges of a
report are in order and no more than a session collects, and so are the ends
of a dropped range. -/
def ReliabilityAction.Encodable (action : ReliabilityAction) (lossRanges : List SequenceRange) :
    Prop :=
  match action.kind with
  | .acknowledgement => action.acknowledgement.kind = .full →
      action.acknowledgement.acknowledgementNumber ≠ 0
  | .lossReport => lossRanges ≠ [] ∧ lossRanges.length ≤ maximumLossRangesPerReport ∧
      ∀ range ∈ lossRanges, range.Ordered
  | .dropRequest => action.drop.sequences.Ordered
  | _ => True

/-- The ranges that go with an action. -/
def ReliabilityAction.ranges (action : ReliabilityAction) (lossRanges : List SequenceRange) :
    List SequenceRange :=
  if action.kind = .lossReport then lossRanges else []

section Actions

variable {action : ReliabilityAction} {lossRanges : List SequenceRange}
  {type : ControlType} {typeSpecific : UInt32} {payload : Bytes} {capacity : Nat}

theorem Acknowledgement.payload_length (a : Acknowledgement) :
    a.payload.length = match a.kind with | .lite => 4 | .small => 16 | .full => 28 := by
  unfold Acknowledgement.payload
  cases a.kind <;> simp

theorem hasValidControlPayloadShape_iff {payload : Bytes} :
    hasValidControlPayloadShape payload = true ↔ payload.length ≠ 0 ∧ payload.length % 4 = 0 := by
  simp [hasValidControlPayloadShape]

/-- What the packet encoder puts behind a header without payload. -/
def zeroWord (type : ControlType) : Bytes :=
  if type.usesZeroWordPayload then [0, 0, 0, 0] else []

/-- What stands behind the header on the wire. -/
def wirePayload (type : ControlType) (payload : Bytes) : Bytes := zeroWord type ++ payload

theorem encodePacket_empty (header : ControlHeader) : encodePacket (.control header []) capacity =
      if capacity < packetHeaderSize + (zeroWord header.type).length then .error .bufferTooSmall
      else .ok (header.bytes ++ zeroWord header.type) := rfl

/-- The fields of an action are read back from a packet that has them. -/
theorem fields_round_trip
    (h : action.fields lossRanges capacity = .ok (type, typeSpecific, payload))
    (htype : header.type = type) (hspecific : header.typeSpecific = typeSpecific) :
    hasValidControlPayloadShape (wirePayload type payload) = true ∧
    readReliabilityAction (.control header (wirePayload type payload)) =
      .ok (action.carried, action.ranges lossRanges) := by
  obtain ⟨kind, ack, number, drop⟩ := action
  cases kind with
  | acknowledgement =>
    simp only [ReliabilityAction.fields, encodeAcknowledgementPayload] at h
    split at h
    · cases h
    split at h
    · cases h
    cases h
    have hwire : wirePayload .acknowledgement ack.payload = ack.payload := rfl
    rw [hwire]
    constructor
    · rw [hasValidControlPayloadShape_iff, Acknowledgement.payload_length]
      cases ack.kind <;> simp
    have hread := decodeAcknowledgement_payload htype hspecific
    simp only [readReliabilityAction, htype, hread]
    rfl
  | acknowledgementOfAck =>
    cases h
    refine ⟨rfl, ?_⟩
    simp [readReliabilityAction, htype, hspecific, wirePayload, zeroWord, isZeroWordPayload,
      ControlType.usesZeroWordPayload, ReliabilityAction.carried, ReliabilityAction.ranges]
  | lossReport =>
    simp only [ReliabilityAction.fields] at h
    split at h
    · cases h
    rename_i hne
    cases hbytes : encodeLossRanges lossRanges capacity with
    | error e => rw [hbytes] at h; cases h
    | ok bytes =>
      rw [hbytes] at h
      cases h
      obtain ⟨hordered, rfl, -⟩ := encodeLossRanges_eq_ok.1 hbytes
      have hpos : (lossRanges.flatMap words).length ≠ 0 := by
        obtain ⟨range, ranges, rfl⟩ := List.exists_cons_of_ne_nil hne
        have := @words_length_pos range
        rw [List.flatMap_cons, List.length_append]
        omega
      have hwire : wirePayload .negativeAcknowledgement
          (lossRanges.flatMap words) = lossRanges.flatMap words := rfl
      rw [hwire]
      refine ⟨hasValidControlPayloadShape_iff.2 ⟨hpos, flatMap_words_length_mod⟩, ?_⟩
      have hread := decodeLossRanges_words hordered le_rfl
      simp only [readReliabilityAction, htype, hread]
      rfl
  | dropRequest =>
    simp only [ReliabilityAction.fields, encodeDropRequestPayload] at h
    split at h
    · cases h
    rename_i hordered
    split at h
    · cases h
    cases h
    refine ⟨by rw [hasValidControlPayloadShape_iff]; simp [wirePayload, zeroWord,
      ControlType.usesZeroWordPayload], ?_⟩
    have hread := decodeDropRequest_payload htype hspecific (not_not.1 hordered)
    have hwire : wirePayload .dropRequest (writeU32 drop.sequences.first.value
        ++ writeU32 drop.sequences.last.value) = writeU32 drop.sequences.first.value
        ++ writeU32 drop.sequences.last.value := rfl
    simp only [hwire, readReliabilityAction, htype, hread]
    rfl
  | keepalive | shutdown =>
    cases h
    refine ⟨rfl, ?_⟩
    simp [readReliabilityAction, htype, wirePayload, zeroWord, isZeroWordPayload,
      ControlType.usesZeroWordPayload, ReliabilityAction.carried, ReliabilityAction.ranges]

section

variable {timestamp : PacketTimestamp} {destinationSocketId : UInt32} {bytes : Bytes}
  (h : encodeReliabilityAction action lossRanges timestamp destinationSocketId capacity = .ok bytes)
include h

theorem encodeReliabilityAction_eq_ok : ∃ type typeSpecific payload,
      action.fields lossRanges (capacity - packetHeaderSize) = .ok (type, typeSpecific, payload) ∧
      bytes = ControlHeader.bytes { type, typeSpecific, timestamp, destinationSocketId } ++
        wirePayload type payload := by
  unfold encodeReliabilityAction at h
  split at h
  · cases h
  cases hfields : action.fields lossRanges (capacity - packetHeaderSize) with
  | error e => rw [hfields] at h; cases h
  | ok fields =>
    obtain ⟨type, typeSpecific, payload⟩ := fields
    rw [hfields] at h
    refine ⟨type, typeSpecific, payload, rfl, ?_⟩
    simp only [bind, Except.bind, encodePacket_empty] at h
    split at h
    · cases h
    rename_i header hheader
    split at hheader
    · cases hheader
    cases hheader
    cases h
    rw [wirePayload, List.append_assoc]

/-- Every action the encoder takes is decoded to what it carries, with the
timestamp and the socket it was given. -/
theorem round_trip_of_encode :
    ∃ header payload, decodePacket bytes = .ok (.control header payload) ∧
      header.timestamp = timestamp ∧ header.destinationSocketId = destinationSocketId ∧
      readReliabilityAction (.control header payload) =
        .ok (action.carried, action.ranges lossRanges) := by
  obtain ⟨type, typeSpecific, payload, hfields, rfl⟩ := encodeReliabilityAction_eq_ok h
  obtain ⟨hshape, hread⟩ := fields_round_trip hfields
    (show ControlHeader.type { type, typeSpecific, timestamp, destinationSocketId } = type from rfl)
    rfl
  exact ⟨_, _, decodePacket_control hshape, rfl, rfl, hread⟩

end

/-- A buffer of the largest size is enough for every action the encoder
takes. -/
theorem encode_of_encodable (h : action.Encodable lossRanges) (timestamp : PacketTimestamp)
    (destinationSocketId : UInt32)
    (hcapacity : packetHeaderSize + maximumDataPayloadSize ≤ capacity) :
    ∃ bytes, encodeReliabilityAction action lossRanges timestamp destinationSocketId capacity =
      .ok bytes := by
  have hsize : 16 + 1456 ≤ capacity := hcapacity
  have hfields : ∃ type typeSpecific payload, action.fields lossRanges
      (capacity - packetHeaderSize) = .ok (type, typeSpecific, payload) := by
    obtain ⟨kind, ack, number, drop⟩ := action
    cases kind with
    | acknowledgement =>
      have hlength : ack.payload.length ≤ 28 := by
        rw [ack.payload_length]
        split <;> simp
      simp only [ReliabilityAction.fields, encodeAcknowledgementPayload]
      rw [if_neg (fun hc => h hc.1 hc.2), if_neg (by unfold packetHeaderSize; omega)]
      exact ⟨_, _, _, rfl⟩
    | acknowledgementOfAck => exact ⟨_, _, _, rfl⟩
    | lossReport =>
      obtain ⟨hne, hcount, hordered⟩ := h
      have hlength := @flatMap_words_length_le lossRanges
      have hmaximum : 8 * maximumLossRangesPerReport = 1456 := rfl
      have hbytes : encodeLossRanges lossRanges (capacity - packetHeaderSize) = .ok _ :=
        encodeLossRanges_eq_ok.2 ⟨hordered, rfl, by unfold packetHeaderSize; omega⟩
      simp only [ReliabilityAction.fields, if_neg hne, hbytes]
      exact ⟨_, _, _, rfl⟩
    | dropRequest =>
      have hordered : drop.sequences.Ordered := h
      simp only [ReliabilityAction.fields, encodeDropRequestPayload]
      rw [if_neg (not_not.2 hordered), if_neg (by unfold packetHeaderSize; omega)]
      exact ⟨_, _, _, rfl⟩
    | keepalive => exact ⟨_, _, _, rfl⟩
    | shutdown => exact ⟨_, _, _, rfl⟩
  obtain ⟨type, typeSpecific, payload, hfields⟩ := hfields
  have hheader : ∀ header : ControlHeader, ∃ bytes,
      encodePacket (.control header []) capacity = .ok bytes := by
    intro header
    have hword : (zeroWord header.type).length ≤ 4 := by
      unfold zeroWord
      split <;> simp
    rw [encodePacket_empty, if_neg (by unfold packetHeaderSize; omega)]
    exact ⟨_, rfl⟩
  obtain ⟨header, hheader⟩ := hheader { type, typeSpecific, timestamp, destinationSocketId }
  refine ⟨header ++ payload, ?_⟩
  rw [encodeReliabilityAction, if_neg (by unfold packetHeaderSize; omega), hfields]
  simp only [bind, Except.bind, hheader]
  rfl

end Actions

/-! ### The acknowledgements of a session -/

/-- Numbers of full acknowledgements: never zero. -/
structure AcknowledgementNumberGenerator where
  next : UInt32 := 1
  ne_zero : next ≠ 0 := by decide

theorem add_one_ne_zero_of_ne_max {n : UInt32} (h : n ≠ 0xffffffff) : n + 1 ≠ 0 := by
  intro hzero
  apply h
  apply UInt32.toNat_inj.1
  have hlt := n.toNat_lt
  have hsum := congrArg UInt32.toNat hzero
  rw [UInt32.toNat_add] at hsum
  simp only [UInt32.reduceToNat] at hsum ⊢
  omega

def AcknowledgementNumberGenerator.take (g : AcknowledgementNumberGenerator) :
    UInt32 × AcknowledgementNumberGenerator :=
  (g.next, if h : g.next = 0xffffffff then { next := 1 }
    else { next := g.next + 1, ne_zero := add_one_ne_zero_of_ne_max h })

/-- What `make_acknowledgement` reads of the session. -/
structure Measurements where
  nextSequence : SequenceNumber
  smoothedMicroseconds : UInt32
  variationMicroseconds : UInt32
  available : UInt32
  /-- Packets, bytes and link capacity, while the estimate is valid. -/
  rates : Option (UInt32 × UInt32 × UInt32)

def makeAcknowledgement (numbers : AcknowledgementNumberGenerator) (m : Measurements)
    (kind : AcknowledgementKind) : ReliabilityAction × AcknowledgementNumberGenerator :=
  let a : Acknowledgement := {
    kind
    nextSequence := m.nextSequence
    roundTripTimeMicroseconds := m.smoothedMicroseconds
    roundTripTimeVarianceMicroseconds := m.variationMicroseconds
    availableReceiveBufferPackets := m.available }
  let a : Acknowledgement :=
    match m.rates with
    | none => a
    | some (packets, bytes, capacity) =>
      { a with
        receiveRatePacketsPerSecond := packets
        receiveRateBytesPerSecond := bytes
        estimatedLinkCapacityPacketsPerSecond := capacity
        hasRateMetrics := true }
  if kind = .full then
    let (number, numbers) := numbers.take
    ({ kind := .acknowledgement,
       acknowledgement := { a with acknowledgementNumber := number } }, numbers)
  else ({ kind := .acknowledgement, acknowledgement := a }, numbers)

/-- The encoder takes every acknowledgement a session makes. -/
theorem makeAcknowledgement_encodable (numbers : AcknowledgementNumberGenerator)
    (m : Measurements) (kind : AcknowledgementKind) (lossRanges : List SequenceRange) :
    (makeAcknowledgement numbers m kind).1.Encodable lossRanges := by
  obtain ⟨sequence, smoothed, variation, available, rates⟩ := m
  cases kind with
  | full => exact fun _ => numbers.ne_zero
  | small => cases rates <;> intro hfull <;> cases hfull
  | lite => cases rates <;> intro hfull <;> cases hfull

/-- A reliability action is encoded whenever the buffer has the largest size
and the encoder takes the action, and whatever is encoded is decoded to what
the action carries: every field but those its kind leaves out. -/
theorem reliability_actions_round_trip (action : ReliabilityAction)
    (lossRanges : List SequenceRange) (timestamp : PacketTimestamp) (destinationSocketId : UInt32) :
    (action.Encodable lossRanges →
      ∃ bytes, encodeReliabilityAction action lossRanges timestamp destinationSocketId
        (packetHeaderSize + maximumDataPayloadSize) = .ok bytes) ∧
    (∀ numbers m kind, (makeAcknowledgement numbers m kind).1.Encodable lossRanges) ∧
    ∀ capacity bytes,
      encodeReliabilityAction action lossRanges timestamp destinationSocketId capacity = .ok bytes →
      ∃ header payload, decodePacket bytes = .ok (.control header payload) ∧
        header.timestamp = timestamp ∧ header.destinationSocketId = destinationSocketId ∧
        readReliabilityAction (.control header payload) =
          .ok (action.carried, action.ranges lossRanges) :=
  ⟨fun h => encode_of_encodable h timestamp destinationSocketId le_rfl,
    fun numbers m kind => makeAcknowledgement_encodable numbers m kind lossRanges,
    fun _ _ h => round_trip_of_encode h⟩

/-- A report of one number and one range across the wrap. -/
def exampleReport : List SequenceRange :=
  [⟨.ofNat 5, .ofNat 5⟩, ⟨.ofNat 0x7ffffffe, .ofNat 3⟩]

theorem reliability_actions_round_trip_exampleReport :
    ∃ bytes header payload,
      encodeReliabilityAction { kind := .lossReport } exampleReport ⟨7⟩ 9
        (packetHeaderSize + maximumDataPayloadSize) = .ok bytes ∧
      decodePacket bytes = .ok (.control header payload) ∧
      readReliabilityAction (.control header payload) =
        .ok ({ kind := .lossReport }, exampleReport) := by
  have htrip := reliability_actions_round_trip { kind := .lossReport } exampleReport ⟨7⟩ 9
  obtain ⟨bytes, hbytes⟩ := htrip.1 ⟨by decide, by decide, by decide⟩
  obtain ⟨header, payload, hdecode, -, -, hread⟩ := htrip.2.2 _ bytes hbytes
  exact ⟨bytes, header, payload, hbytes, hdecode, hread⟩

/-- A session that has measured a round trip of 20 ms and has room for 8192
packets. -/
def exampleMeasurements : Measurements where
  nextSequence := .ofNat 100
  smoothedMicroseconds := 20000
  variationMicroseconds := 5000
  available := 8192
  rates := none

/-- The lite ACK of such a session comes back without its measurements. -/
theorem lite_acknowledgement_is_not_read_back :
    let action := (makeAcknowledgement {} exampleMeasurements .lite).1
    let read := encodeReliabilityAction action [] ⟨7⟩ 9
      (packetHeaderSize + maximumDataPayloadSize) >>= decodePacket >>= decodeAcknowledgement
    read = .ok { kind := .lite, nextSequence := .ofNat 100 } ∧ read ≠ .ok action.acknowledgement ∧
      action.acknowledgement.availableReceiveBufferPackets = 8192 := by
  decide +kernel

end Srt
