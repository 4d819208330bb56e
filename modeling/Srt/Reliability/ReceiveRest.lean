/-
# `ReceiveRest` — the window comes to rest after every operation

The acknowledgement is maximal and the head is not a dropped marker, along
every run in which each range the peer drops is clear of forfeit messages, each
discard lands on a slot that is not settled, and no acknowledged range reaches
half the number space ahead.  `discard_before` moves the window and looks neither at
the slot it lands on nor at the acknowledgement behind it, so the last two
conditions cannot be left out.
-/
import Srt.Reliability.ReceiveOrder

namespace Srt

namespace ReceiveBuffer

open SequenceNumber

/-- The operation ends where the window is at rest. -/
def ComesToRest (b : ReceiveBuffer) : Op → Prop
  | .dropPeerRequestedRange range => b.Capped range .completeMessages
  | .dropPeerRequestedStreamRange range => b.Capped range .receivedPackets
  | .discardBefore next => b.Lands next
  | .acknowledgePeerDropRange range => b.acknowledgesPeerDropRange range = true →
      0 ≤ range.last.next.distanceFrom b.firstStored
  | _ => True

section

variable (A : SequenceNumber → Prop) (Q : DataHeader → Bytes → Prop) (b : ReceiveBuffer)

/-- `A` are the numbers accounted for and `Q` the packets that arrived: what is
inserted arrived, and what is given up is accounted for. -/
def Accounts : Op → Prop
  | .insert packet => ∀ p, packet.val = .data p → A p.header.sequence ∧ Q p.header p.payload
  | .dropRange range | .dropPeerRequestedRange range | .dropPeerRequestedStreamRange range =>
    ∀ n : Nat, range.first.distanceFrom b.firstStored ≤ n →
      n ≤ range.last.distanceFrom b.firstStored → A (b.firstStored.advanced n)
  | .discardBefore next =>
    ∀ n : Nat, n < next.distanceFrom b.firstStored → A (b.firstStored.advanced n)
  | .acknowledgePeerDropRange range =>
    ∀ n : Nat, n ≤ range.last.distanceFrom b.nextAck → A (b.nextAck.advanced n)
  | _ => True

end

variable {A : SequenceNumber → Prop} {Q : DataHeader → Bytes → Prop} {b : ReceiveBuffer}
  {isn : SequenceNumber} {F N : Nat}

theorem Tight.apply (h : Tight isn (A ∘ isn.advanced) (fun _ => Q) b F N) (hs : b.Stored) (op : Op)
    (hrest : b.ComesToRest op) (hop : b.Accounts A Q op) :
    Leads isn (A ∘ isn.advanced) (fun _ => Q) b F N (b.apply op) := by
  have hA {s : SequenceNumber} {M p : Nat} (hs : s = isn.advanced M) (hle : M ≤ p)
      (hp : A (s.advanced (p - M))) : A (isn.advanced p) := by
    rwa [hs, advanced_advanced, Nat.add_sub_cancel' hle] at hp
  have hcovers {range : SequenceRange} (hop : b.Accounts A Q (.dropRange range)) :
      Covers (A ∘ isn.advanced) b F range := by
    intro p hp hp'
    exact hA h.first (by omega) (hop (p - F) (by omega) (by omega))
  unfold ReceiveBuffer.apply
  cases op with
  | insert packet =>
    refine h.insert hs packet.property fun p hp i _ hseq => ?_
    rw [Function.comp_apply, ← hseq]
    exact hop p hp
  | discardMessagePayload sequence => exact h.discardMessagePayload hs sequence
  | popMessage size => exact h.popMessage hs size
  | popMessageUnordered size => exact h.popMessageUnordered hs size
  | popStream size due => exact h.popStream hs size due
  | markGap range deadline => exact ⟨F, N, h.markGap range deadline⟩
  | dropRange range => exact h.dropRangeImpl hs (hcovers hop) (b.capped_none range)
  | dropPeerRequestedRange range | dropPeerRequestedStreamRange range =>
    exact h.dropRangeImpl hs (hcovers hop) hrest
  | discardBefore next =>
    refine h.discardBefore hs (fun p hp => ?_) hrest
    by_cases hN : p < N
    · exact h.passed p hN
    have hle := h.le
    exact hA h.first (by omega) (hop (p - F) (by omega))
  | acknowledgePeerDropRange range =>
    refine h.acknowledgePeerDropRange hrest fun p hN hp => ?_
    exact hA h.ack hN (hop (p - N) (by omega))
  | firstCompleteMessage =>
    obtain ⟨q, hq⟩ := b.firstCompleteMessage_eq
    exact ⟨F, N, h.firstCompleteMessage, hq ▸ ⟨rfl, le_rfl, le_rfl, fun _ _ _ h => h, by simp⟩⟩
  | firstBufferedPacket =>
    obtain ⟨q, hq⟩ := b.firstBufferedPacket_eq
    exact ⟨F, N, h.firstBufferedPacket, hq ▸ ⟨rfl, le_rfl, le_rfl, fun _ _ _ h => h, by simp⟩⟩

/-- What keeps the window at rest, said of the buffer before the operation. -/
def KeepsRest (b : ReceiveBuffer) : Op → Prop
  | .dropPeerRequestedRange range | .dropPeerRequestedStreamRange range => b.Clear range
  | op => b.ComesToRest op

theorem KeepsRest.comesToRest {op : Op} (h : b.KeepsRest op) (hs : b.Stored) :
    b.apply op = b ∨ b.ComesToRest op := by
  cases op with
  | dropPeerRequestedRange range => exact Clear.capped h hs .completeMessages
  | dropPeerRequestedStreamRange range => exact Clear.capped h hs .receivedPackets
  | _ => exact .inr h

/-- The window is at rest somewhere. -/
def AtRest (b : ReceiveBuffer) : Prop :=
  ∃ isn F N, Tight isn (fun _ => True) (fun _ _ _ => True) b F N

theorem AtRest.apply (h : b.AtRest) (hs : b.Stored) (op : Op) (hop : b.KeepsRest op) :
    (b.apply op).AtRest := by
  rcases hop.comesToRest hs with heq | hrest
  · rw [heq]
    exact h
  obtain ⟨isn, F, N, ht⟩ := h
  have hall : b.Accounts (fun _ => True) (fun _ _ => True) op := by
    cases op <;> simp [Accounts]
  obtain ⟨F', N', htight, -⟩ := Tight.apply (A := fun _ => True) (Q := fun _ _ => True) ht hs op
    hrest hall
  exact ⟨isn, F', N', htight⟩

theorem atRest_of_reaches (h : Lts.Reaches system KeepsRest b) : b.AtRest := by
  refine h.invariant ?_ ?_
  · rintro c ⟨initial, capacity, hc⟩
    obtain ⟨hw, hmax, hhead⟩ := window_make hc
    exact ⟨initial, 0, 0, hw, hmax, hhead⟩
  rintro c op d hreaches hc hop rfl
  exact hc.apply (stored_of_reaches hreaches) op hop

/-- What being at rest says of the two numbers and their slots. -/
theorem AtRest.slots (h : b.AtRest) :
    0 ≤ b.nextAck.distanceFrom b.firstStored ∧ (b.slot 0).dropped = false
      ∧ ∀ i ∈ b.offsetOf b.nextAck, (b.slot i).occupied = false ∧ (b.slot i).dropped = false := by
  obtain ⟨isn, F, N, ht⟩ := h
  have hle := ht.le
  have hnear := ht.near
  refine ⟨?_, ht.head, ?_⟩
  · rw [ht.ack, ht.first, isn.distanceFrom_advanced (by omega) (by omega)]
    omega
  intro i hi
  rw [ht.ack] at hi
  obtain ⟨hlt, heq⟩ := (ht.offsetOf_eq_some_iff hnear hle).1 hi
  have hfree := ht.maximal (by omega)
  rw [show N - F = i by omega] at hfree
  exact ReceiveSlot.settled_eq_false.1 hfree

/-- The acknowledgement is not behind the frontier and maximal, and the head
is not a dropped marker. -/
theorem window_comes_to_rest (b : ReceiveBuffer) (h : Lts.Reaches system KeepsRest b) :
    0 ≤ b.nextAck.distanceFrom b.firstStored ∧ (b.slot 0).dropped = false
      ∧ ∀ i ∈ b.offsetOf b.nextAck, (b.slot i).occupied = false ∧ (b.slot i).dropped = false :=
  (atRest_of_reaches h).slots

instance (b : ReceiveBuffer) (next : SequenceNumber) : Decidable (b.Lands next) :=
  haveI : Decidable (∀ i ∈ b.offsetOf next, (b.slot i).dropped = false
      ∧ (0 < next.distanceFrom b.nextAck → (b.slot i).occupied = false)) :=
    Option.decidableForallMem _
  inferInstanceAs (Decidable (_ → _))

instance (b : ReceiveBuffer) : ∀ op, Decidable (b.KeepsRest op)
  | .dropPeerRequestedRange range | .dropPeerRequestedStreamRange range =>
    inferInstanceAs (Decidable (b.Clear range))
  | .discardBefore next => instDecidableLands b next
  | .acknowledgePeerDropRange range =>
    inferInstanceAs (Decidable (b.acknowledgesPeerDropRange range = true →
      0 ≤ range.last.next.distanceFrom b.firstStored))
  | .insert _ | .discardMessagePayload _ | .popMessage _ | .popMessageUnordered _
  | .popStream _ _ | .markGap _ _ | .dropRange _ | .firstCompleteMessage
  | .firstBufferedPacket => .isTrue trivial

/-- A packet is missing, the next ones are given up and one is stored. -/
def restingRun : ReceiveBuffer :=
  [exampleData 2 10, .dropRange ⟨.ofNat 1, .ofNat 1⟩, .discardBefore (.ofNat 0),
    exampleData 0 9].foldl apply exampleBuffer

theorem window_comes_to_rest_restingRun :
    restingRun.nextAck = .ofNat 3 ∧ 0 ≤ restingRun.nextAck.distanceFrom restingRun.firstStored
      ∧ (restingRun.slot 0).dropped = false := by
  have hreaches : Lts.Reaches system KeepsRest restingRun :=
    exampleBuffer_reached.foldl (by decide +kernel)
  obtain ⟨hle, hhead, -⟩ := window_comes_to_rest restingRun hreaches
  exact ⟨by decide +kernel, hle, hhead⟩

/-- Packet 1 was given up when everything before it is discarded. -/
def restlessRun : ReceiveBuffer :=
  [Op.dropRange ⟨.ofNat 1, .ofNat 1⟩, .discardBefore (.ofNat 1)].foldl apply exampleBuffer

/-- A range that ends half the number space ahead is acknowledged. -/
def overreachedRun : ReceiveBuffer :=
  [Op.acknowledgePeerDropRange ⟨.ofNat 0, .ofNat (2 ^ 30 - 1)⟩].foldl apply exampleBuffer

/-- The head is a dropped marker, which the acknowledgement has not passed;
the acknowledgement is behind the frontier. -/
theorem window_left_on_dropped_marker :
    (Lts.Reachable system restlessRun ∧ restlessRun.nextAck = restlessRun.firstStored
      ∧ (restlessRun.slot 0).dropped = true)
    ∧ Lts.Reachable system overreachedRun
      ∧ overreachedRun.nextAck.distanceFrom overreachedRun.firstStored < 0 :=
  ⟨⟨exampleBuffer_reached.foldl (by decide +kernel), by decide +kernel, by decide +kernel⟩,
    exampleBuffer_reached.foldl (by decide +kernel), by decide +kernel⟩

/-! ## What arrived

As long as only numbers of `A` are given up, every acknowledged number is in
`A`, and a popped message is made of whole packets of `Q` in the order of their
numbers. -/

/-- A buffer that expects `isn` first. -/
def runsFrom (isn : SequenceNumber) : Lts.System ReceiveBuffer Op :=
  .ofFun (fun b => ∃ capacity, make isn capacity = some b) apply

variable (h : Lts.Reaches (runsFrom isn) (fun b op => b.ComesToRest op ∧ b.Accounts A Q op) b)

include h in
theorem tight_of_reaches :
    b.Stored ∧ ∃ F N, Tight isn (A ∘ isn.advanced) (fun _ => Q) b F N := by
  refine h.invariant (I := fun b => b.Stored ∧ ∃ F N, Tight isn _ _ b F N) ?_ ?_
  · rintro c ⟨capacity, hc⟩
    obtain ⟨hw, hmax, hhead⟩ := window_make hc
    exact ⟨stored_make hc, 0, 0, hw, hmax, hhead⟩
  rintro c op _ - ⟨hs, F, N, ht⟩ ⟨hrest, hop⟩ rfl
  obtain ⟨F', N', ht', -⟩ := ht.apply hs op hrest hop
  exact ⟨hs.apply op, F', N', ht'⟩

include h in
theorem receiver_invents_nothing :
    (∃ N, b.nextAck = isn.advanced N ∧ ∀ p < N, A (isn.advanced p))
    ∧ ∀ size result c, b.popMessage size = (.ok result, c) →
      result.firstSequence = b.firstStored ∧ ∃ n, HeadMessage b n result.messageNumber
        ∧ ∃ payload : Nat → Bytes, (∀ j < n, Q (b.slot j).header (payload j))
          ∧ result.bytes = (List.range n).flatMap payload := by
  obtain ⟨hs, F, N, ht⟩ := tight_of_reaches h
  refine ⟨⟨N, ht.ack, ht.passed⟩, ?_⟩
  intro size result c hpop
  have hspec := popMessage_spec hs size
  rw [hpop] at hspec
  cases hspec with
  | taken found =>
    refine ⟨rfl, _, found, fun j => b.payloads.get (b.slot j).payloadIndex, ?_, ?_⟩
    · intro j hj
      exact ht.carried j (hj.trans_le found.le) (occupied_of_readable (found.readable j hj))
    rw [List.range_eq_range']
    refine List.flatMap_congr fun j hj => ?_
    have hlt := (List.mem_range'_1.1 hj).2
    have hlength := (hs.slot j).length (occupied_of_readable (found.readable j (by omega)))
    rw [payloadOf, found.unread j (by omega), List.drop_zero, ← hlength, List.take_length]

/-- A packet of message 9. -/
def exampleFragment (sequence : Nat) (boundary : MessageBoundary) : Op :=
  .insert ⟨.data ⟨{ sequence := .ofNat sequence, messageNumber := 9, boundary }, [1]⟩,
    show 9 < 2 ^ 32 by decide⟩

/-- Packet 0 is given up in front of a message of two packets. -/
def deliveredRun : ReceiveBuffer :=
  [exampleFragment 1 .first, exampleFragment 2 .last, .dropRange ⟨.ofNat 0, .ofNat 0⟩].foldl apply
    exampleBuffer

theorem receiver_invents_nothing_deliveredRun :
    (∃ N, deliveredRun.nextAck = (ofNat 0).advanced N
      ∧ ∀ p < N, (ofNat 0).advanced p ∈ [ofNat 0, ofNat 1, ofNat 2])
    ∧ ∃ result c, deliveredRun.popMessage 2 = (.ok result, c) ∧ result.bytes = [1, 1]
      ∧ result.firstSequence = deliveredRun.firstStored
      ∧ ∃ n, HeadMessage deliveredRun n result.messageNumber
        ∧ ∃ payload : Nat → Bytes, (∀ j < n, payload j = [1])
          ∧ result.bytes = (List.range n).flatMap payload := by
  have hfirst : Lts.Reaches (runsFrom (.ofNat 0)) (fun b op => b.ComesToRest op
      ∧ b.Accounts (· ∈ [ofNat 0, ofNat 1, ofNat 2]) (fun _ payload => payload = [1]) op)
      exampleBuffer := .start ⟨3, (Option.some_get _).symm⟩
  have hfragment : ∀ (b : ReceiveBuffer) sequence boundary,
      ofNat sequence ∈ [ofNat 0, ofNat 1, ofNat 2] → b.Accounts (· ∈ [ofNat 0, ofNat 1, ofNat 2])
        (fun _ payload => payload = [1]) (exampleFragment sequence boundary) := by
    rintro b sequence boundary hmem _ ⟨⟩
    exact ⟨hmem, rfl⟩
  have hgiven : ∀ b : ReceiveBuffer, b.firstStored = ofNat 0 →
      b.Accounts (· ∈ [ofNat 0, ofNat 1, ofNat 2]) (fun _ payload => payload = [1])
        (.dropRange ⟨.ofNat 0, .ofNat 0⟩) := by
    intro b hb n _ hn
    have hself : (ofNat 0).distanceFrom (ofNat 0) = 0 := by decide +kernel
    dsimp only at hn
    rw [hb, hself] at hn
    obtain rfl : n = 0 := by omega
    rw [hb]
    decide +kernel
  have hadmits : Lts.Admits (fun b op => b.ComesToRest op
      ∧ b.Accounts (· ∈ [ofNat 0, ofNat 1, ofNat 2]) (fun _ payload => payload = [1]) op) apply
      exampleBuffer [exampleFragment 1 .first, exampleFragment 2 .last,
        .dropRange ⟨.ofNat 0, .ofNat 0⟩] :=
    ⟨⟨trivial, hfragment _ 1 .first (by decide +kernel)⟩,
      ⟨trivial, hfragment _ 2 .last (by decide +kernel)⟩,
      ⟨trivial, hgiven _ (by decide +kernel)⟩, trivial⟩
  obtain ⟨hack, hpop⟩ := receiver_invents_nothing (hfirst.foldl hadmits)
  have hok : (deliveredRun.popMessage 2).1.toOption.map ReceivedMessageResult.bytes
      = some [1, 1] := by
    decide +kernel
  refine ⟨hack, ?_⟩
  cases hrun : deliveredRun.popMessage 2 with
  | mk result c =>
    rw [hrun] at hok
    cases result with
    | error e => cases hok
    | ok result => exact ⟨result, c, rfl, Option.some.inj hok, hpop 2 result c hrun⟩

end ReceiveBuffer

end Srt
