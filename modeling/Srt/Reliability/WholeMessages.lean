/-
# `WholeMessages` — which packets a peer's drop request keeps

`complete_message_last_offset` goes back from a packet to the `first` of its
message and forward to the `last`.  `HeldMessage` says what it finds: a message
whose packets are all stored, whether rejected or not.  The loop of
`drop_peer_requested_range` asks it once for each message and keeps the whole
message or drops the packet, so a packet of the range is dropped exactly when
no such message has it.
-/
import Srt.Reliability.ReceiveRest

namespace Srt

open ReceiveBuffer

namespace ReceiveBuffer

variable {b c : ReceiveBuffer} {start i n message j : Nat}

/-- A message of `n` packets at offset `i`: all are held, and the boundaries
say where it starts and ends.  Only a first packet in front of `start` may
have been read from. -/
structure HeldMessage (b : ReceiveBuffer) (start i n message : Nat) : Prop where
  pos : 0 < n
  within : i + n ≤ b.capacity
  occupied : ∀ j, i ≤ j → j < i + n → (b.slot j).occupied = true
  sequence : ∀ j, i ≤ j → j < i + n → (b.slot j).header.sequence = b.firstStored.advanced j
  number : ∀ j, i ≤ j → j < i + n → (b.slot j).header.messageNumber = message
  unread : ∀ j, i ≤ j → j < i + n → i < j ∨ start ≤ j → (b.slot j).payloadOffset = 0
  solo : n = 1 → (b.slot i).header.boundary = .solo
  first : 1 < n → (b.slot i).header.boundary = .first
  middle : ∀ j, i < j → j + 1 < i + n → (b.slot j).header.boundary = .subsequent
  last : ∀ j, i < j → j + 1 = i + n → (b.slot j).header.boundary = .last

/-- Only the slots of the message count. -/
theorem HeldMessage.congr (h : HeldMessage b start i n message)
    (hcap : c.capacity = b.capacity) (hfirst : c.firstStored = b.firstStored)
    (hslot : ∀ j, i ≤ j → j < i + n → c.slot j = b.slot j) :
    HeldMessage c start i n message := by
  have hpos := h.pos
  constructor
  · exact hpos
  · exact hcap ▸ h.within
  · intro j hj hjn
    rw [hslot j hj hjn]
    exact h.occupied j hj hjn
  · intro j hj hjn
    rw [hslot j hj hjn, hfirst]
    exact h.sequence j hj hjn
  · intro j hj hjn
    rw [hslot j hj hjn]
    exact h.number j hj hjn
  · intro j hj hjn
    rw [hslot j hj hjn]
    exact h.unread j hj hjn
  · intro hn
    rw [hslot i le_rfl (by omega)]
    exact h.solo hn
  · intro hn
    rw [hslot i le_rfl (by omega)]
    exact h.first hn
  · intro j hj hjn
    rw [hslot j (by omega) (by omega)]
    exact h.middle j hj hjn
  intro j hj hjn
  rw [hslot j (by omega) (by omega)]
  exact h.last j hj hjn

theorem slotAt_eq_some {s : ReceiveSlot} :
    b.slotAt j = some s ↔ (b.slot j).occupied = true
      ∧ (b.slot j).header.sequence = b.firstStored.advanced j ∧ s = b.slot j := by
  unfold slotAt
  split
  · next hslot =>
    simp only [Bool.and_eq_true, beq_iff_eq] at hslot
    simp [hslot, eq_comm]
  · next hslot =>
    simp only [Bool.and_eq_true, beq_iff_eq, not_and] at hslot
    simp only [reduceCtorEq, false_iff, not_and]
    exact fun hocc hseq => absurd hseq (hslot hocc)

/-! ## The search finds every whole message -/

section

variable (h : HeldMessage b start i n message)
include h

theorem HeldMessage.slotAt (hj : i ≤ j) (hjn : j < i + n) : b.slotAt j = some (b.slot j) :=
  slotAt_eq_some.2 ⟨h.occupied j hj hjn, h.sequence j hj hjn, rfl⟩

/-- Going back ends at the first packet. -/
theorem HeldMessage.seekFirst {offset : Nat} (hj : i ≤ j) (hjo : j ≤ offset)
    (ho : offset < i + n) (hn : 1 < n) : b.seekFirst message offset j = some i := by
  induction j with
  | zero =>
    obtain rfl : i = 0 := by omega
    rfl
  | succ j ih =>
    unfold ReceiveBuffer.seekFirst
    rw [h.slotAt hj (by omega)]
    dsimp only
    rw [if_neg (not_not_intro (h.number (j + 1) hj (by omega)))]
    by_cases hi : i = j + 1
    · subst hi
      rw [if_pos (h.first hn)]
    have hback := ih (by omega) (by omega)
    by_cases hlast : j + 1 + 1 = i + n
    · have hb := h.last (j + 1) (by omega) hlast
      rw [hb, if_neg (by decide), if_neg (by omega), if_neg (by simp)]
      exact hback
    have hb := h.middle (j + 1) (by omega) (by omega)
    rw [hb, if_neg (by decide), if_neg (by simp), if_neg (by simp)]
    exact hback

/-- Going forward ends at the last packet. -/
theorem HeldMessage.seekLast {fuel : Nat} (hj : i < j) (hjn : j < i + n)
    (hfuel : i + n ≤ j + fuel) : b.seekLast message fuel j = some (i + n - 1) := by
  induction fuel generalizing j with
  | zero => omega
  | succ fuel ih =>
    unfold ReceiveBuffer.seekLast
    rw [h.slotAt (by omega) hjn]
    dsimp only
    rw [h.unread j (by omega) hjn (.inl hj), h.number j (by omega) hjn, if_neg (by simp)]
    by_cases hlast : j + 1 = i + n
    · rw [if_pos (h.last j hj hlast)]
      exact congrArg some (by omega)
    rw [h.middle j hj (by omega), if_neg (by decide), if_neg (by simp)]
    exact ih (by omega) (by omega) (by omega)

/-- Every unread packet of the message finds its end. -/
theorem HeldMessage.lastOffset (hj : i ≤ j) (hjn : j < i + n) (hstart : start ≤ j) :
    b.completeMessageLastOffset j = some (i + n - 1) := by
  have hwithin := h.within
  unfold completeMessageLastOffset
  rw [h.slotAt hj hjn]
  dsimp only
  rw [if_neg (not_not_intro (h.unread j hj hjn (.inr hstart)))]
  by_cases hn : n = 1
  · obtain rfl : j = i := by omega
    rw [if_pos (h.solo hn)]
    exact congrArg some (by omega)
  have hpos := h.pos
  have hnot : (b.slot j).header.boundary ≠ .solo := by
    by_cases hji : j = i
    · rw [hji, h.first (by omega)]
      decide
    by_cases hlast : j + 1 = i + n
    · rw [h.last j (by omega) hlast]
      decide
    rw [h.middle j (by omega) (by omega)]
    decide
  rw [if_neg hnot, h.number j hj hjn, h.seekFirst hj (Nat.le_refl j) hjn (by omega)]
  dsimp only
  rw [h.slotAt (Nat.le_refl i) (by omega)]
  dsimp only
  rw [h.first (by omega), h.number i (Nat.le_refl i) (by omega), if_neg (by simp)]
  exact h.seekLast (by omega) (by omega) (by omega)

end

/-! ## What the search finds is a whole message -/

/-- Behind the packet where the search back ends there are only packets of
the message that do not start it. -/
theorem seekFirst_spec {offset f : Nat} (h : b.seekFirst message offset j = some f) :
    f ≤ j ∧ ∀ q, f < q → q ≤ j → b.slotAt q = some (b.slot q)
      ∧ (b.slot q).header.messageNumber = message
      ∧ ((b.slot q).header.boundary = .subsequent
        ∨ q = offset ∧ (b.slot q).header.boundary = .last) := by
  induction j with
  | zero =>
    cases h
    exact ⟨le_rfl, by omega⟩
  | succ j ih =>
    unfold ReceiveBuffer.seekFirst at h
    cases hslot : b.slotAt (j + 1) with
    | none =>
      rw [hslot] at h
      cases h
    | some s =>
      obtain ⟨-, -, rfl⟩ := slotAt_eq_some.1 hslot
      rw [hslot] at h
      dsimp only at h
      split at h
      · cases h
      next hnumber =>
      split at h
      · cases h
        exact ⟨le_rfl, by omega⟩
      next hfirst =>
      split at h
      · cases h
      next hinner =>
      split at h
      · cases h
      next hmember =>
      obtain ⟨hle, hbehind⟩ := ih h
      refine ⟨by omega, fun q hfq hq => ?_⟩
      by_cases hqj : q ≤ j
      · exact hbehind q hfq hqj
      obtain rfl : q = j + 1 := by omega
      refine ⟨hslot, not_not.1 hnumber, ?_⟩
      by_cases hoffset : j + 1 = offset
      · by_cases hsub : (b.slot (j + 1)).header.boundary = .subsequent
        · exact .inl hsub
        · refine .inr ⟨hoffset, ?_⟩
          by_contra hlast
          exact hmember ⟨hoffset, hsub, hlast⟩
      · refine .inl ?_
        by_contra hsub
        exact hinner ⟨hoffset, hsub⟩

/-- The search forward runs over unread packets of the message up to its last. -/
theorem seekLast_spec {fuel l : Nat} (h : b.seekLast message fuel j = some l) :
    j ≤ l ∧ l < j + fuel ∧ ∀ q, j ≤ q → q ≤ l → b.slotAt q = some (b.slot q)
      ∧ (b.slot q).header.messageNumber = message ∧ (b.slot q).payloadOffset = 0
      ∧ (q < l → (b.slot q).header.boundary = .subsequent)
      ∧ (q = l → (b.slot q).header.boundary = .last) := by
  induction fuel generalizing j with
  | zero => cases h
  | succ fuel ih =>
    unfold ReceiveBuffer.seekLast at h
    cases hslot : b.slotAt j with
    | none =>
      rw [hslot] at h
      cases h
    | some s =>
      obtain ⟨-, -, rfl⟩ := slotAt_eq_some.1 hslot
      rw [hslot] at h
      dsimp only at h
      split at h
      · cases h
      next hmember =>
      rw [not_or, not_not, not_not] at hmember
      split at h
      · next hlast =>
        obtain rfl := Option.some.inj h
        refine ⟨le_rfl, by omega, fun q hjq hql => ?_⟩
        obtain rfl : q = j := by omega
        exact ⟨hslot, hmember.2, hmember.1, by omega, fun _ => hlast⟩
      split at h
      · cases h
      next hsub =>
      obtain ⟨hle, hlt, hrun⟩ := ih h
      refine ⟨by omega, by omega, fun q hjq hql => ?_⟩
      by_cases hq : q = j
      · rw [hq]
        exact ⟨hslot, hmember.2, hmember.1, fun _ => not_not.1 hsub, by omega⟩
      · exact hrun q (by omega) hql

theorem heldMessage_solo (hj : j < b.capacity) (hocc : (b.slot j).occupied = true)
    (hseq : (b.slot j).header.sequence = b.firstStored.advanced j)
    (hunread : (b.slot j).payloadOffset = 0) (hsolo : (b.slot j).header.boundary = .solo) :
    HeldMessage b start j 1 (b.slot j).header.messageNumber := by
  have hone : ∀ {q}, j ≤ q → q < j + 1 → q = j := by omega
  refine ⟨Nat.one_pos, hj, ?_, ?_, ?_, ?_, fun _ => hsolo, by omega, by omega, by omega⟩
  · intro q hq hqn
    rw [hone hq hqn]
    exact hocc
  · intro q hq hqn
    rw [hone hq hqn]
    exact hseq
  · intro q hq hqn
    rw [hone hq hqn]
  · intro q hq hqn _
    rw [hone hq hqn]
    exact hunread

theorem completeMessageLastOffset_spec {l : Nat} (h : b.completeMessageLastOffset j = some l)
    (hj : j < b.capacity) : ∃ i n message, i ≤ j ∧ j < i + n ∧ l + 1 = i + n
      ∧ HeldMessage b j i n message := by
  unfold completeMessageLastOffset at h
  cases hslot : b.slotAt j with
  | none =>
    rw [hslot] at h
    cases h
  | some s =>
    obtain ⟨hocc, hseq, rfl⟩ := slotAt_eq_some.1 hslot
    rw [hslot] at h
    dsimp only at h
    split at h
    · cases h
    next hunread =>
    rw [not_not] at hunread
    split at h
    · next hsolo =>
      cases h
      exact ⟨j, 1, _, le_rfl, by omega, rfl, heldMessage_solo hj hocc hseq hunread hsolo⟩
    cases hback : b.seekFirst (b.slot j).header.messageNumber j j with
    | none =>
      rw [hback] at h
      cases h
    | some f =>
      rw [hback] at h
      dsimp only at h
      cases hstart : b.slotAt f with
      | none =>
        rw [hstart] at h
        cases h
      | some s =>
        obtain ⟨hocc', hseq', rfl⟩ := slotAt_eq_some.1 hstart
        rw [hstart] at h
        dsimp only at h
        split at h
        · cases h
        next hfirst =>
        rw [not_or, not_not, not_not] at hfirst
        obtain ⟨hfj, hbehind⟩ := seekFirst_spec hback
        obtain ⟨hfl, hlcap, hrun⟩ := seekLast_spec h
        -- the packets between the first and the one asked for do not end the message
        have hjl : j ≤ l := by
          by_contra hlt
          have hlast := (hrun l hfl le_rfl).2.2.2.2 rfl
          rcases (hbehind l (by omega) (by omega)).2.2 with hsub | ⟨hlj, -⟩
          · rw [hlast] at hsub
            cases hsub
          · omega
        have hmember : ∀ q, f ≤ q → q < f + (l + 1 - f) → (b.slot q).occupied = true
            ∧ (b.slot q).header.sequence = b.firstStored.advanced q
            ∧ (b.slot q).header.messageNumber = (b.slot j).header.messageNumber := by
          intro q hfq hql
          by_cases hq : q = f
          · subst hq
            exact ⟨hocc', hseq', hfirst.2⟩
          obtain ⟨hat, hnumber, -⟩ := hrun q (by omega) (by omega)
          obtain ⟨ho, hs, -⟩ := slotAt_eq_some.1 hat
          exact ⟨ho, hs, hnumber⟩
        refine ⟨f, l + 1 - f, (b.slot j).header.messageNumber, hfj, by omega, by omega, by omega,
          by omega, fun q hq hqn => (hmember q hq hqn).1, fun q hq hqn => (hmember q hq hqn).2.1,
          fun q hq hqn => (hmember q hq hqn).2.2, ?_, by omega, fun _ => hfirst.1, ?_, ?_⟩
        · intro q hq hqn hread
          by_cases hqf : q = f
          · obtain rfl : q = j := by omega
            exact hunread
          · exact (hrun q (by omega) (by omega)).2.2.1
        · intro q hq hqn
          exact (hrun q (by omega) (by omega)).2.2.2.1 (by omega)
        · intro q hq hqn
          exact (hrun q (by omega) (by omega)).2.2.2.2 (by omega)

/-! ## The loop -/

/-- No whole message has the packet. -/
def Lost (b : ReceiveBuffer) (start j : Nat) : Prop :=
  ∀ i n message, i ≤ j → j < i + n → ¬ HeldMessage b start i n message

/-- The loop over `[start, start + k)` has dropped the packets of no whole
message and left the others. -/
structure DropExact (b : ReceiveBuffer) (start k : Nat) (p : DropProgress) : Prop extends
    DropState b start k p where
  lost : ∀ j, start ≤ j → j < start + k → b.Lost start j → (p.buffer.slot j).dropped = true
  kept : ∀ j, start ≤ j → j < start + k → ¬ b.Lost start j → p.buffer.slot j = b.slot j
  through : ∀ t, p.preserveThrough = some t → ∃ i n message,
    HeldMessage b start i n message ∧ i < start + k ∧ t + 1 = i + n

theorem HeldMessage.not_lost (h : HeldMessage b start i n message) (hj : i ≤ j)
    (hjn : j < i + n) : ¬ b.Lost start j :=
  fun hlost => hlost i n message hj hjn h

section

variable {k : Nat} {p : DropProgress}

theorem DropExact.slot_eq (h : DropExact b start k p) (hj : j < b.capacity)
    (hkeep : start ≤ j → j < start + k → ¬ b.Lost start j) : p.buffer.slot j = b.slot j := by
  by_cases hin : start ≤ j ∧ j < start + k
  · exact h.kept j hin.1 hin.2 (hkeep hin.1 hin.2)
  · exact h.outside j hj hin

/-- What the search finds in the middle of the loop was there before it. -/
theorem DropExact.held (h : DropExact b start k p) (hi : i ≤ start + k)
    (hm : HeldMessage p.buffer (start + k) i n message) : HeldMessage b start i n message := by
  have hcap := h.capacity
  have hwithin := hm.within
  have hslot : ∀ j, i ≤ j → j < i + n → p.buffer.slot j = b.slot j := by
    intro j hj hjn
    rcases h.slot_cases (j := j) (by omega) with ⟨-, -, -, hempty⟩ | hsame
    · rw [hm.occupied j hj hjn] at hempty
      cases hempty
    · exact hsame
  have hb : HeldMessage b (start + k) i n message :=
    hm.congr hcap.symm h.first.symm fun j hj hjn => (hslot j hj hjn).symm
  refine { hb with unread := ?_ }
  intro j hj hjn hread
  by_cases hlater : i < j ∨ start + k ≤ j
  · exact hb.unread j hj hjn hlater
  -- the first packet was looked at in its own round
  obtain rfl : j = i := by omega
  have hkept : ¬ b.Lost start j := by
    intro hlost
    have hdropped := h.lost j (by omega) (by omega) hlost
    rw [(h.stored.slot j).exclusive (hm.occupied j le_rfl hjn)] at hdropped
    cases hdropped
  unfold Lost at hkept
  push Not at hkept
  obtain ⟨i', n', message', hi', hn', hm'⟩ := hkept
  exact hm'.unread j hi' hn' (.inr (by omega))

/-- A round that leaves the buffer keeps a packet that is not lost. -/
theorem DropExact.pass {q : DropProgress} (h : DropExact b start k p)
    (hin : start + k < b.capacity) (hbuffer : q.buffer = p.buffer)
    (hq : DropState b start (k + 1) q) (hheld : ¬ b.Lost start (start + k))
    (hthrough : ∀ t, q.preserveThrough = some t → ∃ i n message,
      HeldMessage b start i n message ∧ i < start + (k + 1) ∧ t + 1 = i + n) :
    DropExact b start (k + 1) q := by
  refine ⟨hq, ?_, ?_, hthrough⟩
  · intro j hj hjk hlost
    have hne : j ≠ start + k := by
      rintro rfl
      exact hheld hlost
    rw [hbuffer]
    exact h.lost j hj (by omega) hlost
  · intro j hj hjk hkept
    rw [hbuffer]
    exact h.slot_eq (by omega) fun _ _ => hkept

theorem DropExact.through_succ (h : DropExact b start k p) {t : Nat}
    (ht : p.preserveThrough = some t) : ∃ i n message,
      HeldMessage b start i n message ∧ i < start + (k + 1) ∧ t + 1 = i + n := by
  obtain ⟨i, n, message, hm, hi, hend⟩ := h.through t ht
  exact ⟨i, n, message, hm, by omega, hend⟩

/-- Where the search finds nothing, there was no whole message before the loop. -/
theorem DropExact.lost_of_none (h : DropExact b start k p)
    (hlast : p.buffer.completeMessageLastOffset (start + k) = none) :
    b.Lost start (start + k) := by
  intro i n message hi hn hm
  have hcap := h.capacity
  have hwithin := hm.within
  have hp : HeldMessage p.buffer start i n message := hm.congr hcap h.first fun j hj hjn =>
    h.slot_eq (by omega) fun _ _ => hm.not_lost hj hjn
  rw [hp.lastOffset hi hn (by omega)] at hlast
  cases hlast

theorem DropExact.round (h : DropExact b start k p) (hin : start + k < b.capacity) :
    DropExact b start (k + 1) (dropRound .completeMessages p (start + k)) := by
  have hcap := h.capacity
  have hnext := h.toDropState.round hin .completeMessages
  revert hnext
  unfold dropRound
  dsimp only
  split
  · next hthrough =>
    intro hnext
    obtain ⟨t, ht, hle⟩ := (Option.any_eq_true _ _).1 hthrough
    obtain ⟨i, n, message, hm, hi, hend⟩ := h.through t ht
    have hle : start + k ≤ t := by simpa using hle
    exact h.pass hin rfl hnext (hm.not_lost (by omega) (by omega)) fun _ => h.through_succ
  cases hlast : p.buffer.completeMessageLastOffset (start + k) with
  | some l =>
    intro hnext
    obtain ⟨i, n, message, hi, hn, hl, hm⟩ := completeMessageLastOffset_spec hlast (by omega)
    have hb := h.held hi hm
    refine h.pass hin rfl hnext (hb.not_lost hi hn) ?_
    rintro t ⟨⟩
    exact ⟨i, n, message, hb, by omega, hl⟩
  | none =>
    intro hnext
    obtain ⟨hdropped, -, -, -, -, -, -, hother, -⟩ :=
      dropSlot_spec h.stored (i := start + k) (by omega)
    refine ⟨hnext, ?_, ?_, fun _ => h.through_succ⟩
    · intro j hj hjk hgone
      by_cases hjo : j = start + k
      · rw [hjo]
        exact hdropped
      dsimp only
      rw [hother j (by omega) hjo]
      exact h.lost j hj (by omega) hgone
    · intro j hj hjk hkept
      have hjo : j ≠ start + k := by
        rintro rfl
        exact hkept (h.lost_of_none hlast)
      dsimp only
      rw [hother j (by omega) hjo]
      exact h.kept j hj (by omega) hkept

theorem DropExact.rounds {m : Nat} (h : DropExact b start k p) (hin : start + k + m ≤ b.capacity) :
    DropExact b start (k + m) (dropRounds .completeMessages m (start + k) p) := by
  induction m generalizing k p with
  | zero => exact h
  | succ m ih =>
    unfold dropRounds
    have hstep := ih (h.round (by omega)) (by omega)
    rw [show k + (m + 1) = k + 1 + m by omega]
    exact hstep

end

theorem dropExact_start (hs : b.Stored) (start : Nat) : DropExact b start 0 { buffer := b } :=
  ⟨dropState_start hs start, by omega, by omega, nofun⟩

variable {range : SequenceRange} {last : Nat}

theorem dropWithin_exact (hs : b.Stored) (hspan : DropSpan b range start last) :
    DropExact b start (min last (b.capacity - 1) + 1 - start)
      (b.dropWithin range .completeMessages) := by
  have hpos : 0 < b.capacity := b.slots.capacity_pos
  have hstart := dropExact_start hs start
  unfold dropWithin
  rw [hspan.start, hspan.last, Int.toNat_natCast]
  dsimp only
  by_cases hle : start ≤ min last (b.capacity - 1) + 1
  · have hrounds := hstart.rounds (m := min last (b.capacity - 1) + 1 - start) (by omega)
    rw [Nat.zero_add] at hrounds
    exact hrounds
  rw [show min last (b.capacity - 1) + 1 - start = 0 by omega]
  exact hstart

/-- A packet that a drop gives up: it was dropped before, or it is in the
range and no whole message has it. -/
def GivenUp (b : ReceiveBuffer) (range : SequenceRange) (j : Nat) : Prop :=
  (b.slot j).dropped = true
    ∨ range.first.distanceFrom b.firstStored ≤ j ∧ j ≤ range.last.distanceFrom b.firstStored
      ∧ b.Lost (range.first.distanceFrom b.firstStored).toNat j

/-- The loop drops what is given up. -/
theorem GivenUp.dropped (h : b.GivenUp range j) (hs : b.Stored)
    (hspan : DropSpan b range start last) (hj : j < b.capacity) :
    ((b.dropWithin range .completeMessages).buffer.slot j).dropped = true := by
  have hexact := dropWithin_exact hs hspan
  have hstart := hspan.start
  have hlast := hspan.last
  rcases h with hdropped | ⟨hfirst, hend, hlost⟩
  · rcases hexact.slot_cases hj with ⟨-, -, hd, -⟩ | hsame
    · exact hd
    · rw [hsame]
      exact hdropped
  · rw [hstart] at hlost
    exact hexact.lost j (by omega) (by omega) hlost

/-- The loop leaves what is not. -/
theorem slot_of_not_givenUp (h : ¬ b.GivenUp range j) (hs : b.Stored)
    (hspan : DropSpan b range start last) (hj : j < b.capacity) :
    (b.dropWithin range .completeMessages).buffer.slot j = b.slot j := by
  have hstart := hspan.start
  have hlast := hspan.last
  refine (dropWithin_exact hs hspan).slot_eq hj fun hfirst hend hlost => h (.inr ⟨?_, ?_, ?_⟩)
  · omega
  · omega
  · rw [hstart]
    exact hlost

end ReceiveBuffer

end Srt
