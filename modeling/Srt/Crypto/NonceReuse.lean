/-
# `Crypto.NonceReuse` — no position shares its initialization vector

A driver prepares growing positions, encrypts or seals the prepared one, and
calls every other operation whenever it likes.  Its log says which key each
position was encrypted with.  The sequence accounting of the session is a key
schedule in the sense of `Lib.KeySchedule`: a key is charged for the positions
it skips, and `maximumSequencesPerKey` is its budget.
-/
import Mathlib.Data.Nat.Digits.Lemmas
import Srt.Lib.System
import Srt.Lib.KeySchedule
import Srt.Crypto.Sender

namespace Srt

open Fallible CryptoSession List

/-! ## The driver -/

/-- An encrypted or sealed packet: the position the driver meant, and what the
key was used with. -/
structure Encryption where
  position : Nat
  sequence : SequenceNumber
  key : TrafficKey
  length : Nat
  deriving DecidableEq, Repr

structure Driver where
  session : CryptoSession
  /-- Where the last `prepare_data_packet` call succeeded, if it did. -/
  prepared : Option Nat := none
  /-- Where one succeeded last. -/
  lastPrepared : Option Nat := none
  /-- The position of the last `prepare_data_packet` call. -/
  attempted : Option Nat := none
  /-- The position `note_data_packet_sent` was last called for. -/
  noted : Option Nat := none
  log : List Encryption := []

namespace Driver

variable (P : CryptoProvider)

/-- The log behind a DATA operation that succeeded. -/
def record (d : Driver) (sequence : SequenceNumber) (length : Nat) : List Encryption :=
  match d.session.transmit.get d.session.activeSenderKey, d.lastPrepared with
  | some key, some position => { position, sequence, key, length } :: d.log
  | _, _ => d.log

def step (d : Driver) (c : CryptoCall) : Driver :=
  let d' : Driver := { d with session := d.session.after P c }
  match c with
  | .prepareDataPacket position =>
    if d.session.succeeds P c then { d' with
      prepared := some position, lastPrepared := some position, attempted := some position }
    else { d' with prepared := none, attempted := some position }
  | .noteDataPacketSent => { d' with noted := d.lastPrepared }
  | .encrypt sequence plaintext =>
    if d.session.succeeds P c then { d' with log := d.record sequence plaintext.length }
    else d'
  | .sealPacket header plaintext =>
    if d.session.succeeds P c then { d' with log := d.record header.sequence plaintext.length }
    else d'
  | _ => d'

def system : Lts.System Driver CryptoCall :=
  .ofFun (fun d => ∃ c, d = { session := ofConfiguration P c }) (step P)

/-- DATA only for the sequence of the position. -/
def SendsAt (position : Option Nat) : CryptoCall → Prop
  | .encrypt sequence _ => ∃ p ∈ position, sequence = .ofNat p
  | .sealPacket header _ => ∃ p ∈ position, header.sequence = .ofNat p
  | _ => True

/-- Positions do not decrease, and one is noted once, behind its encryption. -/
def Orderly (d : Driver) : CryptoCall → Prop
  | .prepareDataPacket position => position < 2 ^ 64 ∧ ∀ p ∈ d.attempted, p ≤ position
  | .noteDataPacketSent =>
    ∃ p ∈ d.lastPrepared, (∃ e ∈ d.log, e.position = p) ∧ d.noted ≠ some p
  | _ => True

/-- DATA for the last successfully prepared position. -/
def Drives (d : Driver) (c : CryptoCall) : Prop := SendsAt d.lastPrepared c ∧ Orderly d c

/-- DATA only behind a `prepare_data_packet` call that succeeded. -/
def DrivesPrepared (d : Driver) (c : CryptoCall) : Prop := SendsAt d.prepared c

instance SendsAt.decidable (position : Option Nat) (c : CryptoCall) :
    Decidable (SendsAt position c) :=
  match c with
  | .encrypt sequence _ => inferInstanceAs (Decidable (∃ p ∈ position, sequence = .ofNat p))
  | .sealPacket header _ =>
    inferInstanceAs (Decidable (∃ p ∈ position, header.sequence = .ofNat p))
  | .startInitiator | .acceptKeyMaterial _ _ | .acknowledgeKeyMaterial _ _
  | .continueWithoutPeerKey _ | .prepareRotation | .setPreannouncementFloor _
  | .prepareDataPacket _ | .noteDataPacketSent | .decrypt _ _ _ | .openPacket _ _ _
  | .noteAcceptedReceiveSequence _ => .isTrue trivial

instance Orderly.decidable (d : Driver) (c : CryptoCall) : Decidable (Orderly d c) :=
  match c with
  | .prepareDataPacket position =>
    inferInstanceAs (Decidable (position < 2 ^ 64 ∧ ∀ p ∈ d.attempted, p ≤ position))
  | .noteDataPacketSent =>
    inferInstanceAs (Decidable
      (∃ p ∈ d.lastPrepared, (∃ e ∈ d.log, e.position = p) ∧ d.noted ≠ some p))
  | .startInitiator | .acceptKeyMaterial _ _ | .acknowledgeKeyMaterial _ _
  | .continueWithoutPeerKey _ | .prepareRotation | .setPreannouncementFloor _ | .encrypt _ _
  | .sealPacket _ _ | .decrypt _ _ _ | .openPacket _ _ _ | .noteAcceptedReceiveSequence _ =>
    .isTrue trivial

instance (d : Driver) (c : CryptoCall) : Decidable (Drives d c) :=
  inferInstanceAs (Decidable (_ ∧ _))

instance (d : Driver) (c : CryptoCall) : Decidable (DrivesPrepared d c) :=
  inferInstanceAs (Decidable (SendsAt _ _))

end Driver

/-- Every key of the transmit slots and of the log is known. -/
structure AllKnown (P : CryptoProvider) (s : CryptoSession) (log : List Encryption) : Prop where
  slots : SlotsKnown P s
  log : ∀ e ∈ log, Known P s.providerCalls e.key

theorem SenderStep.allKnown {P : CryptoProvider} {s₀ s t : CryptoSession} {c : CryptoCall}
    {log : List Encryption} (h : SenderStep P s₀ c s t) (hs : AllKnown P s log) :
    AllKnown P t log where
  slots := h.slotsKnown hs.slots
  log e he := (hs.log e he).mono h.later.calls

/-! ## The session as a key schedule -/

/-- The transmit half and the log as a schedule. -/
def scheduleOf (v : Sender) (log : List Encryption) : KeySchedule.State TrafficKey where
  active := v.transmit.get v.active
  spare := v.transmit.get v.active.other
  count := v.packets
  position := v.position
  sent := v.sent
  ready := v.rotationPrepared
  used := log.map fun e => (e.position, e.key)

abbrev ScheduleSteps : KeySchedule.State TrafficKey → KeySchedule.State TrafficKey → Prop :=
  Relation.ReflTransGen (KeySchedule.Step TrafficKey.key maximumSequencesPerKey)

theorem ScheduleSteps.of_step {a b b' : KeySchedule.State TrafficKey}
    (h : KeySchedule.Step TrafficKey.key maximumSequencesPerKey a b) (he : b = b') :
    ScheduleSteps a b' := he ▸ .single h

section Schedule

variable {P : CryptoProvider} {s₀ s t : CryptoSession} {c : CryptoCall} {log : List Encryption}

theorem CryptoSession.Drew.fresh (hfresh : FreshKeys P) (hs : AllKnown P s log) {k : TrafficKey}
    (h : Drew P s t k.key) : KeySchedule.Fresh TrafficKey.key (scheduleOf s.sender log) k where
  used u hu := by
    obtain ⟨e, he, rfl⟩ := mem_map.1 hu
    exact h.ne hfresh (hs.log e he).drawn
  active a ha := h.ne hfresh (hs.slots _ a ha).drawn
  spare b hb := h.ne hfresh (hs.slots _ b hb).drawn

/-- Every sender step is made of schedule steps. -/
theorem SenderStep.schedule (hfresh : FreshKeys P) (hw : SenderWellFormed s)
    (hs : AllKnown P s log) (h : SenderStep P s₀ c s t) :
    ScheduleSteps (scheduleOf s.sender log) (scheduleOf t.sender log) := by
  cases h with
  | quiet h => rw [h.sender]
  | announce _ _ _ h | unannounce h | settle _ _ h | demote _ _ _ _ h | confirm _ _ _ h
  | reverse h => rw [h.sender]; exact .refl
  | erase h => rw [h.sender]; exact .single .drop
  | discard h inactive =>
    rw [h.sender]
    refine .of_step .drop ?_
    simp [scheduleOf, sender, BySelector.get, KeySelector.other, hw.empty inactive]
  | initial k drew salted h empty even =>
    rw [h.sender]
    refine .of_step (.install k ?_ (drew.fresh hfresh hs)) ?_
    · simp [scheduleOf, sender, empty, even, BySelector.get]
    · simp [scheduleOf, sender, empty, even, BySelector.get, KeySelector.other]
  | stage current k drew h =>
    rw [h.sender]
    refine .of_step (.stage k false (drew.fresh hfresh hs)) ?_
    simp [scheduleOf, sender]
  | rotate current k _ drew h =>
    rw [h.sender]
    refine .of_step (.stage k true (drew.fresh hfresh hs)) ?_
    simp [scheduleOf, sender]
  | consume h room => rw [h.sender]; exact .single (.charge room)
  | exhaust h full => rw [h.sender]; exact .single (.full full)
  | rotateAlone current k drew h ready same alone =>
    -- As in a rotation that is announced and acknowledged at once.
    rw [h.sender]
    refine .trans (.single (.stage k true (drew.fresh hfresh hs)))
      (ScheduleSteps.of_step (.switch ?_) ?_)
    · simp
    · simp [scheduleOf, sender, hw.alone alone]
  | switch h _ prepared =>
    rw [h.sender]
    refine .of_step (.switch prepared) ?_
    simp [scheduleOf, sender]
  | arrive p h _ fresh => rw [h.sender]; exact .single (.first p fresh)
  | skip q p h _ last ahead room =>
    rw [h.sender]
    have hskipped : p - q - s.preparedPacketSent.toNat = s.skippedPositions q p := by
      unfold CryptoSession.skippedPositions
      cases s.preparedPacketSent <;> rfl
    refine .of_step (.advance q p last ahead ?_) ?_
    · show s.packetsOnActiveKey + (p - q - s.preparedPacketSent.toNat) < _
      rw [hskipped]
      exact room
    · simp [scheduleOf, sender, hskipped]
  | leave _ _ _ h => rw [h.sender]; exact .single .withdraw

/-- What holds of a session and the log of its uses. -/
structure Accounted (P : CryptoProvider) (s : CryptoSession) (log : List Encryption) : Prop where
  wellFormed : SenderWellFormed s
  known : AllKnown P s log
  schedule : KeySchedule.Invariant TrafficKey.key maximumSequencesPerKey
    (scheduleOf s.sender log)

theorem Accounted.step (hfresh : FreshKeys P) (hs : Accounted P s log)
    (h : SenderStep P s₀ c s t) : Accounted P t log where
  wellFormed := h.wellFormed hs.wellFormed
  known := h.allKnown hs.known
  schedule := hs.schedule.steps (h.schedule hfresh hs.wellFormed hs.known)

theorem Accounted.after (hfresh : FreshKeys P) (hs : Accounted P s log) (c : CryptoCall) :
    Accounted P (s.after P c) log := by
  have hsteps := after_steps (P := P) hs.wellFormed c
  generalize s.after P c = t at hsteps
  induction hsteps with
  | refl => exact hs
  | tail _ hstep ih => exact ih.step hfresh hstep

theorem accounted_ofConfiguration (P : CryptoProvider) (c : CryptoConfiguration) :
    Accounted P (ofConfiguration P c) [] := by
  refine ⟨senderWellFormed_ofConfiguration P c, ⟨?_, by simp⟩, ?_⟩ <;>
    unfold ofConfiguration <;> dsimp only <;> split
  · exact fun i k hk => by cases i <;> cases hk
  · exact fun i k hk => by cases i <;> cases hk
  · exact KeySchedule.Invariant.initial
  · exact KeySchedule.Invariant.initial

/-! ## Positions -/

/-- Only `prepare_data_packet` moves the position. -/
theorem SenderStep.position_eq (h : SenderStep P s₀ c s t) (hc : ∀ p, c ≠ .prepareDataPacket p) :
    t.preparedSequencePosition = s.preparedSequencePosition := by
  cases h
  case arrive p _ call _ => exact absurd call (hc p)
  case skip _ p _ call _ _ _ => exact absurd call (hc p)
  all_goals
    exact congrArg Sender.position ‹Leads s t _›.sender

theorem after_position_eq (hs : SenderWellFormed s) (hc : ∀ p, c ≠ .prepareDataPacket p) :
    (s.after P c).preparedSequencePosition = s.preparedSequencePosition := by
  have hsteps := after_steps (P := P) hs c
  generalize s.after P c = t at hsteps ⊢
  induction hsteps with
  | refl => rfl
  | tail _ hstep ih => exact (hstep.position_eq hc).trans ih

theorem prepareRotation_position : Ensures (prepareRotation P) s
      (fun _ t => t.preparedSequencePosition = s.preparedSequencePosition) (fun _ _ => True) := by
  refine (prepareRotation_steps s .prepareRotation rfl rfl fun hdue => ⟨_, rfl, hdue⟩).mono ?_
    (fun _ _ _ => trivial)
  intro _ t ht
  induction ht with
  | refl => rfl
  | tail _ hstep ih => exact (hstep.position_eq nofun).trans ih

/-- A prepared position is the current one. -/
theorem prepareDataPacket_position (position : Nat) (henabled : s.enabled = true) :
    Ensures (prepareDataPacket P position) s
      (fun _ t => t.preparedSequencePosition = some position) (fun _ _ => True) := by
  unfold prepareDataPacket
  rw [ensures_get_bind]
  split
  · next h => cases h.symm.trans henabled
  split
  · rw [ensures_modify_bind]
    exact prepareRotation_position
  next prepared hlast =>
  split
  · trivial
  split
  · next heq =>
    rw [heq]
    exact hlast
  dsimp only
  split
  · trivial
  rw [ensures_modify_bind]
  exact prepareRotation_position

theorem after_prepareDataPacket {position : Nat} (henabled : s.enabled = true)
    (hok : s.succeeds P (.prepareDataPacket position) = true) :
    (s.after P (.prepareDataPacket position)).preparedSequencePosition = some position :=
  after_of_succeeds (c := .prepareDataPacket position)
    (prepareDataPacket_position position henabled) hok

end Schedule

/-! ## Initialization vectors -/

theorem zipWith_xor_cancel : ∀ {l x y : Bytes}, l.length = x.length → l.length = y.length →
    zipWith (· ^^^ ·) l x = zipWith (· ^^^ ·) l y → x = y
  | [], [], [], _, _, _ => rfl
  | a :: l, b :: x, c :: y, hx, hy, h => by
    simp only [zipWith_cons_cons, cons.injEq, UInt8.xor_right_inj] at h
    rw [h.1, zipWith_xor_cancel (Nat.succ.inj hx) (Nat.succ.inj hy) h.2]

theorem writeU32_injective {m n : Nat} (hm : m < 2 ^ 32) (hn : n < 2 ^ 32)
    (h : writeU32 m = writeU32 n) : m = n := by
  simp only [writeU32, writeU16, cons_append, nil_append, cons.injEq,
    ← UInt8.toNat_inj, UInt8.toNat_ofNat'] at h
  omega

theorem xorSequence_injective {a b : SequenceNumber} {salt : Bytes} {offset : Nat}
    (hsalt : offset + 4 ≤ salt.length) (h : xorSequence a salt offset = xorSequence b salt offset) :
    a = b := by
  have ha := a.value_lt
  have hb := b.value_lt
  have hlength : ((salt.drop offset).take 4).length = 4 := by
    rw [length_take, length_drop]
    omega
  have hwords := zipWith_xor_cancel hlength hlength (append_cancel_left h)
  exact SequenceNumber.ext (writeU32_injective (by omega) (by omega) hwords)

theorem xorSequence_length (a : SequenceNumber) {salt : Bytes} {offset : Nat}
    (hsalt : offset + 4 ≤ salt.length) : (xorSequence a salt offset).length = offset + 4 := by
  simp only [xorSequence, writeU32, writeU16, length_append, length_take,
    length_zipWith, length_drop, length_cons, length_nil]
  omega

/-- The number a block of bytes spells, most significant byte first. -/
def blockValue (b : Bytes) : Nat := Nat.ofDigits 256 (b.reverse.map UInt8.toNat)

/-- The counter blocks AES-CTR runs through for `length` bytes. -/
def counterBlocks (iv : Bytes) (length : Nat) : List Nat :=
  (range ((length + 15) / 16)).map fun i => (blockValue iv + i) % 2 ^ 128

theorem digits_lt (b : Bytes) : ∀ d ∈ b.reverse.map UInt8.toNat, d < 256 := by
  intro d hd
  obtain ⟨x, -, rfl⟩ := mem_map.1 hd
  exact x.toNat_lt

theorem blockValue_injective {a b : Bytes} (hlength : a.length = b.length)
    (h : blockValue a = blockValue b) : a = b := by
  have hdigits := Nat.ofDigits_inj_of_len_eq (by decide) (by simp [hlength]) (digits_lt a)
    (digits_lt b) h
  exact reverse_injective (map_injective_iff.2 (fun _ _ => UInt8.toNat_inj.1) hdigits)

theorem blockValue_zeros (b : Bytes) : blockValue (b ++ [0, 0]) = 65536 * blockValue b := by
  simp only [blockValue, reverse_append, reverse_cons, reverse_nil, nil_append,
    cons_append, map_cons, Nat.ofDigits_cons, UInt8.toNat_zero]
  omega

theorem blockValue_lt (b : Bytes) : blockValue b < 256 ^ b.length := by
  have := Nat.ofDigits_lt_base_pow_length (by decide) (digits_lt b)
  simpa [blockValue] using this

/-- The last two bytes of the vector leave room for 65536 blocks, of which a
payload takes at most 91. -/
theorem counterBlocks_disjoint {a b : SequenceNumber} {salt : Bytes} {m n : Nat}
    (hsalt : salt.length = srtSaltSize) (hne : a ≠ b) (hm : m ≤ 1456) (hn : n ≤ 1456) :
    (counterBlocks (makeSrtCtrInitializationVector a salt) m).Disjoint
      (counterBlocks (makeSrtCtrInitializationVector b salt) n) := by
  have hroom : 10 + 4 ≤ salt.length := by rw [hsalt]; decide
  have hvalue : blockValue (xorSequence a salt 10) ≠ blockValue (xorSequence b salt 10) := by
    intro h
    refine hne (xorSequence_injective hroom (blockValue_injective ?_ h))
    rw [xorSequence_length a hroom, xorSequence_length b hroom]
  have ha := blockValue_lt (xorSequence a salt 10)
  have hb := blockValue_lt (xorSequence b salt 10)
  rw [xorSequence_length _ hroom] at ha hb
  intro block hblock hblock'
  simp only [counterBlocks, makeSrtCtrInitializationVector, blockValue_zeros, mem_map,
    mem_range] at hblock hblock'
  obtain ⟨i, hi, rfl⟩ := hblock
  obtain ⟨j, hj, heq⟩ := hblock'
  have hi : i < 91 := by omega
  have hj : j < 91 := by omega
  rw [Nat.mod_eq_of_lt (by omega), Nat.mod_eq_of_lt (by omega)] at heq
  omega

theorem ofNat_ne {p q : Nat} (hne : p ≠ q) (hp : p ≤ q + maximumSequencesPerKey)
    (hq : q ≤ p + maximumSequencesPerKey) : SequenceNumber.ofNat p ≠ SequenceNumber.ofNat q := by
  intro h
  have hvalue : p % 2 ^ 31 = q % 2 ^ 31 := congrArg SequenceNumber.value h
  unfold maximumSequencesPerKey at hp hq
  omega

/-! ## Runs of the driver -/

namespace Driver

variable {P : CryptoProvider} {d : Driver} {c : CryptoCall}

/-- The account of the session and where the driver stands. -/
structure Sound (P : CryptoProvider) (d : Driver) : Prop where
  accounted : Accounted P d.session d.log
  sequences : ∀ e ∈ d.log, e.sequence = .ofNat e.position
  prepared : ∀ p ∈ d.prepared, d.lastPrepared = some p
    ∧ (d.session.enabled = true → d.session.preparedSequencePosition = some p)

/-- A use of the active key at the prepared position. -/
theorem Sound.record (hd : Sound P d) {p : Nat} (hp : d.prepared = some p) (length : Nat) :
    Accounted P d.session (d.record (.ofNat p) length)
      ∧ ∀ e ∈ d.record (.ofNat p) length, e.sequence = .ofNat e.position := by
  obtain ⟨hw, hknown, hschedule⟩ := hd.accounted
  obtain ⟨hlast, hposition⟩ := hd.prepared p hp
  unfold Driver.record
  rw [hlast]
  split
  · next key position hkey heq =>
    cases heq
    have henabled := (hw.operational (by rw [hkey]; rfl)).1
    refine ⟨⟨hw, ⟨hknown.slots, ?_⟩, hschedule.use (hposition henabled) hkey⟩, ?_⟩
    · intro e he
      rcases mem_cons.1 he with rfl | he
      · exact hknown.slots _ key hkey
      · exact hknown.log e he
    intro e he
    rcases mem_cons.1 he with rfl | he
    · rfl
    · exact hd.sequences e he
  · exact ⟨hd.accounted, hd.sequences⟩

theorem Sound.step (hfresh : FreshKeys P) (hd : Sound P d) (hc : DrivesPrepared d c) :
    Sound P (d.step P c) := by
  have hsame : ∀ log, Accounted P d.session log ∧ (∀ e ∈ log, e.sequence = .ofNat e.position) →
      (∀ p, c ≠ .prepareDataPacket p) →
      Sound P { d with session := d.session.after P c, log := log } := by
    rintro log ⟨hlog, hsequences⟩ hne
    refine ⟨hlog.after hfresh c, hsequences, ?_⟩
    intro p hp
    obtain ⟨hlast, hposition⟩ := hd.prepared p hp
    refine ⟨hlast, ?_⟩
    intro henabled
    rw [after_position_eq hlog.wellFormed hne]
    exact hposition ((after_later hlog.wellFormed c).enabled.symm.trans henabled)
  have hquiet := hsame d.log ⟨hd.accounted, hd.sequences⟩
  cases c with
  | prepareDataPacket position =>
    have hafter := hd.accounted.after hfresh (.prepareDataPacket position)
    unfold Driver.step
    dsimp only
    split
    · next hok =>
      refine ⟨hafter, hd.sequences, ?_⟩
      rintro p ⟨⟩
      refine ⟨rfl, fun henabled => after_prepareDataPacket ?_ hok⟩
      exact (after_later hd.accounted.wellFormed _).enabled.symm.trans henabled
    · exact ⟨hafter, hd.sequences, nofun⟩
  | noteDataPacketSent => exact ⟨(hquiet nofun).accounted, hd.sequences, (hquiet nofun).prepared⟩
  | encrypt sequence plaintext =>
    obtain ⟨p, hp, rfl⟩ := hc
    unfold Driver.step
    dsimp only
    split
    · exact hsame _ (hd.record hp _) nofun
    · exact hquiet nofun
  | sealPacket header plaintext =>
    obtain ⟨p, hp, hsequence⟩ := hc
    unfold Driver.step
    dsimp only
    rw [hsequence]
    split
    · exact hsame _ (hd.record hp _) nofun
    · exact hquiet nofun
  | _ => exact hquiet nofun

theorem sound_of_reaches (hfresh : FreshKeys P)
    (h : Lts.Reaches (system P) DrivesPrepared d) : Sound P d := by
  refine h.invariant ?_ ?_
  · rintro _ ⟨c, rfl⟩
    exact ⟨accounted_ofConfiguration P c, by simp, by simp⟩
  rintro d c _ _ hd hc rfl
  exact hd.step hfresh hc

/-- DATA sent only behind a successful preparation never meets a sequence
number of another position under its key; with AES-CTR and payloads of at most
1456 bytes, no counter block either. -/
theorem positions_never_share_iv (P : CryptoProvider) (hfresh : FreshKeys P) (d : Driver)
    (h : Lts.Reaches (system P) DrivesPrepared d) :
    ∀ a ∈ d.log, ∀ b ∈ d.log, a.key.key = b.key.key → a.position ≠ b.position →
      a.sequence ≠ b.sequence
        ∧ (a.key.mode = .aesCtr → a.length ≤ 1456 → b.length ≤ 1456 →
          (counterBlocks (makeSrtCtrInitializationVector a.sequence a.key.salt) a.length).Disjoint
            (counterBlocks (makeSrtCtrInitializationVector b.sequence b.key.salt) b.length)) := by
  intro a ha b hb hkey hne
  have hd := sound_of_reaches hfresh h
  have hspan := hd.accounted.schedule.span (a.position, a.key) (mem_map.2 ⟨a, ha, rfl⟩)
    (b.position, b.key) (mem_map.2 ⟨b, hb, rfl⟩) hkey
  have hspan' := hd.accounted.schedule.span (b.position, b.key) (mem_map.2 ⟨b, hb, rfl⟩)
    (a.position, a.key) (mem_map.2 ⟨a, ha, rfl⟩) hkey.symm
  have hsequence : a.sequence ≠ b.sequence := by
    rw [hd.sequences a ha, hd.sequences b hb]
    exact ofNat_ne hne hspan.2 hspan'.2
  refine ⟨hsequence, ?_⟩
  intro _ hlength hlength'
  rw [show b.key = a.key from hspan'.1]
  exact counterBlocks_disjoint (hd.accounted.known.log a ha).salted hsequence hlength hlength'

/-! ## Runs

In the second the driver encrypts for the last position that was prepared with
success.  A failed `prepare_data_packet` has already moved the session's
position, so a key made behind it starts to count there. -/

/-- A rotation-free exchange and two packets. -/
def plainRun : Driver :=
  let P := exampleProvider []
  let d : Driver := { session := ofConfiguration P exampleConfiguration }
  [CryptoCall.startInitiator, .acknowledgeKeyMaterial exampleRequest false, .prepareDataPacket 5,
    .encrypt (.ofNat 5) [1], .noteDataPacketSent, .prepareDataPacket 9,
    .encrypt (.ofNat 9) [2]].foldl (step P) d

theorem plainRun_reaches : Lts.Reaches (system (exampleProvider [])) DrivesPrepared plainRun := by
  have hstart : Lts.Reaches (system (exampleProvider [])) DrivesPrepared
      { session := ofConfiguration (exampleProvider []) exampleConfiguration } :=
    .start ⟨exampleConfiguration, rfl⟩
  exact hstart.foldl (by decide +kernel)

theorem positions_never_share_iv_plainRun :
    plainRun.log.length = 2 ∧ ∀ a ∈ plainRun.log, ∀ b ∈ plainRun.log, a.key.key = b.key.key →
      a.position ≠ b.position → a.sequence ≠ b.sequence :=
  ⟨by decide +kernel, fun a ha b hb hkey hne =>
    (positions_never_share_iv (exampleProvider []) (exampleProvider_freshKeys []) plainRun
      plainRun_reaches a ha b hb hkey hne).1⟩

/-- The random source fails in the first exchange, so the session is left
securing without a transmit key. -/
def failingProvider : CryptoProvider := exampleProvider [3]

def reuseStart : Driver := { session := ofConfiguration failingProvider exampleConfiguration }

/-- The second preparation fails for want of a key; the second exchange
succeeds. -/
def reuseExchange : Driver :=
  [CryptoCall.acceptKeyMaterial exampleRequest true, .prepareDataPacket 0,
    .prepareDataPacket (2 ^ 31 - 10), .acceptKeyMaterial exampleRequest true].foldl
    (step failingProvider) reuseStart

def reuseRun : Driver :=
  [CryptoCall.acknowledgeKeyMaterial reuseExchange.session.pendingKeyMaterial false,
    .encrypt (.ofNat 0) [1], .prepareDataPacket (2 ^ 31), .encrypt (.ofNat (2 ^ 31)) [2]].foldl
    (step failingProvider) reuseExchange

theorem reuseRun_reaches : Lts.Reaches (system failingProvider) Drives reuseRun := by
  have hstart : Lts.Reaches (system failingProvider) Drives reuseStart :=
    .start ⟨exampleConfiguration, rfl⟩
  exact (hstart.foldl (by decide +kernel)).foldl (by decide +kernel)

/-- Two positions `2 ^ 31` apart under one key. -/
theorem last_prepared_position_reuses_iv :
    FreshKeys failingProvider ∧ ∃ d, Lts.Reaches (system failingProvider) Drives d
      ∧ ∃ a ∈ d.log, ∃ b ∈ d.log, a.key.key = b.key.key ∧ a.position ≠ b.position
        ∧ a.sequence = b.sequence :=
  ⟨exampleProvider_freshKeys [3], reuseRun, reuseRun_reaches, by decide +kernel⟩

end Driver

end Srt
