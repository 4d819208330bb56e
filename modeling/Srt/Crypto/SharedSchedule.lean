/-
# `Crypto.SharedSchedule` — one key schedule for every member of a group

`SharedTransmitKeySchedule` of `src/crypto.cpp`.  Positions count packets from
the origin of the group; a generation is a stretch of `refresh_rate_packets`
positions and has one key.  The schedule unwraps a sequence number against the
frontier, the highest position seen, and keeps the keys of generations in a
ring of four, drawing a key when it is first asked for.

Members call it under a lock, so a run is any sequence of whole calls.  The
ring holds only rising generations in each place: a key is drawn for a
generation that is ahead of what its place holds, which is why a generation
that was overwritten cannot be drawn again.
-/
import Srt.Lib.System
import Srt.Crypto.Sender

namespace Srt

open Fallible

variable {g : Nat}

/-- The constructor's arguments. -/
structure SharedScheduleConfiguration where
  keyLength : Nat := 16
  mode : CryptoMode := .aesCtr
  refreshRatePackets : Nat := defaultKeyRefreshRate
  preannouncementPackets : Nat := defaultKeyPreannouncement
  origin : SequenceNumber := ⟨0, by decide⟩
  deriving DecidableEq, Repr

def retainedGenerations : Nat := 4

def minimumAesKeySize : Nat := 16

def maximumAesKeySize : Nat := 32

def maximumPosition : Nat := 2 ^ 64 - 1

/-- A `Generation` that is valid. -/
structure KeyGeneration where
  index : Nat
  key : Bytes
  deriving DecidableEq, Repr

structure SharedTransmitKeySchedule where
  keyLength : Nat
  mode : CryptoMode
  refreshRatePackets : Nat
  preannouncementPackets : Nat
  origin : SequenceNumber
  salt : Bytes := []
  /-- Read below `retainedGenerations`. -/
  generations : Nat → Option KeyGeneration := fun _ => none
  newestGeneration : Nat := 0
  initialized : Bool := false
  frontierPosition : Nat := 0
  frontierSequence : SequenceNumber
  /-- Draws from the random source so far. -/
  draws : Nat := 0

namespace SharedTransmitKeySchedule

/-- The constructor: the period is kept inside the budget of a key, the
announcement inside the period. -/
def ofConfiguration (c : SharedScheduleConfiguration) : SharedTransmitKeySchedule :=
  let refresh := max 2 (min c.refreshRatePackets effectiveKeyRefreshCap)
  { keyLength := c.keyLength
    mode := c.mode
    refreshRatePackets := refresh
    preannouncementPackets := min c.preannouncementPackets ((refresh - 1) / 2)
    origin := c.origin
    frontierSequence := c.origin }

abbrev ScheduleM := EStateM Error SharedTransmitKeySchedule

variable (P : CryptoProvider)

/-- `provider_.random_bytes`. -/
def draw (size : Nat) : ScheduleM Bytes := fun s =>
  let t := { s with draws := s.draws + 1 }
  match P.randomBytes s.draws size with
  | .ok b => .ok b.val t
  | .error e => .error e t

variable (s : SharedTransmitKeySchedule)

def generationAt (position : Nat) : Nat :=
  position / s.refreshRatePackets

/-- Whether `position` lies in the announcement window of its successor. -/
def announcementDue (position : Nat) : Bool :=
  decide (s.refreshRatePackets - s.preannouncementPackets ≤ position % s.refreshRatePackets)

def slot (generation : Nat) : Option KeyGeneration :=
  s.generations (generation % retainedGenerations)

/-- The ring holds this generation. -/
def holds (generation : Nat) : Bool :=
  (s.slot generation).any (·.index == generation)

/-- The writes of `generate_locked`. -/
def putGeneration (generation : Nat) (key : Bytes) :
    SharedTransmitKeySchedule :=
  { s with
    generations := fun p =>
      if p = generation % retainedGenerations then some ⟨generation, key⟩ else s.generations p
    newestGeneration := max s.newestGeneration generation }

def generateLocked (generation : Nat) : ScheduleM Unit := do
  let s ← get
  let key ← draw P s.keyLength
  modify (·.putGeneration generation key)

/-- `initialize`. -/
def initializeSchedule : ScheduleM Unit := do
  let s ← get
  if s.initialized then pure ()
  else if s.keyLength < minimumAesKeySize ∨ maximumAesKeySize < s.keyLength
      ∨ (s.mode ≠ .aesCtr ∧ s.mode ≠ .aesGcm) then
    throw .invalidState
  else do
    let salt ← draw P srtSaltSize
    modify fun s => { s with salt }
    tryCatch (generateLocked P 0) fun e => do
      modify fun s => { s with salt := List.replicate srtSaltSize 0 }
      throw e
    modify fun s => { s with initialized := true }

/-- `position_of`, in 64 bits. -/
def positionOf (sequence : SequenceNumber) : ScheduleM Nat := do
  let s ← get
  let distance := sequence.distanceFrom s.frontierSequence
  if 0 < distance then do
    let position := (s.frontierPosition + distance.toNat) % 2 ^ 64
    modify fun s => { s with frontierPosition := position, frontierSequence := sequence }
    pure position
  else pure (s.frontierPosition - (-distance).toNat)

/-- The slot of the new frontier: no packet of the skipped ones was emitted,
so only the next live key is needed. -/
def ensureLive (generation : Nat) : ScheduleM Unit := do
  let s ← get
  if s.holds generation then pure () else generateLocked P generation

def advanceUnused (first : SequenceNumber) (packets : Nat) : ScheduleM Unit := do
  let s ← get
  let distance := first.distanceFrom s.frontierSequence
  if s.initialized = false ∨ packets = 0 ∨ SequenceNumber.halfRange ≤ packets ∨ distance < 0 then
    throw .invalidState
  else if maximumPosition - s.frontierPosition < distance.toNat + packets then
    throw .invalidState
  else do
    let position := s.frontierPosition + (distance.toNat + packets)
    ensureLive P (s.generationAt position)
    modify fun s => { s with
      frontierPosition := position
      frontierSequence := first.advanced packets }

/-- The slot of `key_for`: only the next generation is created on demand. -/
def ensureRetained (generation : Nat) : ScheduleM Unit := do
  let s ← get
  if s.holds generation then pure ()
  else if (s.newestGeneration + 1) % 2 ^ 64 < generation
      ∨ (generation + retainedGenerations) % 2 ^ 64 ≤ s.newestGeneration then
    throw .invalidState
  else generateLocked P generation

/-- `key_for`, with the size of the destination. -/
def keyFor (generation size : Nat) : ScheduleM Bytes := do
  let s ← get
  if s.initialized = false ∨ size < s.keyLength then throw .invalidState
  else do
    ensureRetained P generation
    let s ← get
    match s.slot generation with
    | some g => pure g.key
    | none => throw .invalidState

end SharedTransmitKeySchedule

/-! ## Members of a group -/

/-- The schedule with what it has answered. -/
structure SharedGroup where
  schedule : SharedTransmitKeySchedule
  /-- Positions returned by `position_of`. -/
  positions : List Nat := []
  /-- Generations with the keys returned by `key_for`. -/
  keys : List (Nat × Bytes) := []

/-- A call by one of the members. -/
inductive SharedCall
  | initializeSchedule
  /-- For the packet at a position. -/
  | positionOf (position : Nat)
  | keyFor (generation size : Nat)
  | advanceUnused (first : SequenceNumber) (packets : Nat)
  deriving DecidableEq, Repr

namespace SharedGroup

open SharedTransmitKeySchedule

variable (P : CryptoProvider)

/-- What a call leaves, with its answer noted. -/
def returned {α : Type} (x : SharedGroup) (note : α → SharedGroup → SharedGroup) :
    EStateM.Result Error SharedTransmitKeySchedule α → SharedGroup
  | .ok answer t => note answer { x with schedule := t }
  | .error _ t => { x with schedule := t }

def notePosition (position : Nat) (x : SharedGroup) : SharedGroup :=
  { x with positions := position :: x.positions }

def noteKey (generation : Nat) (key : Bytes) (x : SharedGroup) : SharedGroup :=
  { x with keys := (generation, key) :: x.keys }

def after (x : SharedGroup) : SharedCall → SharedGroup
  | .initializeSchedule => x.returned (fun _ x => x) (initializeSchedule P x.schedule)
  | .positionOf position =>
    x.returned notePosition (positionOf (x.schedule.origin.advanced position) x.schedule)
  | .keyFor generation size => x.returned (noteKey generation) (keyFor P generation size x.schedule)
  | .advanceUnused first packets =>
    x.returned (fun _ x => x) (advanceUnused P first packets x.schedule)

/-- A position in 64 bits, less than half the sequence space ahead of the
frontier or at most half of it behind. -/
def Near (x : SharedGroup) (position : Nat) : Prop :=
  position < 2 ^ 64 ∧ position < x.schedule.frontierPosition + 2 ^ 30
    ∧ x.schedule.frontierPosition ≤ position + 2 ^ 30

/-- How members call: positions near the frontier, and keys for the generation
of the frontier or a position obtained, or the next one. -/
def MemberCalls (x : SharedGroup) : SharedCall → Prop
  | .positionOf position => x.Near position
  | .keyFor generation _ => ∃ p ∈ x.schedule.frontierPosition :: x.positions,
      generation = x.schedule.generationAt p ∨ generation = x.schedule.generationAt p + 1
  | _ => True

/-- The runs of a group. -/
def runs : Lts.System SharedGroup SharedCall :=
  .ofFun (fun x => ∃ c, x = { schedule := .ofConfiguration c }) (after P)

/-- The runs from a state. -/
def runsFrom (x : SharedGroup) : Lts.System SharedGroup SharedCall :=
  .ofFun (· = x) (after P)

end SharedGroup

/-! ## What the ring holds -/

/-- The random source gives no key twice. -/
def NeverRepeats (P : CryptoProvider) : Prop :=
  ∀ i j n a b, minimumAesKeySize ≤ n → P.randomBytes i n = .ok a → P.randomBytes j n = .ok b →
    a.val = b.val → i = j

namespace SharedTransmitKeySchedule

variable {P : CryptoProvider} {s t : SharedTransmitKeySchedule} {drawn : List (Nat × Bytes)}

/-- The keys drawn so far with their generations.  Each place of the ring
holds the highest generation that was drawn for it. -/
structure Record (P : CryptoProvider) (generations : Nat → Option KeyGeneration)
    (newest draws keyLength : Nat) (drawn : List (Nat × Bytes)) : Prop where
  ring : ∀ p g, generations p = some g →
    g.index % retainedGenerations = p ∧ (g.index, g.key) ∈ drawn
  highest : ∀ g k, (g, k) ∈ drawn →
    ∃ h, generations (g % retainedGenerations) = some h ∧ g ≤ h.index
  newest : ∀ g k, (g, k) ∈ drawn → g ≤ newest
  once : ∀ g k k', (g, k) ∈ drawn → (g, k') ∈ drawn → k = k'
  apart : ∀ g g' k, (g, k) ∈ drawn → (g', k) ∈ drawn → g = g'
  random : ∀ g k, (g, k) ∈ drawn → ∃ n < draws, ∃ b, P.randomBytes n keyLength = .ok b ∧ b.val = k

section Record

variable {generations : Nat → Option KeyGeneration} {newest draws keyLength : Nat}

theorem record_empty (newest draws keyLength : Nat) :
    Record P (fun _ => none) newest draws keyLength [] :=
  ⟨nofun, nofun, nofun, nofun, nofun, nofun⟩

/-- A place that does not hold `g` holds a lower generation, unless `g` is four
behind the newest. -/
theorem Record.lower (h : Record P generations newest draws keyLength drawn)
    (hhold : ∀ x, generations (g % retainedGenerations) = some x → x.index ≠ g)
    (hnew : newest < g + retainedGenerations) :
    ∀ x, generations (g % retainedGenerations) = some x → x.index < g := by
  intro x hx
  obtain ⟨hplace, hmem⟩ := h.ring _ x hx
  have hle := h.newest _ _ hmem
  have hne := hhold x hx
  unfold retainedGenerations at hplace hnew
  omega

/-- A new generation in front of what its place holds. -/
theorem Record.put (hrandom : NeverRepeats P) (hsize : minimumAesKeySize ≤ keyLength)
    (h : Record P generations newest draws keyLength drawn)
    {b : { b : Bytes // b.length = keyLength }} (hb : P.randomBytes draws keyLength = .ok b)
    (hlower : ∀ x, generations (g % retainedGenerations) = some x → x.index < g) :
    Record P (fun p => if p = g % retainedGenerations then some ⟨g, b.val⟩ else generations p)
      (max newest g) (draws + 1) keyLength ((g, b.val) :: drawn) := by
  have hnew : ∀ k, (g, k) ∉ drawn := by
    intro k hk
    obtain ⟨x, hx, hle⟩ := h.highest g k hk
    have hlt := hlower x hx
    omega
  have hfresh : ∀ g', (g', b.val) ∉ drawn := by
    intro g' hg'
    obtain ⟨n, hn, b', hb', heq⟩ := h.random g' b.val hg'
    have := hrandom n draws keyLength b' b hsize hb' hb heq
    omega
  constructor
  · intro p x hx
    split at hx
    · next hp =>
      cases hx
      exact ⟨hp.symm, List.mem_cons_self⟩
    obtain ⟨hplace, hmem⟩ := h.ring p x hx
    exact ⟨hplace, List.mem_cons_of_mem _ hmem⟩
  · intro g' k hmem
    rcases List.mem_cons.1 hmem with heq | hold
    · cases heq
      exact ⟨⟨g, b.val⟩, if_pos rfl, le_rfl⟩
    obtain ⟨x, hx, hle⟩ := h.highest g' k hold
    by_cases hplace : g' % retainedGenerations = g % retainedGenerations
    · refine ⟨⟨g, b.val⟩, if_pos hplace, ?_⟩
      have hlt := hlower x (hplace ▸ hx)
      show g' ≤ g
      omega
    · exact ⟨x, (if_neg hplace).trans hx, hle⟩
  · intro g' k hmem
    rcases List.mem_cons.1 hmem with heq | hold
    · cases heq
      exact Nat.le_max_right ..
    · exact Nat.le_trans (h.newest g' k hold) (Nat.le_max_left ..)
  · intro g' k k' hk hk'
    simp only [List.mem_cons, Prod.mk.injEq] at hk hk'
    rcases hk with hk | hk <;> rcases hk' with hk' | hk'
    · exact hk.2.trans hk'.2.symm
    · exact absurd hk' (hk.1 ▸ hnew k')
    · exact absurd hk (hk'.1 ▸ hnew k)
    · exact h.once g' k k' hk hk'
  · intro g' g'' k hk hk'
    simp only [List.mem_cons, Prod.mk.injEq] at hk hk'
    rcases hk with hk | hk <;> rcases hk' with hk' | hk'
    · exact hk.1.trans hk'.1.symm
    · exact absurd hk' (hk.2 ▸ hfresh g'')
    · exact absurd hk (hk'.2 ▸ hfresh g')
    · exact h.apart g' g'' k hk hk'
  intro g' k hk
  rcases List.mem_cons.1 hk with heq | hold
  · cases heq
    exact ⟨draws, Nat.lt_succ_self _, b, hb, rfl⟩
  obtain ⟨n, hn, hrest⟩ := h.random g' k hold
  exact ⟨n, Nat.lt_succ_of_lt hn, hrest⟩

theorem Record.later (h : Record P generations newest draws keyLength drawn) {n : Nat}
    (hn : draws ≤ n) : Record P generations newest n keyLength drawn := by
  refine ⟨h.ring, h.highest, h.newest, h.once, h.apart, ?_⟩
  intro g k hk
  obtain ⟨m, hm, hrest⟩ := h.random g k hk
  exact ⟨m, Nat.lt_of_lt_of_le hm hn, hrest⟩

end Record

/-! ## The calls -/

/-- Only the random source was asked. -/
def Drawn (s t : SharedTransmitKeySchedule) : Prop :=
  ∃ n, s.draws ≤ n ∧ t = { s with draws := n }

theorem generateLocked_spec (g : Nat) : Ensures (generateLocked P g) s
      (fun _ t => ∃ b, P.randomBytes s.draws s.keyLength = .ok b
        ∧ t = { s with draws := s.draws + 1 }.putGeneration g b.val)
      (fun _ t => Drawn s t) := by
  unfold generateLocked
  rw [ensures_get_bind, ensures_bind]
  unfold Ensures draw
  cases hb : P.randomBytes s.draws s.keyLength with
  | ok b => exact ⟨b, rfl, rfl⟩
  | error e => exact ⟨s.draws + 1, Nat.le_succ _, rfl⟩

/-- The schedule behind the origin: the frontier sequence is the one of the
frontier position, and no generation is more than one ahead of it. -/
structure Sound (P : CryptoProvider) (s : SharedTransmitKeySchedule)
    (drawn : List (Nat × Bytes)) : Prop where
  record : Record P s.generations s.newestGeneration s.draws s.keyLength drawn
  sequence : s.frontierSequence = s.origin.advanced s.frontierPosition
  bound : s.frontierPosition < 2 ^ 64
  refresh : 2 ≤ s.refreshRatePackets ∧ s.refreshRatePackets ≤ 2 ^ 30
  ahead : s.newestGeneration ≤ s.generationAt s.frontierPosition + 1
  size : s.initialized = true → minimumAesKeySize ≤ s.keyLength
  empty : s.initialized = false → ∀ p, s.generations p = none

theorem Sound.asked (h : Sound P s drawn) (hs : Drawn s t) : Sound P t drawn := by
  obtain ⟨n, hn, rfl⟩ := hs
  exact ⟨h.record.later hn, h.sequence, h.bound, h.refresh, h.ahead, h.size, h.empty⟩

theorem Sound.generationAt_lt (h : Sound P s drawn) {p : Nat} (hp : p < 2 ^ 64) :
    s.generationAt p < 2 ^ 63 := by
  have hrefresh := h.refresh.1
  unfold generationAt
  rw [Nat.div_lt_iff_lt_mul (by omega)]
  have hmul : 2 ^ 63 * 2 ≤ 2 ^ 63 * s.refreshRatePackets := Nat.mul_le_mul_left _ hrefresh
  omega

theorem generationAt_mono (s : SharedTransmitKeySchedule) {p q : Nat} (h : p ≤ q) :
    s.generationAt p ≤ s.generationAt q :=
  Nat.div_le_div_right h

theorem Sound.advance (h : Sound P s drawn) {position : Nat} (hle : s.frontierPosition ≤ position)
    (hbound : position < 2 ^ 64) : Sound P { s with
      frontierPosition := position
      frontierSequence := s.origin.advanced position } drawn := by
  refine ⟨h.record, rfl, hbound, h.refresh, ?_, h.size, h.empty⟩
  have hmono := s.generationAt_mono hle
  have hahead := h.ahead
  show s.newestGeneration ≤ s.generationAt position + 1
  omega

/-- What a call keeps: the layout stays and the frontier does not go back. -/
structure Follows (s t : SharedTransmitKeySchedule) : Prop where
  refresh : t.refreshRatePackets = s.refreshRatePackets
  origin : t.origin = s.origin
  frontier : s.frontierPosition ≤ t.frontierPosition

/-- A sequence near the frontier unwraps to its position. -/
theorem positionOf_spec (h : Sound P s drawn) {position : Nat} (hbound : position < 2 ^ 64)
    (hahead : position < s.frontierPosition + 2 ^ 30)
    (hbehind : s.frontierPosition ≤ position + 2 ^ 30) :
    Ensures (positionOf (s.origin.advanced position)) s
      (fun p t => p = position ∧ Follows s t ∧ position ≤ t.frontierPosition ∧ Sound P t drawn)
      (fun _ _ => False) := by
  have hdistance : (s.origin.advanced position).distanceFrom s.frontierSequence
      = (position : Int) - s.frontierPosition := by
    rw [h.sequence]
    exact s.origin.distanceFrom_advanced hbehind hahead
  unfold positionOf
  rw [ensures_get_bind, hdistance]
  dsimp only
  split
  · next hpos =>
    have hposition : (s.frontierPosition + ((position : Int) - s.frontierPosition).toNat) % 2 ^ 64
        = position := by omega
    rw [ensures_modify_bind, ensures_pure, hposition]
    have hle : s.frontierPosition ≤ position := by omega
    exact ⟨rfl, ⟨rfl, rfl, hle⟩, le_rfl, h.advance hle hbound⟩
  next hneg =>
  have hback :
      s.frontierPosition - (-((position : Int) - s.frontierPosition)).toNat = position := by
    omega
  rw [ensures_pure, hback]
  exact ⟨rfl, ⟨rfl, rfl, le_rfl⟩, by omega, h⟩

theorem Sound.put (hrandom : NeverRepeats P) (h : Sound P s drawn)
    (hsize : minimumAesKeySize ≤ s.keyLength) {b : { b : Bytes // b.length = s.keyLength }}
    (hb : P.randomBytes s.draws s.keyLength = .ok b)
    (hlower : ∀ x, s.generations (g % retainedGenerations) = some x → x.index < g)
    (hg : g ≤ s.generationAt s.frontierPosition + 1) (hinitialized : s.initialized = true) :
    Sound P ({ s with draws := s.draws + 1 }.putGeneration g b.val) ((g, b.val) :: drawn) := by
  refine ⟨h.record.put hrandom hsize hb hlower, h.sequence, h.bound, h.refresh, ?_, h.size, ?_⟩
  · have hahead := h.ahead
    show max s.newestGeneration g ≤ s.generationAt s.frontierPosition + 1
    omega
  intro hnot
  rw [show s.initialized = false from hnot] at hinitialized
  cases hinitialized

theorem holds_eq_false (h : ¬ s.holds g = true) :
    ∀ x, s.generations (g % retainedGenerations) = some x → x.index ≠ g := by
  rintro x hx rfl
  apply h
  unfold holds slot
  rw [hx]
  exact beq_self_eq_true _

theorem slot_putGeneration (s : SharedTransmitKeySchedule) (g : Nat) (key : Bytes) :
    (s.putGeneration g key).slot g = some ⟨g, key⟩ :=
  if_pos rfl

theorem holds_iff : s.holds g = true ↔ ∃ k, s.slot g = some ⟨g, k⟩ := by
  unfold holds
  cases hslot : s.slot g with
  | none => exact ⟨nofun, fun ⟨_, h⟩ => nomatch h⟩
  | some x =>
    obtain ⟨index, key⟩ := x
    rw [Option.any_some, beq_iff_eq]
    constructor
    · rintro rfl
      exact ⟨key, rfl⟩
    rintro ⟨k, h⟩
    cases h
    rfl

/-- Asked for a generation at most one ahead of the frontier, the schedule
answers with its one key or leaves everything. -/
theorem keyFor_spec (hrandom : NeverRepeats P) (h : Sound P s drawn) (size : Nat)
    (hg : g ≤ s.generationAt s.frontierPosition + 1) :
    Ensures (keyFor P g size) s
      (fun k t => Follows s t ∧ ∃ drawn', drawn ⊆ drawn' ∧ Sound P t drawn' ∧ (g, k) ∈ drawn')
      (fun _ t => Drawn s t) := by
  unfold keyFor
  rw [ensures_get_bind]
  split
  · exact ⟨s.draws, le_rfl, rfl⟩
  next hready =>
  obtain ⟨hinitialized, -⟩ := not_or.1 hready
  have hinitialized : s.initialized = true := by simpa using hinitialized
  unfold ensureRetained
  rw [ensures_bind, ensures_get_bind]
  split
  · next hholds =>
    obtain ⟨k, hk⟩ := holds_iff.1 hholds
    rw [ensures_pure, ensures_get_bind, hk]
    exact ⟨⟨rfl, rfl, le_rfl⟩, drawn, List.Subset.refl _, h, (h.record.ring _ _ hk).2⟩
  next hholds =>
  split
  · exact ⟨s.draws, le_rfl, rfl⟩
  next hrange =>
  have hlt := h.generationAt_lt h.bound
  have hnewest : s.newestGeneration < g + retainedGenerations := by
    unfold retainedGenerations at hrange ⊢
    omega
  refine (generateLocked_spec g).mono ?_ (fun _ _ ht => ht)
  rintro _ t ⟨b, hb, rfl⟩
  rw [ensures_get_bind, slot_putGeneration]
  exact ⟨⟨rfl, rfl, le_rfl⟩, _, List.subset_cons_self _ _, h.put hrandom (h.size hinitialized) hb
      (h.record.lower (holds_eq_false hholds) hnewest) hg hinitialized,
    List.mem_cons_self⟩

theorem advanceUnused_spec (hrandom : NeverRepeats P) (h : Sound P s drawn)
    (first : SequenceNumber) (packets : Nat) :
    Ensures (advanceUnused P first packets) s
      (fun _ t => Follows s t ∧ ∃ drawn', drawn ⊆ drawn' ∧ Sound P t drawn')
      (fun _ t => Drawn s t) := by
  unfold advanceUnused
  rw [ensures_get_bind]
  generalize hd : first.distanceFrom s.frontierSequence = distance
  dsimp only
  split
  · exact ⟨s.draws, le_rfl, rfl⟩
  next hready =>
  simp only [not_or] at hready
  obtain ⟨hinitialized, -, -, hforward⟩ := hready
  have hinitialized : s.initialized = true := by simpa using hinitialized
  split
  · exact ⟨s.draws, le_rfl, rfl⟩
  next hroom =>
  have hfirst : first.advanced packets
      = s.origin.advanced (s.frontierPosition + (distance.toNat + packets)) := by
    rw [← SequenceNumber.advanced_distanceFrom (s := first) (o := s.frontierSequence)
      (by omega), hd, h.sequence, SequenceNumber.advanced_advanced,
      SequenceNumber.advanced_advanced]
  have hle : s.frontierPosition ≤ s.frontierPosition + (distance.toNat + packets) := by omega
  have hbound : s.frontierPosition + (distance.toNat + packets) < 2 ^ 64 := by
    have := h.bound
    unfold maximumPosition at hroom
    omega
  generalize s.frontierPosition + (distance.toNat + packets) = position at *
  unfold ensureLive
  rw [hfirst, ensures_bind, ensures_get_bind]
  split
  · exact ⟨⟨rfl, rfl, hle⟩, drawn, List.Subset.refl _, h.advance hle hbound⟩
  next hholds =>
  refine (generateLocked_spec _).mono ?_ (fun _ _ ht => ht)
  rintro _ t ⟨b, hb, rfl⟩
  have hahead := h.ahead
  have hmono := s.generationAt_mono hle
  have hnewest : s.newestGeneration < s.generationAt position + retainedGenerations := by
    unfold retainedGenerations
    omega
  have hrecord := h.record.put hrandom (h.size hinitialized) hb
    (h.record.lower (holds_eq_false hholds) hnewest)
  refine ⟨⟨rfl, rfl, hle⟩, _, List.subset_cons_self _ _, hrecord, rfl, hbound, h.refresh, ?_,
    h.size, ?_⟩
  · show max s.newestGeneration (s.generationAt position) ≤ s.generationAt position + 1
    omega
  intro hnot
  rw [show s.initialized = false from hnot] at hinitialized
  cases hinitialized

theorem Sound.salted (h : Sound P s drawn) (salt : Bytes) : Sound P { s with salt } drawn :=
  ⟨h.record, h.sequence, h.bound, h.refresh, h.ahead, h.size, h.empty⟩

theorem draw_spec (size : Nat) :
    Ensures (draw P size) s (fun _ t => Drawn s t) (fun _ t => Drawn s t) := by
  unfold Ensures draw
  cases P.randomBytes s.draws size with
  | ok b => exact ⟨s.draws + 1, Nat.le_succ _, rfl⟩
  | error e => exact ⟨s.draws + 1, Nat.le_succ _, rfl⟩

theorem Drawn.follows (h : Drawn s t) : Follows s t := by
  obtain ⟨n, -, rfl⟩ := h
  exact ⟨rfl, rfl, le_rfl⟩

theorem initializeSchedule_spec (hrandom : NeverRepeats P) (h : Sound P s drawn) :
    Ensures (initializeSchedule P) s
      (fun _ t => Follows s t ∧ ∃ drawn', drawn ⊆ drawn' ∧ Sound P t drawn')
      (fun _ t => Follows s t ∧ Sound P t drawn) := by
  unfold initializeSchedule
  rw [ensures_get_bind]
  split
  · exact ⟨⟨rfl, rfl, le_rfl⟩, drawn, List.Subset.refl _, h⟩
  next hinitialized =>
  have hempty := h.empty (by simpa using hinitialized)
  split
  · exact ⟨⟨rfl, rfl, le_rfl⟩, h⟩
  next hconfigured =>
  simp only [not_or, Nat.not_lt] at hconfigured
  rw [ensures_bind]
  refine (draw_spec _).mono ?_ (fun _ _ ht => ⟨ht.follows, h.asked ht⟩)
  rintro salt _ ⟨n, hn, rfl⟩
  rw [ensures_modify_bind, ensures_bind, ensures_tryCatch]
  refine (generateLocked_spec 0).mono ?_ ?_
  · rintro _ t ⟨b, hb, rfl⟩
    have hrecord := (h.record.later hn).put hrandom hconfigured.1 hb (g := 0)
      (fun x hx => nomatch (hempty _).symm.trans hx)
    refine ⟨⟨rfl, rfl, le_rfl⟩, _, List.subset_cons_self _ _, hrecord, h.sequence,
      h.bound, h.refresh, ?_, fun _ => hconfigured.1, nofun⟩
    have hahead := h.ahead
    show max s.newestGeneration 0 ≤ s.generationAt s.frontierPosition + 1
    omega
  rintro e _ ⟨m, hm, rfl⟩
  rw [ensures_modify_bind, ensures_throw]
  exact ⟨⟨rfl, rfl, le_rfl⟩, (h.asked ⟨m, Nat.le_trans hn hm, rfl⟩).salted _⟩

end SharedTransmitKeySchedule

/-! ## What the group agrees on -/

namespace SharedGroup

open SharedTransmitKeySchedule

variable {P : CryptoProvider} {x y : SharedGroup} {drawn : List (Nat × Bytes)}

/-- The answers given so far come from the draws. -/
structure Agreed (P : CryptoProvider) (x : SharedGroup) (drawn : List (Nat × Bytes)) : Prop where
  sound : Sound P x.schedule drawn
  positions : ∀ p ∈ x.positions, p ≤ x.schedule.frontierPosition
  keys : x.keys ⊆ drawn

theorem sound_ofConfiguration (c : SharedScheduleConfiguration) :
    Sound P (.ofConfiguration c) [] where
  record := record_empty _ _ _
  sequence := c.origin.advanced_zero.symm
  bound := Nat.two_pow_pos 64
  refresh := by
    show 2 ≤ max 2 (min c.refreshRatePackets effectiveKeyRefreshCap)
      ∧ max 2 (min c.refreshRatePackets effectiveKeyRefreshCap) ≤ 2 ^ 30
    unfold effectiveKeyRefreshCap
    omega
  ahead := Nat.zero_le _
  size := nofun
  empty := fun _ _ => rfl

/-- The generations a member asks for are at most one ahead of the frontier. -/
theorem Agreed.generation_le (h : Agreed P x drawn) {size : Nat}
    (hcall : x.MemberCalls (.keyFor g size)) :
    g ≤ x.schedule.generationAt x.schedule.frontierPosition + 1 := by
  obtain ⟨p, hp, hg⟩ := hcall
  have hle : p ≤ x.schedule.frontierPosition := by
    rcases List.mem_cons.1 hp with rfl | hobtained
    · exact le_rfl
    · exact h.positions p hobtained
  have hmono := x.schedule.generationAt_mono hle
  omega

theorem Agreed.follow (h : Agreed P x drawn) {t : SharedTransmitKeySchedule}
    (hfollows : Follows x.schedule t) {drawn' : List (Nat × Bytes)} (hsub : drawn ⊆ drawn')
    (hsound : Sound P t drawn') : Agreed P { x with schedule := t } drawn' where
  sound := hsound
  positions := fun p hp => Nat.le_trans (h.positions p hp) hfollows.frontier
  keys := fun _ hk => hsub (h.keys hk)

theorem Agreed.returned {α : Type} {c : ScheduleM α} {note : α → SharedGroup → SharedGroup}
    {Q : α → SharedTransmitKeySchedule → List (Nat × Bytes) → Prop} (h : Agreed P x drawn)
    (hspec : Ensures c x.schedule (fun a t => Follows x.schedule t ∧ ∃ drawn', drawn ⊆ drawn' ∧
      Sound P t drawn' ∧ Q a t drawn') (fun _ t => Follows x.schedule t ∧ Sound P t drawn))
    (hnote : ∀ a y drawn', Agreed P y drawn' → Q a y.schedule drawn' → Agreed P (note a y) drawn') :
    ∃ drawn', drawn ⊆ drawn' ∧ Agreed P (x.returned note (c x.schedule)) drawn' := by
  obtain ⟨a, t, hrun, hfollows, drawn', hsub, hsound, hq⟩ | ⟨e, t, hrun, hfollows, hsound⟩ :=
    hspec.cases
  · rw [hrun]
    exact ⟨drawn', hsub, hnote a _ drawn' (h.follow hfollows hsub hsound) hq⟩
  rw [hrun]
  exact ⟨drawn, List.Subset.refl _, h.follow hfollows (List.Subset.refl _) hsound⟩

theorem Agreed.after (hrandom : NeverRepeats P) (h : Agreed P x drawn) (c : SharedCall)
    (hcall : x.MemberCalls c) : ∃ drawn', drawn ⊆ drawn' ∧ Agreed P (x.after P c) drawn' := by
  cases c with
  | initializeSchedule =>
    refine h.returned (Q := fun _ _ _ => True) ?_ (fun _ _ _ hagreed _ => hagreed)
    refine (initializeSchedule_spec hrandom h.sound).mono ?_ (fun _ _ he => he)
    rintro _ t ⟨hfollows, drawn', hsub, hsound⟩
    exact ⟨hfollows, drawn', hsub, hsound, trivial⟩
  | positionOf position =>
    refine h.returned (Q := fun p t _ => p ≤ t.frontierPosition) ?_ ?_
    · refine (positionOf_spec h.sound hcall.1 hcall.2.1 hcall.2.2).mono ?_ (fun _ _ he => he.elim)
      rintro _ t ⟨rfl, hfollows, hle, hsound⟩
      exact ⟨hfollows, drawn, List.Subset.refl _, hsound, hle⟩
    intro p y drawn' hagreed hle
    exact ⟨hagreed.sound, List.forall_mem_cons.2 ⟨hle, hagreed.positions⟩, hagreed.keys⟩
  | keyFor g size =>
    refine h.returned (Q := fun k _ drawn' => (g, k) ∈ drawn') ?_ ?_
    · exact (keyFor_spec hrandom h.sound size (h.generation_le hcall)).mono (fun _ _ ht => ht)
        (fun _ _ ht => ⟨ht.follows, h.sound.asked ht⟩)
    intro k y drawn' hagreed hmem
    exact ⟨hagreed.sound, hagreed.positions, List.cons_subset.2 ⟨hmem, hagreed.keys⟩⟩
  | advanceUnused first packets =>
    refine h.returned (Q := fun _ _ _ => True) ?_ (fun _ _ _ hagreed _ => hagreed)
    refine (advanceUnused_spec hrandom h.sound first packets).mono ?_
      (fun _ _ ht => ⟨ht.follows, h.sound.asked ht⟩)
    rintro _ t ⟨hfollows, drawn', hsub, hsound⟩
    exact ⟨hfollows, drawn', hsub, hsound, trivial⟩

theorem Agreed.run (hrandom : NeverRepeats P) (h : Agreed P x drawn)
    (hy : Lts.Reaches (runsFrom P x) MemberCalls y) :
    ∃ drawn', drawn ⊆ drawn' ∧ Agreed P y drawn' := by
  refine hy.invariant (I := fun y => ∃ drawn', drawn ⊆ drawn' ∧ Agreed P y drawn') ?_ ?_
  · rintro _ rfl
    exact ⟨drawn, List.Subset.refl _, h⟩
  rintro y c _ - ⟨drawn', hsub, hagreed⟩ hcall rfl
  obtain ⟨drawn'', hsub', hafter⟩ := hagreed.after hrandom c hcall
  exact ⟨drawn'', List.Subset.trans hsub hsub', hafter⟩

theorem agreed_of_reaches (hrandom : NeverRepeats P)
    (hx : Lts.Reaches (runs P) MemberCalls x) : ∃ drawn, Agreed P x drawn := by
  refine hx.invariant (I := fun x => ∃ drawn, Agreed P x drawn) ?_ ?_
  · rintro _ ⟨c, rfl⟩
    exact ⟨[], sound_ofConfiguration c, nofun, nofun⟩
  rintro x c _ - ⟨drawn, hagreed⟩ hcall rfl
  obtain ⟨drawn', -, hafter⟩ := hagreed.after hrandom c hcall
  exact ⟨drawn', hafter⟩

/-- A key that was in the ring and is not any more is behind the newest by the
size of the ring. -/
theorem Agreed.overwritten (h : Agreed P x drawn)
    (hover : ∃ g' k, (g', k) ∈ drawn ∧ g < g' ∧ g' % retainedGenerations = g % retainedGenerations)
    (size : Nat) : ∃ e, keyFor P g size x.schedule = .error e x.schedule := by
  obtain ⟨g', k, hmem, hlt, hplace⟩ := hover
  obtain ⟨held, hheld, hle⟩ := h.sound.record.highest g' k hmem
  have hnewest := h.sound.record.newest g' k hmem
  have hahead := h.sound.ahead
  have hbound := h.sound.generationAt_lt h.sound.bound
  have hholds : x.schedule.holds g = false := by
    unfold holds slot
    rw [← hplace, hheld, Option.any_some, beq_eq_false_iff_ne]
    omega
  have hbehind : (g + retainedGenerations) % 2 ^ 64 ≤ x.schedule.newestGeneration := by
    unfold retainedGenerations at hplace ⊢
    omega
  have hrefused : Ensures (keyFor P g size) x.schedule (fun _ _ => False)
      (fun _ t => t = x.schedule) := by
    unfold keyFor
    rw [ensures_get_bind]
    split
    · rfl
    unfold ensureRetained
    rw [ensures_bind, ensures_get_bind, if_neg (by simp [hholds]), if_pos (.inr hbehind)]
    rfl
  obtain ⟨_, _, _, hnever⟩ | ⟨e, t, hrun, rfl⟩ := hrefused.cases
  · exact hnever.elim
  · exact ⟨e, hrun⟩

/-- A place that lost `g` holds a later generation. -/
theorem Agreed.lost (h : Agreed P x drawn) {k : Bytes} (hk : (g, k) ∈ drawn)
    (hholds : x.schedule.holds g = false) :
    ∃ g' k, (g', k) ∈ drawn ∧ g < g' ∧ g' % retainedGenerations = g % retainedGenerations := by
  obtain ⟨held, hheld, hle⟩ := h.sound.record.highest g k hk
  obtain ⟨hplace, hmem⟩ := h.sound.record.ring _ held hheld
  have hne := holds_eq_false (Bool.eq_false_iff.1 hholds) held hheld
  exact ⟨held.index, held.key, hmem, by omega, hplace⟩

/-- The members agree on positions and on one key for each generation; a key
the ring lost is refused for good, a key is never under two positions of one
sequence number, and a call that fails changes nothing. -/
theorem group_shares_one_key_schedule (hrandom : NeverRepeats P)
    (hx : Lts.Reaches (runs P) MemberCalls x) :
    (∀ position, x.Near position →
        ∃ t, positionOf (x.schedule.origin.advanced position) x.schedule = .ok position t)
      ∧ (∀ g g' k k', (g, k) ∈ x.keys → (g', k') ∈ x.keys → (g = g' ↔ k = k'))
      ∧ (∀ g k, x.schedule.slot g = some ⟨g, k⟩ →
        ∀ y, Lts.Reaches (runsFrom P x) MemberCalls y → y.schedule.holds g = false →
          ∀ z, Lts.Reaches (runsFrom P y) MemberCalls z →
            ∀ size, ∃ e, keyFor P g size z.schedule = .error e z.schedule)
      ∧ (∀ k p p', (x.schedule.generationAt p, k) ∈ x.keys →
        (x.schedule.generationAt p', k) ∈ x.keys →
        x.schedule.origin.advanced p = x.schedule.origin.advanced p' → p = p')
      ∧ (∀ g size e t, x.MemberCalls (.keyFor g size) →
        keyFor P g size x.schedule = .error e t → t = { x.schedule with draws := t.draws })
      ∧ ∀ first packets e t, advanceUnused P first packets x.schedule = .error e t →
        t = { x.schedule with draws := t.draws } := by
  obtain ⟨drawn, h⟩ := agreed_of_reaches hrandom hx
  have hagree : ∀ g g' k k', (g, k) ∈ x.keys → (g', k') ∈ x.keys → (g = g' ↔ k = k') := by
    intro g g' k k' hk hk'
    constructor
    · rintro rfl
      exact h.sound.record.once g k k' (h.keys hk) (h.keys hk')
    rintro rfl
    exact h.sound.record.apart g g' k (h.keys hk) (h.keys hk')
  refine ⟨?_, hagree, ?_, ?_, ?_, ?_⟩
  · intro position hnear
    obtain ⟨_, t, hrun, rfl, -⟩ | ⟨_, _, _, hnever⟩ :=
      (positionOf_spec h.sound hnear.1 hnear.2.1 hnear.2.2).cases
    · exact ⟨t, hrun⟩
    · exact hnever.elim
  · intro g k hslot y hy hlost z hz size
    obtain ⟨drawn', hsub, hagreed⟩ := h.run hrandom hy
    obtain ⟨g', k', hmem, hlt, hplace⟩ :=
      hagreed.lost (hsub (h.sound.record.ring _ _ hslot).2) hlost
    obtain ⟨drawn'', hsub', hagreed'⟩ := hagreed.run hrandom hz
    exact hagreed'.overwritten ⟨g', k', hsub' hmem, hlt, hplace⟩ size
  · intro k p p' hk hk' hsequence
    -- one key is one generation, and a generation is shorter than the sequence space
    have hgeneration := (hagree _ _ k k hk hk').2 rfl
    have hrefresh := h.sound.refresh
    rw [SequenceNumber.advanced_inj_iff] at hsequence
    unfold generationAt at hgeneration
    have hp := Nat.div_add_mod p x.schedule.refreshRatePackets
    have hp' := Nat.div_add_mod p' x.schedule.refreshRatePackets
    have hmod := Nat.mod_lt p (show 0 < x.schedule.refreshRatePackets by omega)
    have hmod' := Nat.mod_lt p' (show 0 < x.schedule.refreshRatePackets by omega)
    rw [hgeneration] at hp
    omega
  · intro g size e t hcall hrun
    have hspec := keyFor_spec hrandom h.sound size (h.generation_le hcall)
    unfold Ensures at hspec
    rw [hrun] at hspec
    obtain ⟨n, -, rfl⟩ := hspec
    rfl
  intro first packets e t hrun
  have hspec := advanceUnused_spec hrandom h.sound first packets
  unfold Ensures at hspec
  rw [hrun] at hspec
  obtain ⟨n, -, rfl⟩ := hspec
  rfl

theorem exampleProvider_neverRepeats : NeverRepeats (CryptoSession.exampleProvider []) := by
  intro i j n a b hn ha hb heq
  refine exampleProvider_randomBytes_inj ?_ ha hb heq
  unfold minimumAesKeySize at hn
  omega

def exampleGroup : SharedGroup :=
  { schedule := .ofConfiguration { refreshRatePackets := 2 } }

/-- A group that draws the key of generation 0. -/
def firstKey : SharedGroup :=
  [SharedCall.initializeSchedule, .keyFor 0 16].foldl (after (CryptoSession.exampleProvider []))
    exampleGroup

/-- A span of eight packets was given up, which puts generation 4 in the place
of generation 0. -/
def skippedAhead : SharedGroup :=
  firstKey.after (CryptoSession.exampleProvider []) (.advanceUnused ⟨0, by decide⟩ 8)

theorem group_shares_one_key_schedule_skippedAhead :
    (0, List.replicate 16 1) ∈ firstKey.keys
      ∧ ∀ size, ∃ e, keyFor (CryptoSession.exampleProvider []) 0 size skippedAhead.schedule
        = .error e skippedAhead.schedule := by
  have hstart : Lts.Reaches (runs (CryptoSession.exampleProvider [])) MemberCalls exampleGroup :=
    .start ⟨{ refreshRatePackets := 2 }, rfl⟩
  have hfirst : Lts.Reaches (runs (CryptoSession.exampleProvider [])) MemberCalls firstKey :=
    Lts.Reaches.foldl hstart ⟨trivial, ⟨0, List.mem_cons_self, .inl rfl⟩, trivial⟩
  have hskipped : Lts.Reaches (runsFrom (CryptoSession.exampleProvider []) firstKey) MemberCalls
      skippedAhead :=
    .next (e := .advanceUnused ⟨0, by decide⟩ 8) (.start rfl) trivial rfl
  obtain ⟨-, -, hlost, -⟩ := group_shares_one_key_schedule exampleProvider_neverRepeats hfirst
  exact ⟨by decide +kernel, hlost 0 (List.replicate 16 1) (by decide +kernel) skippedAhead hskipped
    (by decide +kernel) skippedAhead (.start rfl)⟩

/-- Half the sequence space ahead a packet is taken for one behind. -/
theorem position_at_half_range_misread :
    Lts.Reaches (runs (CryptoSession.exampleProvider [])) MemberCalls exampleGroup
      ∧ exampleGroup.schedule.frontierPosition = 0
      ∧ ∃ t, positionOf (exampleGroup.schedule.origin.advanced (2 ^ 30)) exampleGroup.schedule
        = .ok 0 t := by
  refine ⟨.start ⟨{ refreshRatePackets := 2 }, rfl⟩, rfl, exampleGroup.schedule, ?_⟩
  have hdistance : (exampleGroup.schedule.origin.advanced (2 ^ 30)).distanceFrom
      exampleGroup.schedule.frontierSequence = -2 ^ 30 := by decide +kernel
  have hrun : Ensures (positionOf (exampleGroup.schedule.origin.advanced (2 ^ 30)))
      exampleGroup.schedule (fun p t => p = 0 ∧ t = exampleGroup.schedule) (fun _ _ => False) := by
    unfold positionOf
    rw [ensures_get_bind, hdistance]
    exact ⟨rfl, rfl⟩
  obtain ⟨_, _, heq, rfl, rfl⟩ | ⟨_, _, _, hnever⟩ := hrun.cases
  · exact heq
  · exact hnever.elim

end SharedGroup

end Srt
