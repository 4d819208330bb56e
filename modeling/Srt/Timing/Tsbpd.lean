/-
# `Tsbpd` — delivery times from wrapped timestamps

`TsbpdClock` of `src/timing.cpp` with the `DriftSampler` of `src/live.cpp` it
feeds.  A packet carries the low 32 bits of its source time; the clock reads
them next to the latest time it has seen.  Drift corrections move a target, and
the drift that is applied follows it by at most a thousandth of the source time
that passes.

A sum of 64-bit times is reduced once, as `int64` of the exact value: the
reductions inside it do not change the result.  Left out is the clock that group
members share, which calls the same functions under a lock.
-/
import Srt.Packet
import Mathlib.Data.UInt
import Mathlib.Tactic.Linarith

namespace Srt

/-- The `std::int64_t` with the low 64 bits of `x`. -/
def int64 (x : Int) : Int :=
  x.bmod (2 ^ 64)

theorem int64_eq {x : Int} (hlow : -2 ^ 63 ≤ x) (hhigh : x < 2 ^ 63) : int64 x = x :=
  Int.bmod_eq_of_le (by simpa using hlow) (by simpa using hhigh)

structure DriftUpdate where
  windowComplete : Bool := false
  correction : Int := 0
  residualDrift : Int := 0
  deriving DecidableEq, Repr

structure DriftSampler where
  samplesPerWindow : Nat := 1000
  maximumCorrection : Int := 5000
  samples : Nat := 0
  sum : Int := 0
  estimatedDrift : Int := 0
  residualDrift : Int := 0
  deriving DecidableEq, Repr

def DriftSampler.observe (s : DriftSampler) (drift : Int) : DriftUpdate × DriftSampler :=
  if s.samples + 1 < s.samplesPerWindow then
    ({ residualDrift := s.residualDrift },
      { s with sum := int64 (s.sum + drift), samples := s.samples + 1 })
  else
    let observed := (int64 (s.sum + drift)).tdiv (s.samples + 1 : Nat)
    let correction :=
      max (-s.maximumCorrection) (min s.maximumCorrection (int64 (observed - s.estimatedDrift)))
    let estimated := int64 (s.estimatedDrift + correction)
    let residual := int64 (observed - estimated)
    ({ windowComplete := true, correction, residualDrift := residual },
      { s with samples := 0, sum := 0, estimatedDrift := estimated, residualDrift := residual })

structure TsbpdClock where
  timeBase : Int
  latestUnwrapped : Nat
  lastSlew : Nat
  delay : Nat
  targetDrift : Int := 0
  appliedDrift : Int := 0
  slewRemainder : Nat := 0
  driftSampler : DriftSampler := {}
  firstRoundTripTime : Option Nat := none
  deriving DecidableEq, Repr

namespace TsbpdClock

def maximumTsbpdSlew : Nat := 1000

def partsPerMillion : Nat := 1000000

/-- The constructor. -/
def make (handshakeArrival : Nat) (handshakeTimestamp : PacketTimestamp) (delay : Nat) :
    TsbpdClock :=
  { timeBase := int64 ((handshakeArrival : Int) - handshakeTimestamp.value.toNat)
    latestUnwrapped := handshakeTimestamp.value.toNat
    lastSlew := handshakeTimestamp.value.toNat
    delay }

/-- `project`: the signed 32-bit distance from the latest time. -/
def project (c : TsbpdClock) (timestamp : PacketTimestamp) : Nat :=
  (int64 ((c.latestUnwrapped : Int)
    + ((timestamp.value.toNat : Int) - c.latestUnwrapped).bmod (2 ^ 32))).toNat

def unwrap (c : TsbpdClock) (timestamp : PacketTimestamp) : Nat × TsbpdClock :=
  (c.project timestamp, { c with latestUnwrapped := max c.latestUnwrapped (c.project timestamp) })

/-- One step of the applied drift towards its target. -/
def slewed (applied target : Int) (budget : Nat) : Int :=
  let difference := int64 (target - applied)
  let step := int64 (min budget difference.natAbs : Nat)
  int64 (applied + if difference < 0 then -step else step)

def advanceAppliedDrift (c : TsbpdClock) (unwrapped : Nat) : TsbpdClock :=
  if unwrapped ≤ c.lastSlew then c
  else if c.appliedDrift = c.targetDrift then
    { c with lastSlew := unwrapped, slewRemainder := 0 }
  else
    let scaled := ((unwrapped - c.lastSlew) * maximumTsbpdSlew + c.slewRemainder) % 2 ^ 64
    let budget := scaled / partsPerMillion
    let remainder := scaled % partsPerMillion
    if budget = 0 then { c with lastSlew := unwrapped, slewRemainder := remainder }
    else
      let applied := slewed c.appliedDrift c.targetDrift budget
      { c with
        lastSlew := unwrapped
        slewRemainder := if applied = c.targetDrift then 0 else remainder
        appliedDrift := applied }

/-- The delivery time of a packet whose source time was read as `unwrapped`. -/
def deliveryAt (c : TsbpdClock) (unwrapped : Nat) : Nat :=
  (int64 (c.timeBase + unwrapped + c.delay + c.appliedDrift)).toNat

def deliveryTime (c : TsbpdClock) (timestamp : PacketTimestamp) : Nat × TsbpdClock :=
  let unwrapped := c.unwrap timestamp
  let c := unwrapped.2.advanceAppliedDrift unwrapped.1
  (c.deliveryAt unwrapped.1, c)

def controlDeliveryTime (c : TsbpdClock) (timestamp : PacketTimestamp) : Nat :=
  c.deliveryAt (c.project timestamp)

def observeArrival (c : TsbpdClock) (timestamp : PacketTimestamp) (arrival : Nat)
    (roundTripTime : Option Nat) (advanceEpoch : Bool := true) : DriftUpdate × TsbpdClock :=
  let c := { c with firstRoundTripTime := c.firstRoundTripTime <|> roundTripTime }
  -- a control packet keeps an idle connection on the local elapsed time
  let c :=
    if advanceEpoch then c
    else { c with
      latestUnwrapped := max c.latestUnwrapped
        (int64 ((arrival : Int) - c.timeBase - c.appliedDrift)).toNat }
  let unwrapped := c.project timestamp
  let c := if advanceEpoch then (c.unwrap timestamp).2 else c
  let rttDelta :=
    match roundTripTime, c.firstRoundTripTime with
    | some rtt, some first => ((rtt : Int) - first).tdiv 2
    | _, _ => 0
  let observed := c.driftSampler.observe (int64 (arrival - (c.timeBase + unwrapped + rttDelta)))
  (observed.1, { c with
    driftSampler := observed.2
    targetDrift :=
      if observed.1.windowComplete then int64 (c.targetDrift + observed.1.correction)
      else c.targetDrift })

/-! ## Wraps -/

/-- The timestamp of a packet sent at source time `t`. -/
def stamp (t : Int) : PacketTimestamp :=
  ⟨UInt32.ofNat (t % 2 ^ 32).toNat⟩

theorem toNat_stamp (t : Int) : ((stamp t).value.toNat : Int) = t % 2 ^ 32 := by
  have hnonneg : 0 ≤ t % 2 ^ 32 := Int.emod_nonneg _ (by decide)
  have hlt : t % 2 ^ 32 < 2 ^ 32 := Int.emod_lt_of_pos _ (by decide)
  unfold stamp
  rw [UInt32.toNat_ofNat', Nat.mod_eq_of_lt (by omega), Int.toNat_of_nonneg hnonneg]

/-- Near the latest time the low bits determine the whole time. -/
theorem project_stamp {c : TsbpdClock} {t : Int} (hlow : (c.latestUnwrapped : Int) - t < 2 ^ 31)
    (hhigh : t - c.latestUnwrapped < 2 ^ 31) (hfits : t < 2 ^ 63) :
    c.project (stamp t) = t.toNat := by
  have hbmod : ((stamp t).value.toNat - (c.latestUnwrapped : Int)).bmod (2 ^ 32)
      = t - c.latestUnwrapped := by
    rw [toNat_stamp, Int.bmod_def]
    omega
  unfold project
  rw [hbmod, int64_eq (by omega) (by omega)]
  congr 1
  omega

/-! ## Slew -/

/-- A step towards the target that does not pass it. -/
def Towards (applied applied' target : Int) : Prop :=
  (applied ≤ applied' ∧ applied' ≤ target) ∨ (target ≤ applied' ∧ applied' ≤ applied)

/-- Bounds of the drift after `n` calls, none of which corrects it by more than 5 ms. -/
structure Drifts (n : Nat) (c : TsbpdClock) : Prop where
  target : c.targetDrift.natAbs ≤ 5000 * n
  applied : c.appliedDrift.natAbs ≤ 5000 * n
  sampler : c.driftSampler.maximumCorrection = 5000

/-- Short of an overflow the step stays within the budget. -/
theorem slewed_spec {applied target : Int} {m : Nat} (happlied : applied.natAbs ≤ m)
    (htarget : target.natAbs ≤ m) (hm : 2 * m < 2 ^ 63) (budget : Nat) :
    (slewed applied target budget - applied).natAbs ≤ budget
      ∧ Towards applied (slewed applied target budget) target := by
  have hdifference : int64 (target - applied) = target - applied :=
    int64_eq (by omega) (by omega)
  have hstep : int64 (min budget (target - applied).natAbs : Nat)
      = (min budget (target - applied).natAbs : Nat) := int64_eq (by omega) (by omega)
  unfold slewed Towards
  simp only [hdifference, hstep]
  split <;> rw [int64_eq (by omega) (by omega)] <;> omega

/-- What the source time between two states pays for. -/
structure Slews (c c' : TsbpdClock) : Prop where
  timeBase : c'.timeBase = c.timeBase
  delay : c'.delay = c.delay
  lastSlew : c.lastSlew ≤ c'.lastSlew
  budget : (c'.appliedDrift - c.appliedDrift).natAbs * partsPerMillion + c'.slewRemainder
    ≤ (c'.lastSlew - c.lastSlew) * maximumTsbpdSlew + c.slewRemainder

variable {c c' c'' : TsbpdClock}

/-- Neither the slew nor what it is measured by has changed. -/
theorem Slews.of_eq (htimeBase : c'.timeBase = c.timeBase) (hdelay : c'.delay = c.delay)
    (hlast : c'.lastSlew = c.lastSlew) (happlied : c'.appliedDrift = c.appliedDrift)
    (hremainder : c'.slewRemainder = c.slewRemainder) : Slews c c' := by
  refine ⟨htimeBase, hdelay, hlast.ge, ?_⟩
  rw [happlied, hremainder, Int.sub_self, Int.natAbs_zero, Nat.zero_mul]
  exact Nat.add_le_add_right (Nat.zero_le _) _

theorem Slews.trans (h : Slews c c') (h' : Slews c' c'') : Slews c c'' := by
  refine ⟨h'.timeBase.trans h.timeBase, h'.delay.trans h.delay, h.lastSlew.trans h'.lastSlew, ?_⟩
  have hmoved : (c''.appliedDrift - c.appliedDrift).natAbs ≤
      (c'.appliedDrift - c.appliedDrift).natAbs + (c''.appliedDrift - c'.appliedDrift).natAbs := by
    omega
  have hspent := Nat.mul_le_mul_right partsPerMillion hmoved
  have helapsed : c''.lastSlew - c.lastSlew
      = (c'.lastSlew - c.lastSlew) + (c''.lastSlew - c'.lastSlew) := by
    have h1 := h.lastSlew
    have h2 := h'.lastSlew
    omega
  have h1 := h.budget
  have h2 := h'.budget
  rw [Nat.add_mul] at hspent
  rw [helapsed, Nat.add_mul]
  omega

section

variable {n : Nat} (h : Drifts n c) (hn : 10000 * n < 2 ^ 63) (unwrapped : Nat)

include h hn in
theorem slews_advanceAppliedDrift : Slews c (c.advanceAppliedDrift unwrapped) := by
  unfold advanceAppliedDrift
  split
  · exact .of_eq rfl rfl rfl rfl rfl
  next hlt =>
  have hle : c.lastSlew ≤ unwrapped := by omega
  split
  · exact ⟨rfl, rfl, hle, by simp⟩
  simp only
  -- a wrap of the scaled budget only makes it smaller
  have hwrap := Nat.mod_le
    ((unwrapped - c.lastSlew) * maximumTsbpdSlew + c.slewRemainder) (2 ^ 64)
  generalize ((unwrapped - c.lastSlew) * maximumTsbpdSlew + c.slewRemainder) % 2 ^ 64 = scaled
    at hwrap ⊢
  have hdiv := Nat.div_add_mod scaled partsPerMillion
  split
  · refine ⟨rfl, rfl, hle, ?_⟩
    simp only [Int.sub_self, Int.natAbs_zero, Nat.zero_mul, Nat.zero_add]
    exact (Nat.mod_le _ _).trans hwrap
  obtain ⟨hstep, -⟩ := slewed_spec h.applied h.target (by omega) (scaled / partsPerMillion)
  refine ⟨rfl, rfl, hle, ?_⟩
  simp only
  have hreset : (if slewed c.appliedDrift c.targetDrift (scaled / partsPerMillion)
      = c.targetDrift then 0 else scaled % partsPerMillion) ≤ scaled % partsPerMillion := by
    split
    · exact Nat.zero_le _
    · exact le_rfl
  unfold partsPerMillion at *
  omega

theorem advanceAppliedDrift_frame (c : TsbpdClock) (unwrapped : Nat) :
    (c.advanceAppliedDrift unwrapped).lastSlew = max c.lastSlew unwrapped
      ∧ (c.advanceAppliedDrift unwrapped).latestUnwrapped = c.latestUnwrapped
      ∧ (c.advanceAppliedDrift unwrapped).targetDrift = c.targetDrift
      ∧ (c.advanceAppliedDrift unwrapped).driftSampler = c.driftSampler := by
  unfold advanceAppliedDrift
  split
  · exact ⟨by omega, rfl, rfl, rfl⟩
  next hlt =>
  have hmax : unwrapped = max c.lastSlew unwrapped := by omega
  split
  · exact ⟨hmax, rfl, rfl, rfl⟩
  simp only
  split <;> exact ⟨hmax, rfl, rfl, rfl⟩

include h hn in
theorem towards_advanceAppliedDrift :
    Towards c.appliedDrift (c.advanceAppliedDrift unwrapped).appliedDrift c.targetDrift := by
  have hstay : Towards c.appliedDrift c.appliedDrift c.targetDrift := by
    unfold Towards
    omega
  unfold advanceAppliedDrift
  split
  · exact hstay
  split
  · exact hstay
  simp only
  split
  · exact hstay
  · exact (slewed_spec h.applied h.target (by omega) _).2

end

theorem slewRemainder_lt (h : c.slewRemainder < partsPerMillion) (unwrapped : Nat) :
    (c.advanceAppliedDrift unwrapped).slewRemainder < partsPerMillion := by
  have hpos : 0 < partsPerMillion := by decide
  unfold advanceAppliedDrift
  split
  · exact h
  split
  · exact hpos
  simp only
  split
  · exact Nat.mod_lt _ hpos
  split
  · exact hpos
  · exact Nat.mod_lt _ hpos

/-! ## Runs -/

/-- The calls of a run, with the true source time of their packet. -/
inductive Event
  | deliver (time : Int)
  | observe (time : Int) (arrival : Nat) (roundTripTime : Option Nat)
  deriving DecidableEq, Repr

def Event.time : Event → Int
  | .deliver t => t
  | .observe t _ _ => t

def step (c : TsbpdClock) : Event → TsbpdClock
  | .deliver t => (c.deliveryTime (stamp t)).2
  | .observe t arrival roundTripTime => (c.observeArrival (stamp t) arrival roundTripTime).2

def run (c : TsbpdClock) (es : List Event) : TsbpdClock :=
  es.foldl step c

/-- The largest time seen. -/
def seen (latest : Int) (es : List Event) : Int :=
  es.foldl (fun m e => max m e.time) latest

/-- Each time lies within 2^31 - 1 of the largest one seen before it. -/
def Near : Int → List Event → Prop
  | _, [] => True
  | latest, e :: es => |e.time - latest| ≤ 2 ^ 31 - 1 ∧ Near (max latest e.time) es

theorem near_append {latest : Int} {es fs : List Event} :
    Near latest (es ++ fs) ↔ Near latest es ∧ Near (seen latest es) fs := by
  induction es generalizing latest with
  | nil => exact ⟨fun h => ⟨trivial, h⟩, fun h => h.2⟩
  | cons e es ih =>
    show _ ∧ Near _ (es ++ fs) ↔ (_ ∧ Near _ es) ∧ Near (seen _ es) fs
    rw [ih, and_assoc]

/-- What a step does to what it reads the timestamps by. -/
theorem latestUnwrapped_step (c : TsbpdClock) (e : Event) :
    (c.step e).latestUnwrapped = max c.latestUnwrapped (c.project (stamp e.time)) := by
  cases e with
  | deliver t => exact (advanceAppliedDrift_frame _ _).2.1
  | observe t arrival roundTripTime => rfl

section

variable {n : Nat} (h : Drifts n c)
include h

theorem Drifts.unwrap (timestamp : PacketTimestamp) : Drifts n (c.unwrap timestamp).2 :=
  ⟨h.target, h.applied, h.sampler⟩

theorem slews_step (hn : 10000 * n < 2 ^ 63) (e : Event) : Slews c (c.step e) := by
  cases e with
  | deliver t =>
    have hunwrap : Slews c (c.unwrap (stamp t)).2 := .of_eq rfl rfl rfl rfl rfl
    exact hunwrap.trans (slews_advanceAppliedDrift (h.unwrap _) hn _)
  | observe t arrival roundTripTime => exact .of_eq rfl rfl rfl rfl rfl

theorem towards_step (hn : 10000 * n < 2 ^ 63) (e : Event) :
    Towards c.appliedDrift (c.step e).appliedDrift c.targetDrift := by
  cases e with
  | deliver t => exact towards_advanceAppliedDrift (h.unwrap _) hn _
  | observe t arrival roundTripTime =>
    show Towards c.appliedDrift c.appliedDrift c.targetDrift
    unfold Towards
    omega

end

/-- A window that closes corrects by no more than the maximum. -/
theorem observe_correction {s : DriftSampler} (h : s.maximumCorrection = 5000) (drift : Int) :
    (s.observe drift).1.correction.natAbs ≤ 5000
      ∧ (s.observe drift).2.maximumCorrection = 5000 := by
  unfold DriftSampler.observe
  split
  · exact ⟨Nat.zero_le _, h⟩
  refine ⟨?_, h⟩
  simp only [h]
  omega

theorem Drifts.step {n : Nat} (h : Drifts n c) (hn : 10000 * (n + 1) < 2 ^ 63) (e : Event) :
    Drifts (n + 1) (c.step e) := by
  have hmoved := towards_step h (by omega) e
  have htarget := h.target
  have happlied := h.applied
  have hbound : (c.step e).appliedDrift.natAbs ≤ 5000 * (n + 1) := by
    unfold Towards at hmoved
    omega
  cases e with
  | deliver t =>
    obtain ⟨-, -, hsame, hsampler⟩ :=
      advanceAppliedDrift_frame (c.unwrap (stamp t)).2 (c.unwrap (stamp t)).1
    refine ⟨?_, hbound, (congrArg _ hsampler).trans h.sampler⟩
    have hkept : (c.step (.deliver t)).targetDrift = c.targetDrift := hsame
    omega
  | observe t arrival roundTripTime =>
    have hobserved := observe_correction h.sampler
    refine ⟨?_, hbound, (hobserved _).2⟩
    obtain ⟨drift, hdrift⟩ : ∃ drift, (c.step (.observe t arrival roundTripTime)).targetDrift
        = if (c.driftSampler.observe drift).1.windowComplete then
            int64 (c.targetDrift + (c.driftSampler.observe drift).1.correction)
          else c.targetDrift := ⟨_, rfl⟩
    have hcorrection := (hobserved drift).1
    rw [hdrift]
    split
    · rw [int64_eq (by omega) (by omega)]
      omega
    · omega

theorem slewRemainder_step (h : c.slewRemainder < partsPerMillion) (e : Event) :
    (c.step e).slewRemainder < partsPerMillion := by
  cases e with
  | deliver t => exact slewRemainder_lt (c := (c.unwrap (stamp t)).2) h _
  | observe t arrival roundTripTime => exact h

theorem slews_run {n : Nat} {es : List Event} (h : Drifts n c)
    (hn : 10000 * (n + es.length) < 2 ^ 63) : Slews c (c.run es) := by
  induction es generalizing c n with
  | nil => exact .of_eq rfl rfl rfl rfl rfl
  | cons e es ih =>
    rw [List.length_cons] at hn
    exact (slews_step h (by omega) e).trans (ih (h.step (by omega) e) (by omega))

/-- Both bounds of the last slew: what a run never goes below, and what it never passes. -/
theorem lastSlew_step (c : TsbpdClock) (e : Event) {bound : Nat} (hbound : c.lastSlew ≤ bound)
    (hdeliver : ∀ t, e = .deliver t → c.project (stamp t) ≤ bound) :
    (c.step e).lastSlew ≤ bound := by
  cases e with
  | deliver t =>
    have hlast : (c.step (.deliver t)).lastSlew = max c.lastSlew (c.project (stamp t)) :=
      (advanceAppliedDrift_frame _ _).1
    rw [hlast]
    exact Nat.max_le.2 ⟨hbound, hdeliver t rfl⟩
  | observe t arrival roundTripTime => exact hbound

/-- The clock has seen the largest time, and slewed only up to times it delivered. -/
structure Follows (start : Nat) (es : List Event) (c : TsbpdClock) : Prop where
  latest : (c.latestUnwrapped : Int) = seen start es
  slewed : ∀ bound, start ≤ bound → (∀ t, .deliver t ∈ es → t.toNat ≤ bound) → c.lastSlew ≤ bound
  started : start ≤ c.lastSlew
  remainder : c.slewRemainder < partsPerMillion
  drifts : Drifts es.length c

theorem seen_append_singleton (latest : Int) (es : List Event) (e : Event) :
    seen latest (es ++ [e]) = max (seen latest es) e.time :=
  List.foldl_append ..

section

variable {start : Nat} {es : List Event} {e : Event} (h : Follows start es c)
  (hnear : |e.time - seen start es| ≤ 2 ^ 31 - 1) (hfits : e.time < 2 ^ 63)
include h hnear hfits

theorem Follows.project : c.project (stamp e.time) = e.time.toNat := by
  rw [← h.latest] at hnear
  have hbounds := abs_le.1 hnear
  exact project_stamp (by omega) (by omega) hfits

theorem Follows.step (hn : 10000 * (es.length + 1) < 2 ^ 63) :
    Follows start (es ++ [e]) (c.step e) where
  latest := by
    have hlatest := h.latest
    rw [latestUnwrapped_step, h.project hnear hfits, seen_append_singleton]
    omega
  slewed bound hstart hdelivered := by
    refine lastSlew_step c e ?_ ?_
    · exact h.slewed bound hstart fun t ht => hdelivered t (List.mem_append_left _ ht)
    rintro t rfl
    exact (h.project hnear hfits).trans_le (hdelivered t (by simp))
  started := h.started.trans (slews_step h.drifts (by omega) e).lastSlew
  remainder := slewRemainder_step h.remainder e
  drifts := by
    rw [List.length_append]
    exact h.drifts.step hn e

end

/-- No time of the run, and no drift that its calls can add up to, comes near the end of the
64-bit clock. -/
structure Fits (arrival delay : Nat) (es : List Event) : Prop where
  times : ∀ e ∈ es, arrival + e.time.toNat + delay < 2 ^ 62
  calls : 10000 * es.length < 2 ^ 62

theorem Fits.left {arrival delay : Nat} {es fs : List Event} (h : Fits arrival delay (es ++ fs)) :
    Fits arrival delay es := by
  have hcalls := h.calls
  rw [List.length_append] at hcalls
  exact ⟨fun e he => h.times e (List.mem_append_left _ he), by omega⟩

/-- What the bounds say at one call. -/
theorem Fits.at {arrival delay : Nat} {before after : List Event} {e : Event}
    (h : Fits arrival delay (before ++ e :: after)) :
    arrival + e.time.toNat + delay < 2 ^ 62 ∧ 10000 * (before.length + 1) < 2 ^ 62 := by
  have hcalls := h.calls
  rw [List.length_append, List.length_cons] at hcalls
  exact ⟨h.times e (by simp), by omega⟩

theorem follows_run (arrival : Nat) (timestamp : PacketTimestamp) (delay : Nat)
    (es : List Event) (hnear : Near timestamp.value.toNat es) (hfits : Fits arrival delay es) :
    Follows timestamp.value.toNat es ((make arrival timestamp delay).run es) := by
  induction es using List.reverseRecOn with
  | nil =>
    exact ⟨rfl, fun bound hstart _ => hstart, le_rfl, Nat.succ_pos _, Nat.le_refl 0,
      Nat.le_refl 0, rfl⟩
  | append_singleton es e ih =>
    obtain ⟨hes, he, -⟩ := near_append.1 hnear
    have hrun : (make arrival timestamp delay).run (es ++ [e])
        = ((make arrival timestamp delay).run es).step e := List.foldl_append ..
    obtain ⟨htime, hcalls⟩ := hfits.at
    rw [hrun]
    exact (ih hes hfits.left).step he (by omega) (by omega)

/-- What the budget pays for, rounded: a whole step more at most, and no step without time. -/
theorem Slews.bound {elapsed : Nat} (h : Slews c c')
    (hremainder : c.slewRemainder < partsPerMillion)
    (helapsed : c'.lastSlew - c.lastSlew ≤ elapsed) :
    (c'.appliedDrift - c.appliedDrift).natAbs ≤ elapsed * maximumTsbpdSlew / partsPerMillion + 1
      ∧ (c'.appliedDrift - c.appliedDrift).natAbs ≤ elapsed := by
  have hbudget := h.budget
  have hmono := Nat.mul_le_mul_right maximumTsbpdSlew helapsed
  generalize (c'.appliedDrift - c.appliedDrift).natAbs = moved at *
  generalize (c'.lastSlew - c.lastSlew) * maximumTsbpdSlew = paid at *
  unfold maximumTsbpdSlew at *
  unfold partsPerMillion at *
  omega

theorem run_append (c : TsbpdClock) (es fs : List Event) : c.run (es ++ fs) = (c.run es).run fs :=
  List.foldl_append ..

section

variable {start : Nat} {before between : List Event} {t₁ t₂ : Int} {c₁ c₂ : TsbpdClock}

/-- The source time that passes between two deliveries bounds the advance of the slew. -/
theorem Follows.elapsed (h₁ : Follows start before c₁)
    (hu₁ : c₁.project (stamp t₁) = t₁.toNat)
    (h₂ : Follows start (before ++ .deliver t₁ :: between ++ [.deliver t₂])
      (c₂.step (.deliver t₂)))
    (hlast : ∀ t, .deliver t ∈ before ++ .deliver t₁ :: between → t ≤ t₂) :
    (c₂.step (.deliver t₂)).lastSlew - (c₁.step (.deliver t₁)).lastSlew ≤ t₂.toNat - t₁.toNat := by
  have hfrom : (c₁.step (.deliver t₁)).lastSlew = max c₁.lastSlew t₁.toNat := by
    rw [← hu₁]
    exact (advanceAppliedDrift_frame _ _).1
  have hto : (c₂.step (.deliver t₂)).lastSlew ≤ max start t₂.toNat := by
    refine h₂.slewed _ (Nat.le_max_left ..) fun t ht => ?_
    have hle : t ≤ t₂ := by
      rcases List.mem_append.1 ht with ht | ht
      · exact hlast t ht
      simp only [List.mem_singleton, Event.deliver.injEq] at ht
      omega
    omega
  have hstarted := h₁.started
  omega

end

section

variable {arrival delay : Nat} {timestamp : PacketTimestamp} {before : List Event} {t : Int}

/-- Base, source time, delay and applied drift make up the delivery time. -/
theorem deliveryTime_eq (h : Follows timestamp.value.toNat before
      ((make arrival timestamp delay).run before))
    (hread : ((make arrival timestamp delay).run before).project (stamp t) = t.toNat)
    (htime : arrival + t.toNat + delay < 2 ^ 62) (hcalls : 10000 * (before.length + 1) < 2 ^ 62) :
    (((make arrival timestamp delay).run before).deliveryTime (stamp t)).1
      = ((arrival : Int) - timestamp.value.toNat + t.toNat + delay
        + (((make arrival timestamp delay).run before).step (.deliver t)).appliedDrift).toNat := by
  have hstart : Drifts 0 (make arrival timestamp delay) := ⟨Nat.le_refl 0, Nat.le_refl 0, rfl⟩
  have hslews : Slews (make arrival timestamp delay)
      (((make arrival timestamp delay).run before).step (.deliver t)) :=
    (slews_run hstart (by omega)).trans (slews_step h.drifts (by omega) _)
  have happlied := (h.drifts.step (by omega) (.deliver t)).applied
  have hstamp := timestamp.value.toNat_lt
  have hbase : (((make arrival timestamp delay).run before).step (.deliver t)).timeBase
      = (arrival : Int) - timestamp.value.toNat :=
    hslews.timeBase.trans (int64_eq (by omega) (by omega))
  have hdelay : (((make arrival timestamp delay).run before).step (.deliver t)).delay = delay :=
    hslews.delay
  show (((make arrival timestamp delay).run before).step (.deliver t)).deliveryAt
    (((make arrival timestamp delay).run before).project (stamp t)) = _
  unfold deliveryAt
  rw [hread, hbase, hdelay, int64_eq (by omega) (by omega)]

end

/-- Short of the end of the 64-bit clock every time is read as it was sent, through any number of
wraps, and a delivery adds the base, the delay and the drift to it; the drift that is applied moves
towards its target, at most by what the source time pays for, and deliveries in source order are
in order. -/
theorem delivery_times_follow_the_source (arrival : Nat) (timestamp : PacketTimestamp)
    (delay : Nat) (es : List Event) (hnear : Near timestamp.value.toNat es)
    (hfits : Fits arrival delay es) :
    (∀ before e after, es = before ++ e :: after →
      let c := (make arrival timestamp delay).run before
      c.project (stamp e.time) = e.time.toNat
        ∧ Towards c.appliedDrift (c.step e).appliedDrift c.targetDrift
        ∧ ((c.deliveryTime (stamp e.time)).1 : Int)
          = max 0 ((arrival : Int) - timestamp.value.toNat + e.time.toNat + delay
            + (c.deliveryTime (stamp e.time)).2.appliedDrift))
      ∧ ∀ before t₁ between t₂ after,
        es = before ++ .deliver t₁ :: (between ++ .deliver t₂ :: after) →
        (∀ t, .deliver t ∈ before ++ .deliver t₁ :: between → t ≤ t₂) →
        let first := ((make arrival timestamp delay).run before).deliveryTime (stamp t₁)
        let second := (first.2.run between).deliveryTime (stamp t₂)
        first.1 ≤ second.1
          ∧ (second.2.appliedDrift - first.2.appliedDrift).natAbs
            ≤ (t₂.toNat - t₁.toNat) * maximumTsbpdSlew / partsPerMillion + 1 := by
  have hreads : ∀ before e after, es = before ++ e :: after →
      Follows timestamp.value.toNat before ((make arrival timestamp delay).run before)
        ∧ |e.time - seen timestamp.value.toNat before| ≤ 2 ^ 31 - 1
        ∧ ((make arrival timestamp delay).run before).project (stamp e.time) = e.time.toNat
        ∧ arrival + e.time.toNat + delay < 2 ^ 62 ∧ 10000 * (before.length + 1) < 2 ^ 62 := by
    rintro before e after rfl
    obtain ⟨hbefore, he, -⟩ := near_append.1 hnear
    obtain ⟨htime, hcalls⟩ := hfits.at
    have hfollows := follows_run arrival timestamp delay before hbefore hfits.left
    exact ⟨hfollows, he, hfollows.project he (by omega), htime, hcalls⟩
  refine ⟨?_, ?_⟩
  · intro before e after hes c
    obtain ⟨hfollows, -, hread, htime, hcalls⟩ := hreads before e after hes
    refine ⟨hread, towards_step hfollows.drifts (by omega) e, ?_⟩
    rw [deliveryTime_eq hfollows hread htime hcalls, Int.toNat_eq_max, Int.max_comm]
    rfl
  rintro before t₁ between t₂ after hes hlast
  have hsplit : es = (before ++ .deliver t₁ :: between) ++ .deliver t₂ :: after := by
    rw [hes, List.append_assoc, List.cons_append]
  obtain ⟨h₁, -, hu₁, htime₁, hcalls₁⟩ := hreads _ _ _ hes
  obtain ⟨h₂, hnear₂, hu₂, htime₂, hcalls₂⟩ := hreads _ _ _ hsplit
  have hfirst := deliveryTime_eq h₁ hu₁ htime₁ hcalls₁
  have hsecond := deliveryTime_eq h₂ hu₂ htime₂ hcalls₂
  have hnext := h₂.step (e := .deliver t₂) hnear₂ (by omega) (by omega)
  rw [run_append] at hsecond hnext
  rw [List.length_append, List.length_cons] at hcalls₂
  intro first second
  have hslews : Slews first.2 second.2 := by
    have hdrifts := h₁.drifts.step (by omega) (.deliver t₁)
    have hrun : Slews (deliveryTime _ _).2 (run _ (between ++ [.deliver t₂])) :=
      slews_run hdrifts (by rw [List.length_append, List.length_singleton]; omega)
    rw [run_append] at hrun
    exact hrun
  obtain ⟨hbound, hgentle⟩ := hslews.bound (slewRemainder_step h₁.remainder (.deliver t₁))
    (h₁.elapsed hu₁ hnext hlast)
  have hle : t₁ ≤ t₂ := hlast t₁ (by simp)
  refine ⟨?_, hbound⟩
  have hearlier : first.1 = ((arrival : Int) - timestamp.value.toNat + t₁.toNat + delay
      + first.2.appliedDrift).toNat := hfirst
  have hlater : second.1 = ((arrival : Int) - timestamp.value.toNat + t₂.toNat + delay
      + second.2.appliedDrift).toNat := hsecond
  omega

/-- Two deliveries around a wrap of the timestamps, with an arrival between them. -/
def wrappingEvents : List Event :=
  [.deliver (2 ^ 32 - 5), .observe (2 ^ 32 + 100) 9000 (some 10), .deliver (2 ^ 32 + 2000)]

theorem near_wrappingEvents : Near (PacketTimestamp.mk (2 ^ 32 - 10)).value.toNat wrappingEvents :=
  ⟨by decide, by decide, by decide, trivial⟩

theorem delivery_times_follow_the_source_wrappingEvents :
    let c := make 1000 ⟨2 ^ 32 - 10⟩ 120
    let first := (c.run []).deliveryTime (stamp (2 ^ 32 - 5))
    let second := (first.2.run [.observe (2 ^ 32 + 100) 9000 (some 10)]).deliveryTime
      (stamp (2 ^ 32 + 2000))
    Near (PacketTimestamp.mk (2 ^ 32 - 10)).value.toNat wrappingEvents
      ∧ Fits 1000 120 wrappingEvents
      ∧ (c.run [.deliver (2 ^ 32 - 5)]).project (stamp (2 ^ 32 + 100)) = 2 ^ 32 + 100
      ∧ (first.1 : Int) = max 0 (1000 - (2 ^ 32 - 10) + (2 ^ 32 - 5) + 120 + first.2.appliedDrift)
      ∧ first.1 ≤ second.1 := by
  intro c first second
  have hfits : Fits 1000 120 wrappingEvents := ⟨by decide, by decide⟩
  obtain ⟨hread, horder⟩ := delivery_times_follow_the_source 1000 ⟨2 ^ 32 - 10⟩ 120
    wrappingEvents near_wrappingEvents hfits
  refine ⟨near_wrappingEvents, hfits, (hread [_] _ [_] rfl).1, (hread [] _ [_, _] rfl).2.2,
    (horder [] _ [_] _ [] rfl ?_).1⟩
  intro t ht
  simp only [List.nil_append, List.mem_cons, Event.deliver.injEq, List.not_mem_nil,
    reduceCtorEq, or_false] at ht
  omega

/-- At the end of the clock the sum of a later source time wraps. -/
theorem delivery_times_decrease_at_overflow :
    Near (PacketTimestamp.mk 0).value.toNat [.deliver 5, .deliver 20]
      ∧ ((make (2 ^ 63 - 11) ⟨0⟩ 0).deliveryTime (stamp 5)).1 = 2 ^ 63 - 6
      ∧ (((make (2 ^ 63 - 11) ⟨0⟩ 0).run [.deliver 5]).deliveryTime (stamp 20)).1 = 0 :=
  ⟨⟨by decide, by decide, trivial⟩, by decide, by decide⟩

end TsbpdClock

end Srt
