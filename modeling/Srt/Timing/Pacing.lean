/-
# `Pacing` — the rate bound of the packet pacer

`PacketPacer` of `src/timing.cpp`.  The pacer keeps the time of the next send
and adds to it, at each packet, the time the packet takes at the rate, rounded
up.  A send that comes late either keeps the schedule or starts a new one at
its own time; which of the two depends on the build and on the credit.

What bounds the rate is the base of each interval (`base`): it is never after
its send, never more than the credit before it, and each base lies behind the
last one by at least the interval between them.
-/
import Mathlib.Algebra.BigOperators.Intervals
import Mathlib.Tactic.Linarith

namespace Srt

/-- Whether the build paces below a millisecond
(`ROBOTWEAX_SRT_SUBMILLISECOND_TIMER_PACING`). -/
inductive PacingBuild
  | submillisecond
  | plain
  deriving DecidableEq, Repr

structure PacketPacer where
  bytesPerSecond : Nat
  bytesPerSecond_pos : 0 < bytesPerSecond
  flowWindowPackets : Nat
  nextSend : Nat := 0
  scheduleCredit : Nat := 1000
  hasSchedule : Bool := false
  deriving DecidableEq, Repr

structure PaceDecision where
  ready : Bool
  nextReady : Nat
  deriving DecidableEq, Repr

namespace PacketPacer

/-- The constructor. -/
def make (bytesPerSecond flowWindowPackets : Nat) : PacketPacer :=
  { bytesPerSecond := max bytesPerSecond 1
    bytesPerSecond_pos := Nat.lt_of_lt_of_le Nat.one_pos (Nat.le_max_right _ _)
    flowWindowPackets := max flowWindowPackets 1 }

def query (p : PacketPacer) (now packetsInFlight : Nat) : PaceDecision where
  ready := decide (packetsInFlight < p.flowWindowPackets) && decide (p.nextSend ≤ now)
  nextReady := p.nextSend

/-- The time `bytes` take at the rate, in `std::uint64_t`. -/
def interval (p : PacketPacer) (bytes : Nat) : Nat :=
  max 1 ((bytes * 1000000 % 2 ^ 64 + p.bytesPerSecond - 1) % 2 ^ 64 / p.bytesPerSecond)

/-- Where the interval of this send begins. -/
def base (build : PacingBuild) (p : PacketPacer) (now : Nat) : Nat :=
  match build with
  | .submillisecond =>
    if p.hasSchedule && decide (now ≤ (p.nextSend + p.scheduleCredit) % 2 ^ 64) then p.nextSend
    else now
  | .plain => max p.nextSend now

def onPacketSent (build : PacingBuild) (p : PacketPacer) (bytes now : Nat) : PacketPacer :=
  { p with
    nextSend := (p.base build now + p.interval bytes) % 2 ^ 64
    hasSchedule := match build with
      | .submillisecond => true
      | .plain => p.hasSchedule }

def setScheduleCredit (p : PacketPacer) (microseconds : Nat) : PacketPacer :=
  { p with scheduleCredit := microseconds }

def setRate (p : PacketPacer) (bytesPerSecond : Nat) : PacketPacer :=
  { p with
    bytesPerSecond := max bytesPerSecond 1
    bytesPerSecond_pos := Nat.lt_of_lt_of_le Nat.one_pos (Nat.le_max_right _ _) }

def setFlowWindow (p : PacketPacer) (packets : Nat) : PacketPacer :=
  { p with flowWindowPackets := max packets 1 }

/-- The credit that counts in a build. -/
def credit (build : PacingBuild) (p : PacketPacer) : Nat :=
  match build with
  | .submillisecond => p.scheduleCredit
  | .plain => 0

/-! ## Sums that fit -/

/-- No sum of this send reaches 2^64; the plain build adds no credit. -/
structure Fits (build : PacingBuild) (p : PacketPacer) (bytes now : Nat) : Prop where
  interval : bytes * 1000000 + p.bytesPerSecond < 2 ^ 64
  credit : build = .submillisecond → p.nextSend + p.scheduleCredit < 2 ^ 64
  next : p.base build now + p.interval bytes < 2 ^ 64

variable {build : PacingBuild} {p : PacketPacer} {bytes now : Nat}

theorem bytes_le_interval (h : Fits build p bytes now) :
    bytes * 1000000 ≤ p.bytesPerSecond * p.interval bytes := by
  have hfit := h.interval
  have hrate := p.bytesPerSecond_pos
  unfold PacketPacer.interval
  generalize bytes * 1000000 = total at hfit ⊢
  generalize p.bytesPerSecond = rate at hfit hrate ⊢
  rw [Nat.mod_eq_of_lt (show total < 2 ^ 64 by omega),
    Nat.mod_eq_of_lt (show total + rate - 1 < 2 ^ 64 by omega)]
  have hdiv := Nat.div_add_mod (total + rate - 1) rate
  have hmod := Nat.mod_lt (total + rate - 1) hrate
  have hceil : total ≤ rate * ((total + rate - 1) / rate) := by
    generalize rate * ((total + rate - 1) / rate) = product at hdiv ⊢
    omega
  exact hceil.trans (Nat.mul_le_mul_left _ (Nat.le_max_right _ _))

/-- A send that was ready: its base is not after it and at most the credit
before it. -/
theorem base_bounds (h : Fits build p bytes now) (hready : p.nextSend ≤ now) :
    p.nextSend ≤ p.base build now ∧ p.base build now ≤ now
      ∧ now ≤ p.base build now + p.credit build := by
  cases build with
  | submillisecond =>
    unfold base credit
    simp only [Nat.mod_eq_of_lt (h.credit rfl)]
    split
    · next hkeeps =>
      rw [Bool.and_eq_true, decide_eq_true_eq] at hkeeps
      exact ⟨le_rfl, hready, hkeeps.2⟩
    · exact ⟨hready, le_rfl, Nat.le_add_right _ _⟩
  | plain =>
    unfold base credit
    simp only
    omega

theorem nextSend_onPacketSent (h : Fits build p bytes now) :
    (p.onPacketSent build bytes now).nextSend = p.base build now + p.interval bytes :=
  Nat.mod_eq_of_lt h.next

theorem bytesPerSecond_onPacketSent (p : PacketPacer) (bytes now : Nat) :
    (p.onPacketSent build bytes now).bytesPerSecond = p.bytesPerSecond := by
  unfold onPacketSent
  with_reducible rfl

theorem credit_onPacketSent (p : PacketPacer) (bytes now : Nat) :
    (p.onPacketSent build bytes now).credit build = p.credit build := by
  unfold onPacketSent credit
  cases build <;> with_reducible rfl

/-! ## A sequence of sends -/

/-- `n` sends from the pacer `p 0`, each made when `query` reported ready. -/
structure Paced (build : PacingBuild) (p : Nat → PacketPacer) (bytes time : Nat → Nat)
    (n : Nat) : Prop where
  ready : ∀ k < n, ∃ inFlight, ((p k).query (time k) inFlight).ready = true
  sent : ∀ k < n, p (k + 1) = (p k).onPacketSent build (bytes k) (time k)
  fits : ∀ k < n, Fits build (p k) (bytes k) (time k)

section Paced

variable {p : Nat → PacketPacer} {bytes time : Nat → Nat} {n : Nat}

section

variable (h : Paced build p bytes time n) {k : Nat}
include h

theorem Paced.nextSend_le (hk : k < n) : (p k).nextSend ≤ time k := by
  obtain ⟨inFlight, hready⟩ := h.ready k hk
  unfold query at hready
  rw [Bool.and_eq_true, decide_eq_true_eq, decide_eq_true_eq] at hready
  exact hready.2

theorem Paced.fixed (hk : k ≤ n) :
    (p k).bytesPerSecond = (p 0).bytesPerSecond ∧ (p k).credit build = (p 0).credit build := by
  induction k with
  | zero => exact ⟨rfl, rfl⟩
  | succ k ih =>
    rw [h.sent k hk, bytesPerSecond_onPacketSent, credit_onPacketSent]
    exact ih (Nat.le_of_succ_le hk)

/-- One send: the next base lies behind this one by the interval at least. -/
theorem Paced.step (hk : k + 1 < n) : (p k).base build (time k) + (p k).interval (bytes k)
      ≤ (p (k + 1)).base build (time (k + 1)) := by
  have hnext := nextSend_onPacketSent (h.fits k (by omega))
  rw [← h.sent k (by omega)] at hnext
  rw [← hnext]
  exact (base_bounds (h.fits (k + 1) hk) (h.nextSend_le hk)).1

theorem Paced.sum_le {i j : Nat} (hij : i ≤ j) (hj : j < n) :
    (∑ k ∈ Finset.Ico i j, bytes k * 1000000) + (p 0).bytesPerSecond * (p i).base build (time i)
      ≤ (p 0).bytesPerSecond * (p j).base build (time j) := by
  induction j, hij using Nat.le_induction with
  | base => simp
  | succ j hij ih =>
    have hlt : j < n := by omega
    have hbytes := bytes_le_interval (h.fits j hlt)
    rw [(h.fixed hlt.le).1] at hbytes
    rw [Finset.sum_Ico_succ_top hij]
    calc _ = (∑ k ∈ Finset.Ico i j, bytes k * 1000000)
            + (p 0).bytesPerSecond * (p i).base build (time i) + bytes j * 1000000 :=
          Nat.add_right_comm _ _ _
      _ ≤ (p 0).bytesPerSecond * (p j).base build (time j)
            + (p 0).bytesPerSecond * (p j).interval (bytes j) := Nat.add_le_add (ih hlt) hbytes
      _ = (p 0).bytesPerSecond
            * ((p j).base build (time j) + (p j).interval (bytes j)) := (Nat.mul_add _ _ _).symm
      _ ≤ _ := Nat.mul_le_mul_left _ (h.step hj)

end

/-- Between two sends no more bytes go out than the rate allows in the time
between them and the credit. -/
theorem paced_sends_keep_the_rate (h : Paced build p bytes time n) {i j : Nat} (hij : i < j)
    (hj : j < n) :
    ((∑ k ∈ Finset.Ico i j, bytes k * 1000000 : Nat) : Int)
      ≤ (p 0).bytesPerSecond * ((time j : Int) - time i + (p 0).credit build) := by
  have hsum := h.sum_le hij.le hj
  have hi := base_bounds (h.fits i (by omega)) (h.nextSend_le (by omega))
  have hj' := base_bounds (h.fits j hj) (h.nextSend_le hj)
  rw [(h.fixed (by omega : i ≤ n)).2] at hi
  generalize (p 0).bytesPerSecond = rate at hsum ⊢
  generalize (p i).base build (time i) = bi at hsum hi
  generalize (p j).base build (time j) = bj at hsum hj'
  generalize (∑ k ∈ Finset.Ico i j, bytes k * 1000000) = sum at hsum ⊢
  have hsum' : (sum : Int) + rate * bi ≤ rate * bj := by exact_mod_cast hsum
  have hspan : (bj : Int) - bi ≤ time j - time i + (p 0).credit build := by omega
  calc (sum : Int) ≤ rate * (bj - bi) := by rw [mul_sub]; omega
    _ ≤ _ := mul_le_mul_of_nonneg_left hspan (Int.natCast_nonneg rate)

/-- Three packets of 1000 bytes at a million bytes a second: the second is
late within the credit, so the third may follow it early. -/
def exampleTime : Nat → Nat
  | 0 => 5000
  | 1 => 6900
  | _ => 7000

def examplePacer : Nat → PacketPacer
  | 0 => make 1000000 8
  | k + 1 => (examplePacer k).onPacketSent .submillisecond 1000 (exampleTime k)

theorem paced_sends_keep_the_rate_examplePacer :
    (examplePacer 2).nextSend = 7000
      ∧ ((∑ _k ∈ Finset.Ico 1 2, 1000 * 1000000 : Nat) : Int)
        ≤ (examplePacer 0).bytesPerSecond * (((7000 : Nat) : Int) - (6900 : Nat)
          + (examplePacer 0).credit .submillisecond) := by
  have hpaced : Paced .submillisecond examplePacer (fun _ => 1000) exampleTime 3 := by
    refine ⟨fun k hk => ⟨0, ?_⟩, fun k _ => rfl, fun k hk => ⟨?_, ?_, ?_⟩⟩
    all_goals
      obtain rfl | rfl | rfl : k = 0 ∨ k = 1 ∨ k = 2 := by omega
      all_goals decide +kernel
  exact ⟨by decide +kernel, paced_sends_keep_the_rate hpaced (by omega : 1 < 2) (by omega)⟩

end Paced

end PacketPacer

end Srt
