/-
# `HandshakeInbox` — the listener's inbox is a bounded queue

`HandshakeInbox` of `src/compat/transport_runtime.cpp`, a ring in which entries
are also taken out of the middle: what `ListenerActor` takes for a bounded list.
`std::move` leaves a slot in a state nobody may rely on, so the results hold for
whatever it leaves (`husk`).

The wait of `pop_for` ends as it began; what other threads do meanwhile are
calls of their own.
-/
import Srt.Codec
import Srt.Handshake.Message
import Srt.Lib.RingQueue

namespace Srt

structure HandshakeEnvelope where
  message : HandshakeMessage := {}
  control : ControlHeader := {}
  peer : IpEndpoint := {}

/-- The test of `pop_matching` and `extract_matching`. -/
def HandshakeEnvelope.isFrom (peer : IpEndpoint) (peerSocketId : Nat)
    (e : HandshakeEnvelope) : Bool :=
  e.peer == peer && e.message.packet.socketId == peerSocketId

inductive InboxPopStatus
  | received | timeout | closed
  deriving DecidableEq, Repr

/-- Nothing was there. -/
def InboxPopStatus.nothing (closed : Bool) : InboxPopStatus :=
  if closed then .closed else .timeout

structure HandshakeInbox where
  entries : RingQueue HandshakeEnvelope
  closed : Bool := false

namespace HandshakeInbox

variable (husk : HandshakeEnvelope → HandshakeEnvelope) (b : HandshakeInbox)
  (peer : IpEndpoint) (peerSocketId : Nat)

def push (envelope : HandshakeEnvelope) : Bool × HandshakeInbox :=
  if b.closed ∨ b.entries.size = b.entries.capacity then (false, b)
  else (true, { b with entries := b.entries.push envelope })

def popFor : InboxPopStatus × Option HandshakeEnvelope × HandshakeInbox :=
  if b.entries.size = 0 then (.nothing b.closed, none, b)
  else (.received, b.entries.front, { b with entries := b.entries.tail })

def popMatching : InboxPopStatus × Option HandshakeEnvelope × HandshakeInbox :=
  match b.entries.toList.findIdx? (·.isFrom peer peerSocketId) with
  | some offset => (.received, some (b.entries.ring.get offset),
      { b with entries := b.entries.removeAt husk offset })
  | none => (.nothing b.closed, none, b)

def extractMatching (size : Nat) : RingQueue.Extraction HandshakeEnvelope × HandshakeInbox :=
  let x := b.entries.extract husk (·.isFrom peer peerSocketId) size
  (x.1, { b with entries := x.2 })

inductive Call
  | push (envelope : HandshakeEnvelope)
  | pop
  | popMatching (peer : IpEndpoint) (peerSocketId : Nat)
  | extractMatching (size : Nat) (peer : IpEndpoint) (peerSocketId : Nat)
  | close

/-- What a caller sees, the counts of work apart. -/
inductive Answer
  | pushed (done : Bool)
  | popped (status : InboxPopStatus) (envelope : Option HandshakeEnvelope)
  | extracted (output : List HandshakeEnvelope) (discarded : Nat)
  | done

def call : Call → Answer × HandshakeInbox
  | .push envelope => (.pushed (b.push envelope).1, (b.push envelope).2)
  | .pop => (.popped b.popFor.1 b.popFor.2.1, b.popFor.2.2)
  | .popMatching peer id =>
    let r := b.popMatching husk peer id
    (.popped r.1 r.2.1, r.2.2)
  | .extractMatching size peer id =>
    let r := b.extractMatching husk peer id size
    (.extracted r.1.output r.1.discarded, r.2)
  | .close => (.done, { b with closed := true })

end HandshakeInbox

/-! ## The queue it stands for -/

/-- A bounded queue as a list. -/
structure Fifo where
  capacity : Nat
  closed : Bool
  entries : List HandshakeEnvelope

namespace Fifo

def call (q : Fifo) : HandshakeInbox.Call → HandshakeInbox.Answer × Fifo
  | .push e =>
    if q.closed ∨ q.entries.length = q.capacity then (.pushed false, q)
    else (.pushed true, { q with entries := q.entries ++ [e] })
  | .pop =>
    match q.entries with
    | [] => (.popped (.nothing q.closed) none, q)
    | e :: rest => (.popped .received (some e), { q with entries := rest })
  | .popMatching peer id =>
    match q.entries.find? (·.isFrom peer id) with
    | none => (.popped (.nothing q.closed) none, q)
    | some e =>
      (.popped .received (some e), { q with entries := q.entries.eraseP (·.isFrom peer id) })
  | .extractMatching size peer id =>
    let found := q.entries.filter (·.isFrom peer id)
    (.extracted (found.take size) (found.length - size),
      { q with entries := q.entries.filter (!·.isFrom peer id) })
  | .close => (.done, { q with closed := true })

end Fifo

namespace HandshakeInbox

def fifo (b : HandshakeInbox) : Fifo := ⟨b.entries.capacity, b.closed, b.entries.toList⟩

variable (husk : HandshakeEnvelope → HandshakeEnvelope) (b : HandshakeInbox)

theorem call_refines (c : Call) :
    (b.call husk c).1 = (b.fifo.call c).1 ∧ (b.call husk c).2.fifo = (b.fifo.call c).2 := by
  cases c with
  | push e =>
    simp only [call, push, Fifo.call, fifo, RingQueue.length_toList]
    split
    · exact ⟨rfl, rfl⟩
    next hroom =>
    refine ⟨rfl, ?_⟩
    have hlt : b.entries.size < b.entries.capacity :=
      Nat.lt_of_le_of_ne b.entries.size_le (not_or.1 hroom).2
    rw [RingQueue.toList_push _ _ hlt, RingQueue.capacity_push]
  | pop =>
    have hsize := b.entries.length_toList
    cases hentries : b.entries.toList with
    | nil =>
      replace hsize : b.entries.size = 0 := by rw [← hsize, hentries]; rfl
      simp [call, popFor, Fifo.call, fifo, hentries, hsize]
    | cons e rest =>
      replace hsize : b.entries.size ≠ 0 := by rw [← hsize, hentries]; simp
      simp [call, popFor, Fifo.call, fifo, hentries, hsize, RingQueue.front_eq,
        RingQueue.toList_tail]
  | popMatching peer id =>
    cases hfind : b.entries.toList.findIdx? (·.isFrom peer id) with
    | none =>
      have hnone : b.entries.toList.find? (·.isFrom peer id) = none := by
        simpa [List.findIdx?_eq_none_iff] using hfind
      simp [call, popMatching, Fifo.call, fifo, hfind, hnone]
    | some offset =>
      obtain ⟨hlt, hp, hfirst⟩ := List.findIdx?_eq_some_iff_getElem.1 hfind
      have hget : b.entries.toList[offset] = b.entries.ring.get offset := by
        simp [RingQueue.toList]
      have hsome : b.entries.toList.find? (·.isFrom peer id)
          = some (b.entries.ring.get offset) :=
        List.find?_eq_some_iff_getElem.2 ⟨hget ▸ hp, offset, hlt, hget, by simpa using hfirst⟩
      have hrest := b.entries.toList_removeAt husk (b.entries.length_toList ▸ hlt)
      simp [call, popMatching, Fifo.call, fifo, hfind, hsome, hrest, List.eraseP_eq_eraseIdx]
  | extractMatching size peer id =>
    obtain ⟨ho, hd, hq, hc⟩ := b.entries.extract_spec husk (·.isFrom peer id) size
    simp only [call, extractMatching, Fifo.call, fifo, ho, hd, hq, hc, and_self]
  | close => exact ⟨rfl, rfl⟩

/-- The answers to a run of calls, and where it ends. -/
def run {σ : Type*} (f : σ → Call → Answer × σ) : σ → List Call → List Answer × σ
  | s, [] => ([], s)
  | s, c :: cs => ((f s c).1 :: (run f (f s c).2 cs).1, (run f (f s c).2 cs).2)

theorem inbox_is_a_bounded_queue (cs : List Call) :
    (run (call husk) b cs).1 = (run Fifo.call b.fifo cs).1
      ∧ (run (call husk) b cs).2.fifo = (run Fifo.call b.fifo cs).2 := by
  induction cs generalizing b with
  | nil => exact ⟨rfl, rfl⟩
  | cons c cs ih =>
    obtain ⟨hanswer, hfifo⟩ := b.call_refines husk c
    simp only [run, hanswer, ← hfifo, (ih _).1, (ih _).2, and_self]

end HandshakeInbox

end Srt
