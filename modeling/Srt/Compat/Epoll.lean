/-
# `Epoll` — the poll record behind `epoll_uwait`

A poll record holds subscriptions, a ring of those that have something to
report and a heap of those that wait for a time.  Every call works on it
under one mutex; the sockets do not, so what a query finds can change
between any two queries.  The model takes the answers from a `World`
indexed by the number of the query (`readiness_queries`), and a run is any
sequence of subscription changes and rounds of `epoll_uwait` over any world.

The record carries a ghost `history`, newest first, of what was subscribed,
observed and reported; the functions write it and never read it.
-/
import Srt.Lib.System
import Srt.Lib.LinkedRing
import Srt.Lib.IndexedHeap
import Mathlib.Data.Finset.Basic
import Mathlib.Order.WithBot

namespace Srt.Epoll

/-- A point of the steady clock, or none: `⊤` is a deadline that is not set.
The order on set deadlines is that of the clock. -/
def Time : Type := WithTop Int

namespace Time

instance : LinearOrder Time := @WithTop.linearOrder Int Int.instLinearOrder

instance : Top Time := ⟨(none : Option Int)⟩

/-- A point of the clock. -/
def of (time : Int) : Time := (some time : Option Int)

@[simp] theorem of_ne_top (time : Int) : of time ≠ ⊤ := Option.some_ne_none time

end Time

inductive Event
  | input
  | output
  | error
  | update
  deriving DecidableEq, Repr

/-- The events that are levels: `SRT_EPOLL_IN | SRT_EPOLL_OUT | SRT_EPOLL_ERR`. -/
def levels : Finset Event := {.input, .output, .error}

abbrev Handle := Int

/-- A readiness source, by identity. -/
abbrev Source := Nat

structure LowEpochs where
  input : Nat := 0
  output : Nat := 0
  error : Nat := 0
  deriving DecidableEq, Repr

/-- The levels that were low between two readings of the epochs. -/
def LowEpochs.changed (seen low : LowEpochs) : Finset Event :=
  (if low.input ≠ seen.input then {.input} else ∅)
    ∪ (if low.output ≠ seen.output then {.output} else ∅)
    ∪ (if low.error ≠ seen.error then {.error} else ∅)

structure SocketReadinessSnapshot where
  events : Finset Event := ∅
  updateVersion : Nat := 0
  readWakeup : Option Int := none
  present : Bool := false
  source : Option Source := none
  deriving DecidableEq

/-- What a snapshot says of the levels: a socket that is gone is in error. -/
def SocketReadinessSnapshot.high (snapshot : SocketReadinessSnapshot) : Finset Event :=
  if snapshot.present then snapshot.events else {.error}

/-- A subscription without its links: those are in the ring and the heap. -/
structure Subscription where
  events : Finset Event := levels
  edge : Bool := false
  edgeSeen : Finset Event := ∅
  lowSeen : LowEpochs := {}
  updateSeen : Nat := 0
  updatePending : Nat := 0
  cached : SocketReadinessSnapshot := {}
  watch : Option Source := none
  report : Finset Event := ∅
  deadline : Time := ⊤

/-- What happened to a record, for the statements about whole runs. -/
inductive Happening
  | subscribed (handle : Handle) (version : Nat)
  | removed (handle : Handle)
  | cleared
  /-- A refresh: whether the source was rebound, which levels were found low,
  for which the low epoch had moved, and the version found. -/
  | observed (handle : Handle) (rebound : Bool) (low epochs : Finset Event) (version : Nat)
  | reported (handle : Handle) (events : Finset Event) (edge : Bool)
  /-- The report was found empty. -/
  | emptied (handle : Handle)
  deriving DecidableEq

structure PollRecord where
  userSockets : List Handle := []
  subscription : Handle → Subscription := fun _ => {}
  ring : LinkedRing Handle := {}
  deadlines : IndexedHeap Handle := ⟨fun _ => 0, 0, fun _ => 0⟩
  readinessQueries : Nat := 0
  history : List Happening := []

/-- What the sockets answer: the `n`-th readiness query, and the low epochs
read behind it. -/
structure World where
  readiness : Nat → Handle → SocketReadinessSnapshot
  lowEpochs : Nat → Source → LowEpochs

namespace PollRecord

variable (record : PollRecord)

def put (handle : Handle) (s : Subscription) : PollRecord :=
  { record with subscription := Function.update record.subscription handle s }

def note (x : Happening) : PollRecord :=
  { record with history := x :: record.history }

def deadlineOf (handle : Handle) : Time :=
  (record.subscription handle).deadline

def removeReady (handle : Handle) : PollRecord :=
  { record with ring := record.ring.remove handle }

def appendReady (handle : Handle) : PollRecord :=
  { record with ring := record.ring.append handle }

def removeDeadline (handle : Handle) : PollRecord :=
  if record.deadlineOf handle = ⊤ then record
  else
    let rest := record.put handle { record.subscription handle with deadline := ⊤ }
    { rest with deadlines := record.deadlines.remove rest.deadlineOf handle }

def addDeadline (handle : Handle) (time : Int) : PollRecord :=
  let rest := record.put handle { record.subscription handle with deadline := .of time }
  { rest with deadlines := record.deadlines.push rest.deadlineOf handle }

end PollRecord

namespace Subscription

variable (s : Subscription)

def watched : Finset Event := s.events ∩ levels

def current : Finset Event := s.cached.high ∩ s.watched

/-- The report `update_report` computes from the cached snapshot. -/
def updateReport : Subscription :=
  let current := s.current
  let s : Subscription :=
    if s.edge then
      { s with report := current \ s.edgeSeen, edgeSeen := s.edgeSeen ∩ current }
    else { s with report := current }
  if .update ∈ s.events ∧ s.cached.updateVersion ≠ s.updateSeen then
    { s with updatePending := s.cached.updateVersion, report := insert .update s.report }
  else s

/-- A refresh that found the source it was bound to: the levels whose low
epoch moved are armed again. -/
def observe (found : SocketReadinessSnapshot) (low : Option LowEpochs) :
    Subscription :=
  match low with
  | none => { s with cached := found }
  | some low =>
    { s with
      edgeSeen := s.edgeSeen \ s.lowSeen.changed low
      lowSeen := low
      cached := found }

/-- A refresh that found another source. -/
def rebind (source : Option Source) (found : SocketReadinessSnapshot)
    (low : LowEpochs) : Subscription :=
  { s with watch := source, edgeSeen := ∅, lowSeen := low, cached := found }

def consume (consumed : Finset Event) : Subscription :=
  { s with
    edgeSeen := if s.edge then s.edgeSeen ∪ (consumed ∩ levels) else s.edgeSeen
    updateSeen := if .update ∈ consumed then s.updatePending else s.updateSeen }

/-- The levels a refresh finds low. -/
def low : Finset Event := levels \ s.cached.high

end Subscription

namespace PollRecord

def updateReport (record : PollRecord) (handle : Handle) : PollRecord :=
  let s := (record.subscription handle).updateReport
  if s.report ≠ ∅ then (record.put handle s).appendReady handle
  else ((record.put handle s).removeReady handle).note (.emptied handle)

/-- The queries of `refresh_subscription`: the subscription with its new
snapshot, whether it was rebound, and the epochs that moved. -/
def query (world : World) (record : PollRecord) (handle : Handle) :
    Subscription × Bool × Finset Event × Nat :=
  let s := record.subscription handle
  let n := record.readinessQueries
  let first := world.readiness n handle
  if first.source ≠ s.watch then
    let second := world.readiness (n + 1) handle
    let low := second.source.elim {} (world.lowEpochs (n + 1))
    (s.rebind first.source second low, true, ∅, n + 2)
  else
    let low := first.source.map (world.lowEpochs n)
    (s.observe first low, false, low.elim ∅ s.lowSeen.changed, n + 1)

variable (record : PollRecord)

def refreshDeadline (handle : Handle) : PollRecord :=
  let s := record.subscription handle
  match s.cached.readWakeup with
  | none => record
  | some time =>
    if .input ∈ s.events ∧ .input ∉ s.cached.events then record.addDeadline handle time
    else record

def refreshSubscription (world : World) (record : PollRecord) (handle : Handle) : PollRecord :=
  let (s, rebound, epochs, queries) := record.query world handle
  let record := { record with readinessQueries := queries }
  let record := (record.put handle s).note
    (.observed handle rebound s.low epochs s.cached.updateVersion)
  ((record.updateReport handle).removeDeadline handle).refreshDeadline handle

def eraseSubscription (handle : Handle) : PollRecord :=
  if handle ∈ record.userSockets then
    let record := (record.removeReady handle).removeDeadline handle
    ({ record with userSockets := record.userSockets.erase handle }.put handle {}).note
      (.removed handle)
  else record

def setSubscription (handle : Handle) (events : Finset Event) (edge : Bool)
    (version : Nat) : PollRecord :=
  if events = ∅ ∧ edge = false then record.eraseSubscription handle
  else
    let replacement : Subscription :=
      { events, edge, updateSeen := version, updatePending := version }
    let record := { record with userSockets := record.userSockets.insert handle }
    let record := (record.removeReady handle).removeDeadline handle
    (record.put handle replacement).note (.subscribed handle version)

/-- `epoll_clear_usocks`: the subscriptions are destroyed with their links. -/
def clear : PollRecord :=
  { record with
    userSockets := []
    subscription := fun _ => {}
    ring := {}
    deadlines := { record.deadlines with size := 0 }
    history := .cleared :: record.history }

/-- Take the due deadlines off the heap; one round for each entry is
enough. -/
def popDue (now : Int) : Nat → PollRecord → PollRecord × List Handle
  | 0, record => (record, [])
  | n + 1, record =>
    if record.deadlines.size ≠ 0 ∧ record.deadlineOf (record.deadlines.slots 0) ≤ .of now then
      let handle := record.deadlines.slots 0
      let (rest, due) := popDue now n (record.removeDeadline handle)
      (rest, handle :: due)
    else (record, [])

def refreshKnown (world : World) (record : PollRecord) (handle : Handle) : PollRecord :=
  if handle ∈ record.userSockets then record.refreshSubscription world handle else record

/-- The first half of `collect_user_events`: `all` and `changed` are what
`take_changes` answers. -/
def refreshChanged (world : World) (record : PollRecord) (all : Bool) (changed : List Handle)
    (now : Int) : PollRecord :=
  if all then record.userSockets.foldl (refreshSubscription world) record
  else
    let (record, due) := popDue now record.deadlines.size record
    (changed ++ due).foldl (refreshKnown world) record

/-- The second half: at most `maximum` entries from the head of the ring. -/
def ready (maximum : Nat) : List (Handle × Finset Event) :=
  (record.ring.walk maximum).map fun handle => (handle, (record.subscription handle).report)

def consumeEvent (handle : Handle) (consumed : Finset Event) : PollRecord :=
  let s := record.subscription handle
  let record := (record.put handle (s.consume consumed)).note (.reported handle consumed s.edge)
  (record.removeReady handle).updateReport handle

/-- Consume what was copied out; `false` is `SRT_ESYSOBJ`. -/
def consumeAll : PollRecord → List (Handle × Finset Event) → PollRecord × Bool
  | record, [] => (record, true)
  | record, (handle, events) :: rest =>
    if handle ∈ record.userSockets then consumeAll (record.consumeEvent handle events) rest
    else (record, false)

/-- One round of `epoll_uwait`, under the mutex: the record and the answer,
`none` for a failure. -/
def uwait (world : World) (record : PollRecord) (all : Bool) (changed : List Handle) (now : Int)
    (count : Nat) : PollRecord × Option (List (Handle × Finset Event)) :=
  let record := record.refreshChanged world all changed now
  let written := (record.ready count).take count
  let (record, ok) := record.consumeAll written
  (record, if ok then some written else none)

end PollRecord

/-- What callers do to a record. -/
inductive Action
  | set (handle : Handle) (events : Finset Event) (edge : Bool) (version : Nat)
  | remove (handle : Handle)
  | clear
  | uwait (all : Bool) (changed : List Handle) (now : Int) (count : Nat)

def step (world : World) (record : PollRecord) : Action → PollRecord
  | .set handle events edge version => record.setSubscription handle events edge version
  | .remove handle => record.eraseSubscription handle
  | .clear => record.clear
  | .uwait all changed now count => (record.uwait world all changed now count).1

/-- The runs that begin with a given record. -/
def runs (world : World) (start : PollRecord) : Lts.System PollRecord Action :=
  .ofFun (· = start) (step world)

end Srt.Epoll
