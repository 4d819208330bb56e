/-
# `EpollRecord` — the invariant of a poll record

The ring holds who has a report, the heap holds who waits for a time, and
every subscription is faithful to the history.  Everything a caller does is
a sequence of six moves (`Move`): a subscription is set, erased or
refreshed, all are cleared, a deadline is taken off the heap, or the entry
at the head of the ring is consumed.  Each keeps the invariant.
-/
import Srt.Compat.EpollSubscription

namespace Srt.Epoll

open Function PollRecord

/-! ### The heap of deadlines -/

/-- The heap is in order, knows its slots and holds who waits for a time. -/
structure HeapExact (record : PollRecord) : Prop where
  indexed : record.deadlines.Indexed
  ordered : record.deadlines.Ordered record.deadlineOf
  mem : ∀ handle, record.deadlines.Mem handle ↔ record.deadlineOf handle ≠ ⊤

section Deadlines

variable {record : PollRecord} {handle : Handle}

theorem subscription_removeDeadline : (record.removeDeadline handle).subscription =
    update record.subscription handle
      { record.subscription handle with deadline := ⊤ } := by
  unfold PollRecord.removeDeadline
  split
  · rename_i htop
    have hsame : { record.subscription handle with deadline := ⊤ } =
        record.subscription handle := by
      rw [← (htop : (record.subscription handle).deadline = ⊤)]
      rfl
    rw [hsame, update_eq_self]
  · rfl

theorem exists_deadline_removeDeadline (k : Handle) : ∃ deadline,
    (record.removeDeadline handle).subscription k =
      { record.subscription k with deadline := deadline } := by
  rw [subscription_removeDeadline]
  by_cases hk : k = handle
  · exact ⟨⊤, by rw [hk, update_self]⟩
  · exact ⟨_, update_of_ne hk _ _⟩

theorem frame_removeDeadline : (record.removeDeadline handle).ring = record.ring ∧
    (record.removeDeadline handle).history = record.history ∧
    (record.removeDeadline handle).userSockets = record.userSockets := by
  unfold PollRecord.removeDeadline
  split <;> exact ⟨rfl, rfl, rfl⟩

theorem deadlineOf_removeDeadline :
    (record.removeDeadline handle).deadlineOf = update record.deadlineOf handle ⊤ := by
  funext k
  rw [PollRecord.deadlineOf, subscription_removeDeadline]
  by_cases hk : k = handle
  · subst hk; simp
  · simp [hk, PollRecord.deadlineOf]

theorem HeapExact.removeDeadline_spec (h : HeapExact record)
    (htop : record.deadlineOf handle ≠ ⊤) : HeapExact (record.removeDeadline handle) ∧
    (record.removeDeadline handle).deadlines.size = record.deadlines.size - 1 := by
  have htime : (record.removeDeadline handle).deadlineOf =
      update record.deadlineOf handle ⊤ := deadlineOf_removeDeadline
  have hheap : (record.removeDeadline handle).deadlines =
      record.deadlines.remove (record.removeDeadline handle).deadlineOf handle := by
    rw [PollRecord.removeDeadline, if_neg htop]
    rfl
  have hothers : ∀ k, k ≠ handle →
      (record.removeDeadline handle).deadlineOf k = record.deadlineOf k := fun k hk =>
    (congrFun htime k).trans (update_of_ne hk _ _)
  obtain ⟨hindexed, hordered, hmem, hsize⟩ := IndexedHeap.remove_spec h.indexed h.ordered
    ((h.mem handle).2 htop) hothers
  refine ⟨⟨hheap ▸ hindexed, ?_, fun k => ?_⟩, ?_⟩
  · rw [hheap]; exact hordered
  · rw [hheap, hmem k, h.mem k, htime]
    by_cases hk : k = handle
    · simp [hk]
    · simp [hk]
  · rw [hheap]; exact hsize

theorem HeapExact.removeDeadline (h : HeapExact record) :
    HeapExact (record.removeDeadline handle) := by
  by_cases htop : record.deadlineOf handle = ⊤
  · rw [PollRecord.removeDeadline, if_pos htop]
    exact h
  · exact (h.removeDeadline_spec htop).1

theorem HeapExact.addDeadline (h : HeapExact record) {time : Int}
    (htop : record.deadlineOf handle = ⊤) : HeapExact (record.addDeadline handle time) := by
  have hnew : ¬record.deadlines.Mem handle := fun hin => (h.mem handle).1 hin htop
  have htime : (record.addDeadline handle time).deadlineOf =
      update record.deadlineOf handle (.of time) := by
    funext k
    by_cases hk : k = handle
    · subst hk; simp [PollRecord.deadlineOf, PollRecord.addDeadline, PollRecord.put]
    · simp [hk, PollRecord.deadlineOf, PollRecord.addDeadline, PollRecord.put]
  have hordered : record.deadlines.Ordered (record.addDeadline handle time).deadlineOf := by
    refine h.ordered.congr fun k hk => ?_
    have hne : k ≠ handle := fun heq => hnew (heq ▸ hk)
    rw [htime]
    exact update_of_ne hne _ _
  obtain ⟨hindexed, hordered, hmem⟩ := IndexedHeap.push_spec h.indexed hordered hnew
  refine ⟨hindexed, hordered, fun k => (hmem k).trans ?_⟩
  rw [htime]
  by_cases hk : k = handle
  · simp [hk]
  · simp [hk, h.mem k]

end Deadlines

/-! ### The ready ring -/

/-- The ring is the circular list `l`, and `l` has who has something to
report. -/
def RingExact (record : PollRecord) (l : List Handle) : Prop :=
  record.ring.Holds l ∧ ∀ handle, handle ∈ l ↔ (record.subscription handle).report ≠ ∅

/-- Where `update_report` leaves an entry. -/
def settle (l : List Handle) (handle : Handle) (report : Finset Event) : List Handle :=
  if report = ∅ then l.erase handle else if handle ∈ l then l else l ++ [handle]

section Ring

variable {record : PollRecord} {handle : Handle} {l : List Handle}

theorem mem_settle (hl : l.Nodup) {report : Finset Event} {k : Handle} :
    k ∈ settle l handle report ↔ if k = handle then report ≠ ∅ else k ∈ l := by
  unfold settle
  by_cases hk : k = handle
  · subst hk
    by_cases hreport : report = ∅
    · simp [hreport, hl.mem_erase_iff]
    · by_cases hin : k ∈ l <;> simp [hreport, hin]
  by_cases hreport : report = ∅
  · simp [hreport, hk, List.mem_erase_of_ne hk]
  · by_cases hin : handle ∈ l <;> simp [hreport, hin, hk]

theorem holds_updateReport (h : record.ring.Holds l) : (record.updateReport handle).ring.Holds
      (settle l handle (record.subscription handle).updateReport.report) := by
  simp only [updateReport, settle]
  by_cases hreport : (record.subscription handle).updateReport.report = ∅
  · rw [if_neg (not_not.2 hreport), if_pos hreport]
    exact h.remove
  rw [if_pos hreport, if_neg hreport]
  by_cases hin : handle ∈ l
  · rw [if_pos hin, appendReady]
    exact (congrArg (·.Holds l) (h.append_of_mem hin)).mpr h
  rw [if_neg hin]
  exact h.append hin

theorem frame_updateReport : (record.updateReport handle).subscription =
      update record.subscription handle (record.subscription handle).updateReport ∧
    (record.updateReport handle).userSockets = record.userSockets ∧
    (record.updateReport handle).deadlines = record.deadlines ∧
    (record.updateReport handle).history = if (record.subscription handle).updateReport.report = ∅
      then .emptied handle :: record.history else record.history := by
  simp only [updateReport]
  by_cases hreport : (record.subscription handle).updateReport.report = ∅
  · rw [if_neg (not_not.2 hreport), if_pos hreport]
    exact ⟨rfl, rfl, rfl, rfl⟩
  rw [if_pos hreport, if_neg hreport]
  exact ⟨rfl, rfl, rfl, rfl⟩

end Ring

/-! ### What the moves do -/

/-- The happening a refresh writes down. -/
def observation (world : World) (record : PollRecord) (handle : Handle) : Happening :=
  let (s, rebound, epochs, _) := record.query world handle
  .observed handle rebound s.low epochs s.cached.updateVersion

/-- One subscription took up `s`, after `x`, and its report was computed. -/
structure Settles (record : PollRecord) (handle : Handle) (s : Subscription) (x : Happening)
    (record' : PollRecord) : Prop where
  sockets : record'.userSockets = record.userSockets
  self : ∃ deadline, record'.subscription handle = { s.updateReport with deadline := deadline }
  others : ∀ k, k ≠ handle → record'.subscription k = record.subscription k
  history : record'.history = if s.updateReport.report = ∅
    then .emptied handle :: x :: record.history else x :: record.history

section Moves

variable {world : World} {record : PollRecord} {handle : Handle}

theorem tracked_query (h : Faithful handle (record.subscription handle) record.history) :
    Tracked handle (record.query world handle).1
      (observation world record handle :: record.history) := by
  unfold observation
  by_cases hsource : (world.readiness record.readinessQueries handle).source ≠
      (record.subscription handle).watch
  · simp only [query, if_pos hsource]
    exact h.rebind _ _ _ _ _
  simp only [query, if_neg hsource, cached_observe]
  exact h.observe _ _

theorem refreshDeadline_cases : record.refreshDeadline handle = record ∨
    ∃ time, record.refreshDeadline handle = record.addDeadline handle time := by
  simp only [refreshDeadline]
  split
  · exact .inl rfl
  split
  · exact .inr ⟨_, rfl⟩
  · exact .inl rfl

theorem frame_refreshDeadline : ∃ deadline,
    (record.refreshDeadline handle).subscription = update record.subscription handle
      { record.subscription handle with deadline := deadline } ∧
    (record.refreshDeadline handle).ring = record.ring ∧
    (record.refreshDeadline handle).history = record.history ∧
    (record.refreshDeadline handle).userSockets = record.userSockets := by
  rcases @refreshDeadline_cases record handle with heq | ⟨time, heq⟩ <;> rw [heq]
  · exact ⟨_, (update_eq_self handle record.subscription).symm, rfl, rfl, rfl⟩
  · exact ⟨.of time, rfl, rfl, rfl, rfl⟩

theorem HeapExact.refreshDeadline (h : HeapExact record) (htop : record.deadlineOf handle = ⊤) :
    HeapExact (record.refreshDeadline handle) := by
  rcases @refreshDeadline_cases record handle with heq | ⟨time, heq⟩ <;> rw [heq]
  · exact h
  · exact h.addDeadline htop

/-- A refresh up to the point where the report is computed. -/
def queried (world : World) (record : PollRecord) (handle : Handle) : PollRecord :=
  let (s, _, _, queries) := record.query world handle
  ({ record with readinessQueries := queries }.put handle s).note (observation world record handle)

theorem refreshSubscription_eq : record.refreshSubscription world handle =
    (((queried world record handle).updateReport handle).removeDeadline handle).refreshDeadline
      handle := rfl

@[simp] theorem subscription_queried : (queried world record handle).subscription handle =
    (record.query world handle).1 :=
  update_self _ _ _

theorem settles_refresh : Settles record handle (record.query world handle).1
    (observation world record handle) (record.refreshSubscription world handle) := by
  rw [refreshSubscription_eq]
  obtain ⟨hsub, hsockets, -, hhistory⟩ := @frame_updateReport (queried world record handle) handle
  have hreport := @subscription_removeDeadline
    ((queried world record handle).updateReport handle) handle
  obtain ⟨-, hhistory', hsockets'⟩ := @frame_removeDeadline
    ((queried world record handle).updateReport handle) handle
  obtain ⟨deadline, hlast, -, hhistory'', hsockets''⟩ := @frame_refreshDeadline
    (((queried world record handle).updateReport handle).removeDeadline handle) handle
  rw [subscription_queried] at hsub hhistory
  constructor
  · rw [hsockets'', hsockets', hsockets]; rfl
  · refine ⟨deadline, ?_⟩
    rw [hlast, update_self, hreport, update_self, hsub, update_self]
  · intro k hk
    rw [hlast, update_of_ne hk, hreport, update_of_ne hk, hsub, update_of_ne hk]
    exact update_of_ne hk _ _
  · rw [hhistory'', hhistory', hhistory]; rfl

/-- A consumption up to the point where the report is computed. -/
def consumed (record : PollRecord) (handle : Handle) (events : Finset Event) : PollRecord :=
  ((record.put handle ((record.subscription handle).consume events)).note
    (.reported handle events (record.subscription handle).edge)).removeReady handle

theorem consumeEvent_eq {events : Finset Event} : record.consumeEvent handle events =
    (consumed record handle events).updateReport handle := rfl

@[simp] theorem subscription_consumed {events : Finset Event} :
    (consumed record handle events).subscription handle =
      (record.subscription handle).consume events :=
  update_self _ _ _

theorem settles_consume {events : Finset Event} :
    Settles record handle ((record.subscription handle).consume events)
      (.reported handle events (record.subscription handle).edge)
      (record.consumeEvent handle events) := by
  rw [consumeEvent_eq]
  obtain ⟨hsub, hsockets, -, hhistory⟩ := @frame_updateReport (consumed record handle events) handle
  rw [subscription_consumed] at hsub hhistory
  constructor
  · rw [hsockets]; rfl
  · exact ⟨_, by rw [hsub, update_self]⟩
  · intro k hk
    rw [hsub, update_of_ne hk]
    exact update_of_ne hk _ _
  · rw [hhistory]; rfl

end Moves

/-! ### The record between moves -/

/-- Who is subscribed, and what is true of each subscription and of the
history. -/
structure Sound (record : PollRecord) : Prop where
  nodup : record.userSockets.Nodup
  absent : ∀ handle ∉ record.userSockets, record.subscription handle = {}
  faithful : ∀ handle ∈ record.userSockets,
    Faithful handle (record.subscription handle) record.history
  exact : Exact record.history

section Sound

variable {record record' : PollRecord} {handle : Handle}

theorem Sound.settles {s : Subscription} {x : Happening} (h : Sound record)
    (hsettles : Settles record handle s x record') (hin : handle ∈ record.userSockets)
    (htracked : Tracked handle s (x :: record.history)) (hx : Warranted x record.history)
    (honly : ∀ k, x.Concerns k → k = handle) : Sound record' := by
  have hothers : ∀ k ∈ record.userSockets, k ≠ handle →
      Faithful k (record.subscription k) (x :: record.history) := fun k hk hne =>
    (h.faithful k hk).cons_of_not_concerns fun hc => hne (honly k hc)
  have hall : ∀ k ∈ record.userSockets,
      Faithful k (record'.subscription k) (x :: record.history) := by
    intro k hk
    by_cases hne : k = handle
    · obtain ⟨deadline, hself⟩ := hsettles.self
      rw [hne, hself]
      exact htracked.updateReport.deadline deadline
    rw [hsettles.others k hne]
    exact hothers k hk hne
  refine ⟨hsettles.sockets ▸ h.nodup, ?_, ?_, ?_⟩
  · intro k hk
    rw [hsettles.sockets] at hk
    have hne : k ≠ handle := fun heq => hk (heq ▸ hin)
    rw [hsettles.others k hne]
    exact h.absent k hk
  · intro k hk
    rw [hsettles.sockets] at hk
    rw [hsettles.history]
    split
    · exact (hall k hk).emptied
    · exact hall k hk
  rw [hsettles.history]
  split
  · exact ⟨trivial, hx, h.exact⟩
  · exact ⟨hx, h.exact⟩

/-- One subscription is taken out or put in afresh. -/
theorem Sound.replace {s : Subscription} {x : Happening} (h : Sound record)
    (hhistory : record'.history = x :: record.history) (hself : record'.subscription handle = s)
    (hothers : ∀ k, k ≠ handle → record'.subscription k = record.subscription k)
    (hsockets : ∀ k, k ≠ handle → (k ∈ record'.userSockets ↔ k ∈ record.userSockets))
    (hnodup : record'.userSockets.Nodup)
    (hin : handle ∈ record'.userSockets → Faithful handle s (x :: record.history))
    (hout : handle ∉ record'.userSockets → s = {})
    (hx : Warranted x record.history) (honly : ∀ k, x.Concerns k → k = handle) :
    Sound record' := by
  refine ⟨hnodup, ?_, ?_, hhistory ▸ ⟨hx, h.exact⟩⟩
  · intro k hk
    by_cases hne : k = handle
    · subst hne
      rw [hself, hout hk]
    rw [hothers k hne]
    exact h.absent k fun hold => hk ((hsockets k hne).2 hold)
  intro k hk
  rw [hhistory]
  by_cases hne : k = handle
  · subst hne
    rw [hself]
    exact hin hk
  rw [hothers k hne]
  exact (h.faithful k ((hsockets k hne).1 hk)).cons_of_not_concerns fun hc => hne (honly k hc)

end Sound

/-! ### The moves, one by one -/

section Effects

variable {world : World} {record record' : PollRecord} {handle : Handle} {l : List Handle}

theorem ringExact_settle {report : Finset Event}
    (hring : record'.ring.Holds (settle l handle report)) (hl : l.Nodup)
    (hself : (record'.subscription handle).report = report)
    (hothers : ∀ k, k ≠ handle → (k ∈ l ↔ (record'.subscription k).report ≠ ∅)) :
    RingExact record' (settle l handle report) := by
  refine ⟨hring, fun k => (mem_settle hl).trans ?_⟩
  by_cases hk : k = handle
  · rw [if_pos hk, hk, hself]
  rw [if_neg hk]
  exact hothers k hk

/-- The record with one subscription unlinked: what `set_subscription` and
`erase_subscription` begin with. -/
theorem unlink_spec (hring : RingExact record l) (hheap : HeapExact record) (s : Subscription)
    (sockets : List Handle) (x : Happening) (hreport : s.report = ∅) (htop : s.deadline = ⊤) :
    let unlinked := ((({ record with userSockets := sockets }.removeReady handle).removeDeadline
      handle).put handle s).note x
    RingExact unlinked (settle l handle ∅) ∧ HeapExact unlinked ∧
    unlinked.history = x :: record.history ∧ unlinked.userSockets = sockets ∧
    unlinked.subscription handle = s ∧
    ∀ k, k ≠ handle → unlinked.subscription k = record.subscription k := by
  intro unlinked
  set cut : PollRecord := { record with userSockets := sockets }.removeReady handle with hcut
  obtain ⟨hringcut, hhistory, hsockets⟩ := @frame_removeDeadline cut handle
  have hsub := @subscription_removeDeadline cut handle
  have hheapcut : HeapExact (cut.removeDeadline handle) :=
    HeapExact.removeDeadline ⟨hheap.indexed, hheap.ordered, hheap.mem⟩
  have hself : unlinked.subscription handle = s := update_self _ _ _
  have hothers : ∀ k, k ≠ handle → unlinked.subscription k = record.subscription k := by
    intro k hk
    have hput : unlinked.subscription k = (cut.removeDeadline handle).subscription k :=
      update_of_ne hk _ _
    rw [hput, hsub, update_of_ne hk]
    rfl
  have htime : unlinked.deadlineOf = (cut.removeDeadline handle).deadlineOf := by
    funext k
    by_cases hk : k = handle
    · rw [deadlineOf_removeDeadline, hk, update_self, PollRecord.deadlineOf, hself, htop]
    rw [deadlineOf_removeDeadline, update_of_ne hk, PollRecord.deadlineOf, hothers k hk]
    rfl
  refine ⟨ringExact_settle ?_ hring.1.nodup (by rw [hself, hreport]) ?_, ?_, ?_, ?_, hself, hothers⟩
  · have hunlinked : unlinked.ring = record.ring.remove handle := hringcut
    rw [hunlinked, settle, if_pos rfl]
    exact hring.1.remove
  · intro k hk
    rw [hothers k hk]
    exact hring.2 k
  · exact ⟨hheapcut.indexed, htime ▸ hheapcut.ordered, htime ▸ hheapcut.mem⟩
  · exact congrArg (x :: ·) hhistory
  · exact hsockets

theorem HeapExact.updateReport (h : HeapExact record) : HeapExact (record.updateReport handle) := by
  obtain ⟨hsub, -, hdeadlines, -⟩ := @frame_updateReport record handle
  have htime : (record.updateReport handle).deadlineOf = record.deadlineOf := by
    funext k
    rw [PollRecord.deadlineOf, hsub]
    by_cases hk : k = handle
    · rw [hk, update_self, deadline_updateReport]; rfl
    · rw [update_of_ne hk]; rfl
  exact ⟨hdeadlines ▸ h.indexed, by rw [htime, hdeadlines]; exact h.ordered,
    by rw [htime, hdeadlines]; exact h.mem⟩

/-- A new value with the old deadline does not concern the heap. -/
theorem HeapExact.put {s : Subscription} (h : HeapExact record)
    (hs : s.deadline = (record.subscription handle).deadline) :
    HeapExact (record.put handle s) := by
  have htime : (record.put handle s).deadlineOf = record.deadlineOf := by
    funext k
    rw [PollRecord.deadlineOf, PollRecord.put]
    by_cases hk : k = handle
    · simp [hk, hs, PollRecord.deadlineOf]
    · simp [hk, PollRecord.deadlineOf]
  exact ⟨h.indexed, htime ▸ h.ordered, htime ▸ h.mem⟩

theorem query_frame : (record.query world handle).1.edge = (record.subscription handle).edge ∧
    (record.query world handle).1.watched = (record.subscription handle).watched ∧
    (record.query world handle).1.edgeSeen ⊆ (record.subscription handle).edgeSeen ∧
    (record.query world handle).1.deadline = (record.subscription handle).deadline := by
  unfold query
  by_cases hsource : (world.readiness record.readinessQueries handle).source ≠
      (record.subscription handle).watch
  · simp only [if_pos hsource]
    exact ⟨rfl, rfl, Finset.empty_subset _, rfl⟩
  simp only [if_neg hsource]
  cases (world.readiness record.readinessQueries handle).source with
  | none => exact ⟨rfl, rfl, Finset.Subset.refl _, rfl⟩
  | some source => exact ⟨rfl, rfl, Finset.sdiff_subset, rfl⟩

theorem refresh_spec (hring : RingExact record l) (hheap : HeapExact record) :
    RingExact (record.refreshSubscription world handle)
      (settle l handle (record.query world handle).1.updateReport.report) ∧
    HeapExact (record.refreshSubscription world handle) := by
  have hsettles := @settles_refresh world record handle
  constructor
  · refine ringExact_settle ?_ hring.1.nodup ?_ ?_
    · rw [refreshSubscription_eq]
      obtain ⟨-, -, hlast, -, -⟩ := @frame_refreshDeadline
        (((queried world record handle).updateReport handle).removeDeadline handle) handle
      rw [hlast, frame_removeDeadline.1, ← subscription_queried]
      exact holds_updateReport hring.1
    · obtain ⟨deadline, hself⟩ := hsettles.self
      rw [hself]
    intro k hk
    rw [hsettles.others k hk]
    exact hring.2 k
  rw [refreshSubscription_eq]
  have hput : HeapExact (record.put handle (record.query world handle).1) :=
    hheap.put query_frame.2.2.2
  have hqueried : HeapExact (queried world record handle) := ⟨hput.indexed, hput.ordered, hput.mem⟩
  refine hqueried.updateReport.removeDeadline.refreshDeadline ?_
  rw [deadlineOf_removeDeadline, update_self]

theorem consume_spec {events : Finset Event} (hring : RingExact record (handle :: l))
    (hheap : HeapExact record) :
    RingExact (record.consumeEvent handle events)
      (settle l handle ((record.subscription handle).consume events).updateReport.report) ∧
    HeapExact (record.consumeEvent handle events) := by
  have hsettles := @settles_consume record handle events
  have hnotin : handle ∉ l := (List.nodup_cons.1 hring.1.nodup).1
  constructor
  · refine ringExact_settle ?_ (List.nodup_cons.1 hring.1.nodup).2 ?_ ?_
    · have hcut : (consumed record handle events).ring.Holds l := by
        have := hring.1.remove (x := handle)
        rwa [List.erase_cons_head] at this
      rw [consumeEvent_eq, ← subscription_consumed]
      exact holds_updateReport hcut
    · obtain ⟨deadline, hself⟩ := hsettles.self
      rw [hself]
    intro k hk
    rw [hsettles.others k hk, ← hring.2 k, List.mem_cons, or_iff_right hk]
  have hconsumed : HeapExact (consumed record handle events) := by
    have hput : HeapExact (record.put handle ((record.subscription handle).consume events)) :=
      hheap.put rfl
    exact ⟨hput.indexed, hput.ordered, hput.mem⟩
  exact hconsumed.updateReport

end Effects

/-- What one move can be. -/
inductive Move (world : World) (record : PollRecord) : PollRecord → Prop
  | subscribe (handle : Handle) (events : Finset Event) (edge : Bool) (version : Nat)
      (h : ¬(events = ∅ ∧ edge = false)) :
      Move world record (record.setSubscription handle events edge version)
  | erase (handle : Handle) (h : handle ∈ record.userSockets) :
      Move world record (record.eraseSubscription handle)
  | clear : Move world record record.clear
  | refresh (handle : Handle) (h : handle ∈ record.userSockets) :
      Move world record (record.refreshSubscription world handle)
  | due (handle : Handle) : Move world record (record.removeDeadline handle)
  | consume (handle : Handle) (h : handle ∈ record.userSockets)
      (head : record.ring.head = some handle) :
      Move world record (record.consumeEvent handle (record.subscription handle).report)

/-- What holds of a record between moves. -/
structure Inv (record : PollRecord) : Prop where
  sound : Sound record
  heap : HeapExact record
  ring : ∃ l, RingExact record l

theorem inv_empty : Inv {} where
  sound := ⟨List.nodup_nil, fun _ _ => rfl, by simp, trivial⟩
  heap := ⟨fun _ h => absurd h (Nat.not_lt_zero _), fun _ _ h => absurd h (Nat.not_lt_zero _),
    fun _ => ⟨fun ⟨_, h, _⟩ => absurd h (Nat.not_lt_zero _), fun h => absurd rfl h⟩⟩
  ring := ⟨[], LinkedRing.holds_nil, by simp⟩

section Inv

variable {world : World} {record record' : PollRecord} {handle : Handle} {l : List Handle}

/-- Only subscriptions are in the ring. -/
theorem Sound.mem_of_report (h : Sound record) (hreport : (record.subscription handle).report ≠ ∅) :
    handle ∈ record.userSockets := by
  by_contra hout
  rw [h.absent handle hout] at hreport
  exact hreport rfl

theorem Inv.subscribe (h : Inv record) (events : Finset Event) (edge : Bool) (version : Nat)
    (hevents : ¬(events = ∅ ∧ edge = false)) :
    Inv (record.setSubscription handle events edge version) := by
  obtain ⟨l, hring⟩ := h.ring
  rw [setSubscription, if_neg hevents]
  obtain ⟨hring', hheap', hhistory, hsockets, hself, hothers⟩ :=
    @unlink_spec record handle l hring h.heap
      { events, edge, updateSeen := version, updatePending := version }
      (record.userSockets.insert handle) (.subscribed handle version) rfl rfl
  refine ⟨?_, hheap', _, hring'⟩
  refine h.sound.replace hhistory hself hothers ?_ ?_ ?_ ?_ trivial fun k hk => hk.symm
  · intro k hk
    rw [hsockets, List.mem_insert_iff, or_iff_right hk]
  · rw [hsockets]; exact h.sound.nodup.insert
  · intro _; exact faithful_subscribed handle events edge version record.history
  intro hout
  rw [hsockets] at hout
  exact absurd List.mem_insert_self hout

theorem removeDeadline_sockets (sockets : List Handle) :
    { record with userSockets := sockets }.removeDeadline handle =
      { record.removeDeadline handle with userSockets := sockets } := by
  by_cases htop : record.deadlineOf handle = ⊤
  · rw [PollRecord.removeDeadline, PollRecord.removeDeadline, if_pos htop]
    exact if_pos htop
  rw [PollRecord.removeDeadline, PollRecord.removeDeadline, if_neg htop]
  exact if_neg htop

theorem eraseSubscription_eq (hin : handle ∈ record.userSockets) : record.eraseSubscription handle =
      ((({ record with userSockets := record.userSockets.erase handle }.removeReady
        handle).removeDeadline handle).put handle {}).note (.removed handle) := by
  have hcut := @removeDeadline_sockets (record.removeReady handle) handle
    (record.userSockets.erase handle)
  have hsockets : ((record.removeReady handle).removeDeadline handle).userSockets =
      record.userSockets := frame_removeDeadline.2.2
  rw [eraseSubscription, if_pos hin]
  dsimp only
  rw [hsockets]
  exact congrArg (fun rest => (rest.put handle {}).note (.removed handle)) hcut.symm

theorem Inv.erase (h : Inv record) (hin : handle ∈ record.userSockets) :
    Inv (record.eraseSubscription handle) := by
  obtain ⟨l, hring⟩ := h.ring
  rw [eraseSubscription_eq hin]
  obtain ⟨hring', hheap', hhistory, hsockets, hself, hothers⟩ :=
    @unlink_spec record handle l hring h.heap {} (record.userSockets.erase handle)
      (.removed handle) rfl rfl
  refine ⟨?_, hheap', _, hring'⟩
  refine h.sound.replace hhistory hself hothers ?_ ?_ ?_ (fun _ => rfl) trivial fun k hk => hk.symm
  · intro k hk
    rw [hsockets, List.mem_erase_of_ne hk]
  · rw [hsockets]; exact h.sound.nodup.erase handle
  intro hstill
  rw [hsockets] at hstill
  exact absurd hstill h.sound.nodup.not_mem_erase

theorem Inv.clear (h : Inv record) : Inv record.clear where
  sound := ⟨List.nodup_nil, fun _ _ => rfl, fun _ hk => absurd hk List.not_mem_nil,
    trivial, h.sound.exact⟩
  heap := ⟨fun _ h => absurd h (Nat.not_lt_zero _), fun _ _ h => absurd h (Nat.not_lt_zero _),
    fun _ => ⟨fun ⟨_, h, _⟩ => absurd h (Nat.not_lt_zero _), fun h => absurd rfl h⟩⟩
  ring := ⟨[], LinkedRing.holds_nil, by simp [PollRecord.clear]⟩

theorem Inv.refresh (h : Inv record) (hin : handle ∈ record.userSockets) :
    Inv (record.refreshSubscription world handle) := by
  obtain ⟨l, hring⟩ := h.ring
  obtain ⟨hring', hheap'⟩ := @refresh_spec world record handle l hring h.heap
  refine ⟨?_, hheap', _, hring'⟩
  exact h.sound.settles settles_refresh hin (tracked_query (h.sound.faithful handle hin)) trivial
    fun k hk => hk.symm

theorem RingExact.removeDeadline (h : RingExact record l) :
    RingExact (record.removeDeadline handle) l := by
  have hsame : (record.removeDeadline handle).ring = record.ring := frame_removeDeadline.1
  refine ⟨hsame ▸ h.1, fun k => ?_⟩
  obtain ⟨deadline, heq⟩ := @exists_deadline_removeDeadline record handle k
  rw [heq]
  exact h.2 k

theorem Inv.due (h : Inv record) : Inv (record.removeDeadline handle) := by
  obtain ⟨l, hring⟩ := h.ring
  obtain ⟨-, hhistory, hsockets⟩ := @frame_removeDeadline record handle
  refine ⟨⟨hsockets ▸ h.sound.nodup, ?_, ?_, hhistory ▸ h.sound.exact⟩, h.heap.removeDeadline,
    l, hring.removeDeadline⟩
  · intro k hk
    rw [hsockets] at hk
    rw [subscription_removeDeadline]
    by_cases hne : k = handle
    · subst hne
      rw [update_self, h.sound.absent k hk]
    rw [update_of_ne hne]
    exact h.sound.absent k hk
  intro k hk
  rw [hsockets] at hk
  obtain ⟨deadline, heq⟩ := @exists_deadline_removeDeadline record handle k
  rw [heq, hhistory]
  exact (h.sound.faithful k hk).deadline deadline

theorem Inv.consume (h : Inv record) (hring : RingExact record (handle :: l)) :
    Inv (record.consumeEvent handle (record.subscription handle).report) := by
  have hreport : (record.subscription handle).report ≠ ∅ := (hring.2 handle).1 List.mem_cons_self
  have hfaithful := h.sound.faithful handle (h.sound.mem_of_report hreport)
  obtain ⟨hring', hheap'⟩ :=
    @consume_spec record handle l (record.subscription handle).report hring h.heap
  refine ⟨?_, hheap', _, hring'⟩
  exact h.sound.settles settles_consume (h.sound.mem_of_report hreport)
    (hfaithful.consume hreport) hfaithful.warranted fun k hk => hk.symm

theorem RingExact.eq_cons (h : RingExact record l) (hhead : record.ring.head = some handle) :
    ∃ t, l = handle :: t := by
  rw [h.1.head] at hhead
  exact List.head?_eq_some_iff.1 hhead

theorem Move.inv (h : Inv record) (hmove : Move world record record') : Inv record' := by
  cases hmove with
  | subscribe handle events edge version hevents => exact h.subscribe events edge version hevents
  | erase handle hin => exact h.erase hin
  | clear => exact h.clear
  | refresh handle hin => exact h.refresh hin
  | due handle => exact h.due
  | consume handle hin hhead =>
    obtain ⟨l, hring⟩ := h.ring
    obtain ⟨t, rfl⟩ := hring.eq_cons hhead
    exact h.consume hring

end Inv

end Srt.Epoll
