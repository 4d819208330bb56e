/-
# `EpollReports` — what `epoll_uwait` reports, over whole runs

A stretch of a run is described by the history it adds (`Progress`): a
pending edge stays pending unless something settles it, and whoever stays in
the ring comes nearer to its head with every report.  Each move is such a
stretch, stretches compose, and every action is a sequence of moves.
-/
import Srt.Compat.EpollRecord

namespace Srt.Epoll

open List PollRecord

variable {handle : Handle} {x : Happening} {s : Subscription}

/-! ### What a pending report waits for -/

/-- What ends the wait of a pending edge: its report, the level found low, or
the end of the subscription. -/
def Happening.Settled (handle : Handle) (e : Event) : Happening → Prop
  | .subscribed k _ => k = handle
  | .removed k => k = handle
  | .cleared => True
  | .observed k _ low _ _ => k = handle ∧ e ∈ low
  | .reported k events _ => k = handle ∧ e ∈ events
  | .emptied _ => False

/-- What takes a subscription out of its place in the ring. -/
def Happening.Leaves (handle : Handle) : Happening → Prop
  | .subscribed k _ => k = handle
  | .removed k => k = handle
  | .cleared => True
  | .observed _ _ _ _ _ => False
  | .reported k _ _ => k = handle
  | .emptied k => k = handle

def Happening.isReport : Happening → Bool
  | .reported _ _ _ => true
  | _ => false

/-- At most `n` entries are before this one. -/
def Ahead (handle : Handle) (l : List Handle) (n : Nat) : Prop :=
  ∃ s t, l = s ++ handle :: t ∧ s.length ≤ n

section Ahead

variable {handle k : Handle} {l : List Handle} {n : Nat}

theorem Ahead.erase (h : Ahead handle l n) (hk : k ≠ handle) : Ahead handle (l.erase k) n := by
  obtain ⟨s, t, rfl, hs⟩ := h
  by_cases hin : k ∈ s
  · exact ⟨s.erase k, t, erase_append_left _ hin, (length_erase_le).trans hs⟩
  exact ⟨s, t.erase k, by
    rw [erase_append_right _ hin, erase_cons_tail (by simpa using hk.symm)], hs⟩

theorem Ahead.append (h : Ahead handle l n) (m : List Handle) : Ahead handle (l ++ m) n := by
  obtain ⟨s, t, rfl, hs⟩ := h
  exact ⟨s, t ++ m, by simp, hs⟩

theorem Ahead.settle {report : Finset Event} (h : Ahead handle l n)
    (hk : k = handle → report ≠ ∅) : Ahead handle (settle l k report) n := by
  unfold Epoll.settle
  split
  · rename_i hreport
    exact h.erase fun heq => hk heq hreport
  split
  · exact h
  · exact h.append _

theorem Ahead.tail (h : Ahead handle (k :: l) n) (hk : k ≠ handle) :
    ∃ m, Ahead handle l m ∧ m + 1 = n := by
  obtain ⟨s, t, hl, hs⟩ := h
  rcases s with _ | ⟨a, s⟩
  · exact absurd (cons.inj hl).1 hk
  · refine ⟨n - 1, ⟨s, t, (cons.inj hl).2, ?_⟩, ?_⟩ <;> simp at hs <;> omega

theorem ahead_of_mem (h : handle ∈ l) : ∃ n, Ahead handle l n ∧ n < l.length := by
  obtain ⟨s, t, rfl⟩ := append_of_mem h
  exact ⟨s.length, ⟨s, t, rfl, le_rfl⟩, by simp⟩

end Ahead

/-- The level is in the report of an edge-triggered subscription. -/
def Pending (record : PollRecord) (handle : Handle) (e : Event) : Prop :=
  (record.subscription handle).edge = true ∧ e ∈ (record.subscription handle).report

/-- A stretch of a run, by the history it adds: pending levels stay unless
something settles them, and who stays in the ring comes nearer to its head
with every report. -/
structure Progress (record : PollRecord) (since : List Happening) (record' : PollRecord) :
    Prop where
  history : record'.history = since ++ record.history
  pending : ∀ handle, ∀ e ∈ levels, Pending record handle e →
    Pending record' handle e ∨ ∃ x ∈ since, x.Settled handle e
  place : ∀ l, RingExact record l → ∃ l', RingExact record' l' ∧
    ∀ handle n, Ahead handle l n → (∀ x ∈ since, ¬x.Leaves handle) →
      ∃ m, Ahead handle l' m ∧ m + since.countP Happening.isReport ≤ n

section Progress

variable {world : World} {record record' : PollRecord}

theorem Progress.refl (record : PollRecord) : Progress record [] record where
  history := rfl
  pending _ _ _ h := .inl h
  place l hl := ⟨l, hl, fun _ n h _ => ⟨n, h, le_rfl⟩⟩

theorem Progress.trans {since since' : List Happening} {record'' : PollRecord}
    (h : Progress record since record') (h' : Progress record' since' record'') :
    Progress record (since' ++ since) record'' where
  history := by rw [h'.history, h.history, append_assoc]
  pending handle e he hpending := by
    rcases h.pending handle e he hpending with hmid | ⟨x, hx, hsettled⟩
    · rcases h'.pending handle e he hmid with hlast | ⟨x, hx, hsettled⟩
      · exact .inl hlast
      · exact .inr ⟨x, mem_append_left _ hx, hsettled⟩
    · exact .inr ⟨x, mem_append_right _ hx, hsettled⟩
  place l hl := by
    obtain ⟨l', hl', hplace⟩ := h.place l hl
    obtain ⟨l'', hl'', hplace'⟩ := h'.place l' hl'
    refine ⟨l'', hl'', fun handle n hahead hstays => ?_⟩
    obtain ⟨m, hm, hle⟩ := hplace handle n hahead fun x hx => hstays x (mem_append_right _ hx)
    obtain ⟨m', hm', hle'⟩ := hplace' handle m hm fun x hx => hstays x (mem_append_left _ hx)
    exact ⟨m', hm', by rw [countP_append]; omega⟩

/-- A subscription is unlinked and replaced: the others keep their places. -/
theorem progress_replace (hhistory : record'.history = x :: record.history)
    (hothers : ∀ k, k ≠ handle → record'.subscription k = record.subscription k)
    (hring : ∀ l, RingExact record l → RingExact record' (settle l handle ∅))
    (hsettled : ∀ e, x.Settled handle e) (hleaves : x.Leaves handle) (hx : x.isReport = false) :
    Progress record [x] record' where
  history := hhistory
  pending k e he hpending := by
    by_cases hk : k = handle
    · exact .inr ⟨x, mem_singleton_self x, hk ▸ hsettled e⟩
    · exact .inl (by unfold Pending; rw [hothers k hk]; exact hpending)
  place l hl := by
    refine ⟨_, hring l hl, fun k n hahead hstays => ⟨n, hahead.settle fun heq => ?_, ?_⟩⟩
    · subst heq
      exact absurd hleaves (hstays x (mem_singleton_self x))
    · simp [hx]

/-- The happenings of a refresh or a consumption. -/
def settledHistory (handle : Handle) (s : Subscription) (x : Happening) : List Happening :=
  if s.updateReport.report = ∅ then [.emptied handle, x] else [x]

theorem mem_settledHistory : x ∈ settledHistory handle s x := by
  unfold settledHistory
  split <;> simp

theorem countP_settledHistory :
    (settledHistory handle s x).countP Happening.isReport = if x.isReport then 1 else 0 := by
  unfold settledHistory
  split <;> simp [Happening.isReport, countP_cons]

theorem Settles.progress (h : Settles record handle s x record')
    (hpending : ∀ e ∈ levels, Pending record handle e → (s.edge = true ∧ e ∈ s.updateReport.report)
      ∨ x.Settled handle e)
    (hplace : ∀ l, RingExact record l → ∃ l', RingExact record' (settle l' handle
      s.updateReport.report) ∧ ∀ k n, Ahead k l n → ¬x.Leaves k → ∃ m, Ahead k l' m ∧ m + (if
      x.isReport then 1 else 0) ≤ n) :
    Progress record (settledHistory handle s x) record' where
  history := by
    rw [h.history, settledHistory]
    split <;> rfl
  pending k e he hp := by
    by_cases hk : k = handle
    · subst hk
      obtain ⟨deadline, hself⟩ := h.self
      rcases hpending e he hp with ⟨hedge, hreport⟩ | hsettled
      · refine .inl ⟨?_, ?_⟩
        · rw [hself]; exact edge_updateReport.trans hedge
        · rw [hself]; exact hreport
      · exact .inr ⟨x, mem_settledHistory, hsettled⟩
    · exact .inl (by unfold Pending; rw [h.others k hk]; exact hp)
  place l hl := by
    obtain ⟨l', hl', hahead'⟩ := hplace l hl
    refine ⟨_, hl', fun k n hahead hstays => ?_⟩
    obtain ⟨m, hm, hle⟩ := hahead' k n hahead (hstays x mem_settledHistory)
    refine ⟨m, hm.settle fun heq hempty => ?_, by rw [countP_settledHistory]; exact hle⟩
    -- an emptied report is in the history
    refine hstays (.emptied handle) ?_ heq
    rw [settledHistory, if_pos hempty]
    exact mem_cons_self

theorem progress_refresh (h : Inv record) (hin : handle ∈ record.userSockets) :
    ∃ since, Progress record since (record.refreshSubscription world handle) := by
  have hfaithful := h.sound.faithful handle hin
  obtain ⟨hedge, hwatched, hseen, -⟩ := @query_frame world record handle
  refine ⟨_, settles_refresh.progress ?_ fun l hl => ?_⟩
  · intro e he ⟨hold, hreport⟩
    have hne : e ≠ .update := by rintro rfl; exact absurd he (by decide)
    have hcurrent := (Finset.mem_insert.1 (hfaithful.high hreport)).resolve_left hne
    have hunseen := Finset.disjoint_left.1 (hfaithful.unseen hold) hreport
    by_cases hhigh : e ∈ (record.query world handle).1.cached.high
    · refine .inl ⟨hedge.trans hold, (level_mem_report he).2 ⟨?_, fun _ hin => ?_⟩⟩
      · rw [Subscription.current, hwatched]
        exact Finset.mem_inter.2 ⟨hhigh, (Finset.mem_inter.1 hcurrent).2⟩
      · exact hunseen (hseen hin)
    · exact .inr ⟨rfl, Finset.mem_sdiff.2 ⟨he, hhigh⟩⟩
  · refine ⟨l, (refresh_spec hl h.heap).1, fun k n hahead _ => ⟨n, hahead, le_rfl⟩⟩

theorem progress_consume (h : Inv record) (hhead : record.ring.head = some handle) :
    ∃ since, Progress record since
      (record.consumeEvent handle (record.subscription handle).report) := by
  refine ⟨_, settles_consume.progress ?_ fun l hl => ?_⟩
  · intro e he hpending
    exact .inr ⟨rfl, hpending.2⟩
  obtain ⟨t, rfl⟩ := hl.eq_cons hhead
  refine ⟨t, (consume_spec hl h.heap).1, fun k n hahead hstays => ?_⟩
  obtain ⟨m, hm, hle⟩ := hahead.tail fun heq => hstays heq
  exact ⟨m, hm, Nat.le_of_eq hle⟩

theorem Move.progress (h : Inv record) (hmove : Move world record record') :
    ∃ since, Progress record since record' := by
  cases hmove with
  | subscribe handle events edge version hevents =>
    obtain ⟨l, hl⟩ := h.ring
    have hspec := fun l (hl : RingExact record l) => @unlink_spec record handle l hl h.heap
      { events, edge, updateSeen := version, updatePending := version }
      (record.userSockets.insert handle) (.subscribed handle version) rfl rfl
    rw [setSubscription, if_neg hevents]
    obtain ⟨-, -, hhistory, -, -, hothers⟩ := hspec l hl
    exact ⟨_, progress_replace hhistory hothers (fun l hl => (hspec l hl).1) (fun _ => rfl)
      rfl rfl⟩
  | erase handle hin =>
    obtain ⟨l, hl⟩ := h.ring
    have hspec := fun l (hl : RingExact record l) => @unlink_spec record handle l hl h.heap
      {} (record.userSockets.erase handle) (.removed handle) rfl rfl
    rw [eraseSubscription_eq hin]
    obtain ⟨-, -, hhistory, -, -, hothers⟩ := hspec l hl
    exact ⟨_, progress_replace hhistory hothers (fun l hl => (hspec l hl).1) (fun _ => rfl)
      rfl rfl⟩
  | clear =>
    obtain ⟨l, hl⟩ := h.clear.ring
    refine ⟨[.cleared], rfl, fun _ _ _ _ => .inr ⟨_, mem_singleton_self _, trivial⟩,
      fun _ _ => ⟨l, hl, fun k n _ hstays => ?_⟩⟩
    exact absurd trivial (hstays .cleared (mem_singleton_self _))
  | refresh handle hin => exact progress_refresh h hin
  | due handle =>
    refine ⟨[], frame_removeDeadline.2.1, fun k e _ hpending => .inl ?_, fun l hl =>
      ⟨l, hl.removeDeadline, fun _ n hahead _ => ⟨n, hahead, le_rfl⟩⟩⟩
    obtain ⟨deadline, heq⟩ := @exists_deadline_removeDeadline record handle k
    unfold Pending
    rw [heq]
    exact hpending
  | consume handle hin hhead => exact progress_consume h hhead

end Progress

/-! ### Actions are sequences of moves -/

/-- Any number of moves. -/
def Moves (world : World) : PollRecord → PollRecord → Prop :=
  Relation.ReflTransGen (Move world)

section Runs

variable {world : World} {record record' : PollRecord}

theorem Moves.inv (h : Inv record) (hmoves : Moves world record record') : Inv record' := by
  induction hmoves with
  | refl => exact h
  | tail _ hmove ih => exact hmove.inv ih

theorem Moves.progress (h : Inv record) (hmoves : Moves world record record') :
    ∃ since, Progress record since record' := by
  induction hmoves with
  | refl => exact ⟨[], .refl record⟩
  | tail hmoves hmove ih =>
    obtain ⟨since, hsince⟩ := ih
    obtain ⟨last, hlast⟩ := hmove.progress (Moves.inv h hmoves)
    exact ⟨_, hsince.trans hlast⟩

theorem moves_refreshAll : ∀ (handles : List Handle) (record : PollRecord),
    (∀ handle ∈ handles, handle ∈ record.userSockets) →
    Moves world record (handles.foldl (refreshSubscription world) record)
  | [], record, _ => .refl
  | handle :: handles, record, h => by
      have hsockets := (@settles_refresh world record handle).sockets
      refine .head (.refresh handle (h handle mem_cons_self))
        (moves_refreshAll handles _ fun k hk => ?_)
      rw [hsockets]
      exact h k (mem_cons_of_mem _ hk)

theorem moves_refreshKnown : ∀ (handles : List Handle) (record : PollRecord),
    Moves world record (handles.foldl (refreshKnown world) record)
  | [], record => .refl
  | handle :: handles, record => by
      rw [foldl_cons]
      by_cases hin : handle ∈ record.userSockets
      · rw [refreshKnown, if_pos hin]
        exact .head (.refresh handle hin) (moves_refreshKnown handles _)
      rw [refreshKnown, if_neg hin]
      exact moves_refreshKnown handles _

theorem moves_popDue (now : Int) : ∀ (n : Nat) (record : PollRecord),
    Moves world record (popDue now n record).1
  | 0, record => .refl
  | n + 1, record => by
      rw [popDue]
      split
      · exact .head (.due _) (moves_popDue now n _)
      · exact .refl

theorem moves_refreshChanged (all : Bool) (changed : List Handle) (now : Int) :
    Moves world record (record.refreshChanged world all changed now) := by
  rw [refreshChanged]
  split
  · exact moves_refreshAll _ _ fun _ h => h
  · exact (moves_popDue now _ record).trans (moves_refreshKnown _ _)

/-- The entries copied out are at the head of the ring when their turn comes,
with the reports they were copied with. -/
theorem moves_consumeAll : ∀ {entries rest : List Handle} {record : PollRecord},
    Inv record → RingExact record (entries ++ rest) →
    let written := entries.map fun k => (k, (record.subscription k).report)
    Moves world record (record.consumeAll written).1 ∧ (record.consumeAll written).2 = true
  | [], _, record, _, _ => ⟨.refl, rfl⟩
  | handle :: entries, rest, record, h, hring => by
      rw [cons_append] at hring
      have hreport : (record.subscription handle).report ≠ ∅ := (hring.2 handle).1 mem_cons_self
      have hin := h.sound.mem_of_report hreport
      obtain ⟨hnotin, -⟩ := nodup_cons.1 hring.1.nodup
      have hsame : ∀ k ∈ entries, ((record.consumeEvent handle
          (record.subscription handle).report).subscription k).report =
            (record.subscription k).report := fun k hk => by
        have hne : k ≠ handle := fun heq => hnotin (heq ▸ mem_append_left _ hk)
        rw [settles_consume.others k hne]
      have hring' :=
        (@consume_spec record handle _ (record.subscription handle).report hring h.heap).1
      have hplace : ∃ rest', settle (entries ++ rest) handle ((record.subscription handle).consume
            (record.subscription handle).report).updateReport.report = entries ++ rest' := by
        unfold settle
        split
        · exact ⟨rest, erase_of_not_mem hnotin⟩
        · exact ⟨rest ++ [handle], by simp⟩
      obtain ⟨rest', hrest'⟩ := hplace
      rw [hrest'] at hring'
      have hrec := moves_consumeAll (h.consume hring) hring'
      have hwritten : (entries.map fun k => (k, ((record.consumeEvent handle
          (record.subscription handle).report).subscription k).report)) =
            entries.map fun k => (k, (record.subscription k).report) :=
        map_congr_left fun k hk => by rw [hsame k hk]
      simp only [hwritten] at hrec
      simp only [map_cons, consumeAll, if_pos hin]
      exact ⟨.head (.consume handle hin hring.1.head) hrec.1, hrec.2⟩

/-- A round of `epoll_uwait` is a sequence of moves and does not fail. -/
theorem moves_uwait (h : Inv record) (all : Bool) (changed : List Handle) (now : Int)
    (count : Nat) :
    Moves world record (record.uwait world all changed now count).1 ∧
    (record.uwait world all changed now count).2.isSome = true := by
  have hrefresh := @moves_refreshChanged world record all changed now
  set mid := record.refreshChanged world all changed now with hmid
  have hinv : Inv mid := Moves.inv h hrefresh
  obtain ⟨l, hring⟩ := hinv.ring
  have hready : (mid.ready count).take count =
      (l.take count).map fun k => (k, (mid.subscription k).report) := by
    rw [ready, hring.1.walk, ← map_take, take_take, Nat.min_self]
  have hconsume := @moves_consumeAll world (l.take count) (l.drop count) mid hinv
    (by rw [take_append_drop]; exact hring)
  simp only [uwait, ← hmid, hready]
  exact ⟨hrefresh.trans hconsume.1, by rw [if_pos hconsume.2]; rfl⟩

theorem moves_step (h : Inv record) (action : Action) :
    Moves world record (step world record action) := by
  have herase : ∀ handle, Moves world record (record.eraseSubscription handle) := by
    intro handle
    by_cases hin : handle ∈ record.userSockets
    · exact .single (.erase handle hin)
    rw [eraseSubscription, if_neg hin]
    exact .refl
  cases action with
  | set handle events edge version =>
    by_cases hevents : events = ∅ ∧ edge = false
    · rw [step, setSubscription, if_pos hevents]
      exact herase handle
    · exact .single (.subscribe handle events edge version hevents)
  | remove handle => exact herase handle
  | clear => exact .single .clear
  | uwait all changed now count => exact (moves_uwait h all changed now count).1

theorem moves_of_reachable (h : Inv record)
    (hreach : Lts.Reachable (runs world record) record') : Moves world record record' := by
  refine Lts.Reaches.invariant ?_ ?_ hreach
  · rintro r rfl
    exact .refl
  rintro r action _ - hmoves - rfl
  exact hmoves.trans (moves_step (Moves.inv h hmoves) action)

end Runs

/-! ### The reports of a run -/

/-- Two reports of one level to an edge-triggered subscription have something
between them that rearms it. -/
def EdgeExact (history : List Happening) : Prop :=
  ∀ handle, ∀ e ∈ levels, ∀ newer again between first edge older,
    history = newer ++ .reported handle again true ::
      (between ++ .reported handle first edge :: older) →
    e ∈ again → e ∈ first → ∃ x ∈ between, x.Rearms handle e

/-- An UPDATE tells a version the subscriber did not know, and it knows it
from then on; it is in the report exactly while there is one to tell. -/
def UpdateExact (record : PollRecord) : Prop :=
  (∀ handle newer events edge older,
    record.history = newer ++ .reported handle events edge :: older → .update ∈ events →
    ∃ v, observedVersion handle older = some v ∧ knownVersion handle older ≠ some v ∧
      knownVersion handle (.reported handle events edge :: older) = some v) ∧
  ∀ handle ∈ record.userSockets, .update ∈ (record.subscription handle).events →
    ∀ v, observedVersion handle record.history = some v →
      (.update ∈ (record.subscription handle).report ↔ knownVersion handle record.history ≠ some v)

section Exactness

variable {world : World} {record : PollRecord}

theorem Exact.edgeExact {history : List Happening} (h : Exact history) : EdgeExact history := by
  rintro handle e he newer again between first edge older rfl hagain hfirst
  have hwarranted := (Exact.suffix h).1
  exact (Rearmed.between (y := .reported handle first edge) ⟨rfl, hfirst⟩
    (hwarranted.1 rfl e hagain he)).resolve_right id

theorem Inv.updateExact (h : Inv record) : UpdateExact record := by
  constructor
  · intro handle newer events edge older hhistory hupdate
    have hexact := h.sound.exact
    rw [hhistory] at hexact
    obtain ⟨v, hobserved, hknown⟩ := (Exact.suffix hexact).1.2 hupdate
    exact ⟨v, hobserved, hknown, (if_pos ⟨rfl, hupdate⟩).trans hobserved⟩
  intro handle hin hevents v hobserved
  have hfaithful := h.sound.faithful handle hin
  obtain ⟨hnone, -⟩ | ⟨hsome, hiff⟩ := hfaithful.observed
  · rw [hnone] at hobserved
    exact absurd hobserved (by simp)
  rw [hsome] at hobserved
  obtain rfl := Option.some.inj hobserved
  rw [hfaithful.known, hiff, and_iff_right hevents]
  exact ⟨fun hne heq => hne (Option.some.inj heq).symm, fun hne heq => hne (heq ▸ rfl)⟩

/-- The ring is no longer than the list of subscriptions. -/
theorem Inv.length_le (h : Inv record) {l : List Handle} (hl : RingExact record l) :
    l.length ≤ record.userSockets.length :=
  (subperm_of_subset hl.1.nodup fun k hk =>
    h.sound.mem_of_report ((hl.2 k).1 hk)).length_le

theorem Progress.delivered (h : Inv record) {since : List Happening} {record' : PollRecord}
    (hprogress : Progress record since record') (hreport : (record.subscription handle).report ≠ ∅)
    (hcount : record.userSockets.length ≤ since.countP Happening.isReport) :
    ∃ x ∈ since, x.Leaves handle := by
  by_contra hstays
  obtain ⟨l, hl⟩ := h.ring
  obtain ⟨n, hahead, hn⟩ := ahead_of_mem ((hl.2 handle).2 hreport)
  obtain ⟨l', -, hplace⟩ := hprogress.place l hl
  obtain ⟨m, -, hle⟩ := hplace handle n hahead fun x hx hleaves => hstays ⟨x, hx, hleaves⟩
  have := h.length_le hl
  omega

end Exactness

/-- Two sockets that are always readable; the low epoch of the input moves
before the fifth query. -/
def exampleWorld : World where
  readiness n _ := { events := {.input}, updateVersion := n, present := true, source := some 7 }
  lowEpochs n _ := { input := if n < 4 then 0 else 1 }

/-- Both sockets are ready, an array of one is filled three times. -/
def exampleActions : List Action :=
  [.set 1 {.input} true 0, .set 2 {.input, .update} true 0, .uwait true [] 0 1,
    .uwait false [] 0 1, .uwait false [1] 0 1]

def exampleRecord : PollRecord := exampleActions.foldl (step exampleWorld) {}

/-- The same once the array has been filled for the first time. -/
def filledRecord : PollRecord := (exampleActions.take 3).foldl (step exampleWorld) {}

end Srt.Epoll
