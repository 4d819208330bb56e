/-
# `EpollSubscription` — one subscription against the history of its record

The edge and update bookkeeping of `epoll.cpp`, without the record around
it.  A history is read backwards for two questions: has anything rearmed a
level since its last report, and which version has the subscriber been told
of.  `Faithful` says that `edge_seen`, `update_seen` and `report` answer
them; a refresh and a consumption each pass through `Tracked`, the state in
which `update_report` finds the subscription.
-/
import Srt.Compat.Epoll

namespace Srt.Epoll

/-! ### Reading a history -/

/-- The happening is about this handle. -/
def Happening.Concerns (handle : Handle) : Happening → Prop
  | .subscribed k _ => k = handle
  | .removed k => k = handle
  | .cleared => True
  | .observed k _ _ _ _ => k = handle
  | .reported k _ _ => k = handle
  | .emptied k => k = handle

/-- What entitles a subscription to another report of a level: a new
subscription, a new source, the level found low or its low epoch moved. -/
def Happening.Rearms (handle : Handle) (e : Event) : Happening → Prop
  | .subscribed k _ => k = handle
  | .observed k rebound low epochs _ => k = handle ∧ (rebound = true ∨ e ∈ low ∨ e ∈ epochs)
  | _ => False

def Happening.Reports (handle : Handle) (e : Event) : Happening → Prop
  | .reported k events _ => k = handle ∧ e ∈ events
  | _ => False

/-- Something has rearmed the level since its last report, if it had one. -/
def Rearmed (handle : Handle) (e : Event) : List Happening → Prop
  | [] => True
  | x :: older => x.Rearms handle e ∨ ¬x.Reports handle e ∧ Rearmed handle e older

/-- The version the last refresh of the subscription found. -/
def observedVersion (handle : Handle) : List Happening → Option Nat
  | [] => none
  | .subscribed k _ :: older => if k = handle then none else observedVersion handle older
  | .removed k :: older => if k = handle then none else observedVersion handle older
  | .cleared :: _ => none
  | .observed k _ _ _ version :: older =>
    if k = handle then some version else observedVersion handle older
  | _ :: older => observedVersion handle older

/-- The version the subscriber knows: that of its last UPDATE report, or the
one it subscribed at. -/
def knownVersion (handle : Handle) : List Happening → Option Nat
  | [] => none
  | .subscribed k version :: older => if k = handle then some version else knownVersion handle older
  | .removed k :: older => if k = handle then none else knownVersion handle older
  | .cleared :: _ => none
  | .reported k events _ :: older =>
    if k = handle ∧ .update ∈ events then observedVersion handle older
    else knownVersion handle older
  | _ :: older => knownVersion handle older

/-- A report says nothing that was not due: its levels were rearmed, and its
UPDATE tells a version the subscriber does not know. -/
def Warranted : Happening → List Happening → Prop
  | .reported handle events edge, older =>
    (edge = true → ∀ e ∈ events, e ∈ levels → Rearmed handle e older) ∧
    (.update ∈ events → ∃ v, observedVersion handle older = some v ∧
      knownVersion handle older ≠ some v)
  | _, _ => True

def Exact : List Happening → Prop
  | [] => True
  | x :: older => Warranted x older ∧ Exact older

section History

variable {handle : Handle} {e : Event} {x : Happening} {older : List Happening}

theorem rearmed_cons_of_not_concerns (h : ¬x.Concerns handle) :
    Rearmed handle e (x :: older) ↔ Rearmed handle e older := by
  cases x <;> simp_all [Happening.Concerns, Rearmed, Happening.Rearms, Happening.Reports]

theorem observedVersion_cons_of_not_concerns (h : ¬x.Concerns handle) :
    observedVersion handle (x :: older) = observedVersion handle older := by
  cases x <;> simp_all [Happening.Concerns, observedVersion]

theorem knownVersion_cons_of_not_concerns (h : ¬x.Concerns handle) :
    knownVersion handle (x :: older) = knownVersion handle older := by
  cases x <;> simp_all [Happening.Concerns, knownVersion]

@[simp] theorem rearmed_emptied {k : Handle} :
    Rearmed handle e (.emptied k :: older) ↔ Rearmed handle e older := by
  simp [Rearmed, Happening.Rearms, Happening.Reports]

/-- Between two reports of a level something rearmed it. -/
theorem Rearmed.between {y : Happening} (hy : y.Reports handle e) :
    ∀ {newer : List Happening}, Rearmed handle e (newer ++ y :: older) →
      (∃ x ∈ newer, x.Rearms handle e) ∨ y.Rearms handle e
  | [], h => .inr (h.resolve_right fun hn => hn.1 hy)
  | x :: newer, h => by
      rcases h with hx | ⟨-, hrest⟩
      · exact .inl ⟨x, by simp, hx⟩
      rcases Rearmed.between hy hrest with ⟨z, hz, hrearms⟩ | hrearms
      · exact .inl ⟨z, by simp [hz], hrearms⟩
      · exact .inr hrearms

theorem Exact.suffix : ∀ {newer : List Happening}, Exact (newer ++ older) → Exact older
  | [], h => h
  | _ :: _, h => Exact.suffix h.2

end History

/-! ### One subscription -/

/-- A subscription whose report is about to be computed. -/
structure Tracked (handle : Handle) (s : Subscription) (history : List Happening) : Prop where
  armed : s.edge = true → ∀ e ∈ levels,
    (e ∈ s.edgeSeen ∧ e ∈ s.current) ∨ Rearmed handle e history
  known : knownVersion handle history = some s.updateSeen
  observed : observedVersion handle history = some s.cached.updateVersion

/-- A subscription between moves. -/
structure Faithful (handle : Handle) (s : Subscription) (history : List Happening) : Prop where
  /-- A level that was reported is not reported again while it is in `edgeSeen`. -/
  unseen : s.edge = true → Disjoint s.report s.edgeSeen
  seen : s.edge = true → s.edgeSeen ⊆ s.current
  high : s.report ⊆ insert .update s.current
  armed : s.edge = true → ∀ e ∈ levels, e ∈ s.edgeSeen ∨ Rearmed handle e history
  known : knownVersion handle history = some s.updateSeen
  pending : .update ∈ s.report → s.updatePending = s.cached.updateVersion
  observed : observedVersion handle history = none ∧ s.report = ∅ ∨
    observedVersion handle history = some s.cached.updateVersion ∧
      (.update ∈ s.report ↔ .update ∈ s.events ∧ s.cached.updateVersion ≠ s.updateSeen)

section Subscription

variable {handle : Handle} {s : Subscription} {history : List Happening}

theorem Faithful.cons_of_not_concerns {x : Happening} (h : Faithful handle s history)
    (hx : ¬x.Concerns handle) : Faithful handle s (x :: history) where
  unseen := h.unseen
  seen := h.seen
  high := h.high
  armed hedge e he := (h.armed hedge e he).imp_right (rearmed_cons_of_not_concerns hx).2
  known := (knownVersion_cons_of_not_concerns hx).trans h.known
  pending := h.pending
  observed := by rw [observedVersion_cons_of_not_concerns hx]; exact h.observed

theorem Faithful.emptied {k : Handle} (h : Faithful handle s history) :
    Faithful handle s (.emptied k :: history) where
  unseen := h.unseen
  seen := h.seen
  high := h.high
  armed hedge e he := (h.armed hedge e he).imp_right rearmed_emptied.2
  known := h.known
  pending := h.pending
  observed := h.observed

theorem Faithful.deadline (h : Faithful handle s history) (deadline : Time) :
    Faithful handle { s with deadline := deadline } history :=
  { h with }

theorem update_notMem_current : .update ∉ s.current := by
  simp [Subscription.current, Subscription.watched, levels]

/-- `update_report` writes the report, `edge_seen` and `update_pending`. -/
theorem updateReport_eq : s.updateReport =
    { s with
      report := s.updateReport.report
      edgeSeen := s.updateReport.edgeSeen
      updatePending := s.updateReport.updatePending } := by
  simp only [Subscription.updateReport]
  split <;> split <;> rfl

@[simp] theorem edge_updateReport : s.updateReport.edge = s.edge := by rw [updateReport_eq]

@[simp] theorem events_updateReport : s.updateReport.events = s.events := by rw [updateReport_eq]

@[simp] theorem cached_updateReport : s.updateReport.cached = s.cached := by rw [updateReport_eq]

@[simp] theorem updateSeen_updateReport : s.updateReport.updateSeen = s.updateSeen := by
  rw [updateReport_eq]

@[simp] theorem deadline_updateReport : s.updateReport.deadline = s.deadline := by
  rw [updateReport_eq]

@[simp] theorem current_updateReport : s.updateReport.current = s.current := by
  rw [updateReport_eq]; rfl

theorem edgeSeen_updateReport (hedge : s.edge = true) :
    s.updateReport.edgeSeen = s.edgeSeen ∩ s.current := by
  simp only [Subscription.updateReport, if_pos hedge]
  split <;> rfl

theorem update_mem_report : .update ∈ s.updateReport.report ↔
    .update ∈ s.events ∧ s.cached.updateVersion ≠ s.updateSeen := by
  have hlevels := update_notMem_current (s := s)
  simp only [Subscription.updateReport]
  split <;> split <;> simp_all

theorem updatePending_updateReport (h : .update ∈ s.updateReport.report) :
    s.updateReport.updatePending = s.cached.updateVersion := by
  have hdue := update_mem_report.1 h
  by_cases hedge : s.edge = true <;> simp [Subscription.updateReport, hedge, hdue]

/-- Of the levels, the report has those that are high and, with edges, not
yet seen. -/
theorem level_mem_report {e : Event} (he : e ∈ levels) : e ∈ s.updateReport.report ↔
    e ∈ s.current ∧ (s.edge = true → e ∉ s.edgeSeen) := by
  have hne : e ≠ .update := by rintro rfl; exact absurd he (by decide)
  simp only [Subscription.updateReport]
  split <;> split <;> simp_all

theorem report_subset : s.updateReport.report ⊆ insert .update s.current := by
  simp only [Subscription.updateReport]
  split <;> split <;> intro e <;> simp only [Finset.mem_insert, Finset.mem_sdiff] <;> tauto

theorem mem_levels_of_mem_current {e : Event} (h : e ∈ s.current) : e ∈ levels :=
  (Finset.mem_inter.1 (Finset.mem_inter.1 h).2).2

theorem Tracked.updateReport (h : Tracked handle s history) :
    Faithful handle s.updateReport history where
  unseen hedge := by
    rw [edge_updateReport] at hedge
    rw [edgeSeen_updateReport hedge, Finset.disjoint_left]
    intro e hreport hseen
    obtain ⟨hseen, hcurrent⟩ := Finset.mem_inter.1 hseen
    exact ((level_mem_report (mem_levels_of_mem_current hcurrent)).1 hreport).2 hedge hseen
  seen hedge := by
    rw [edge_updateReport] at hedge
    rw [edgeSeen_updateReport hedge, current_updateReport]
    exact Finset.inter_subset_right
  high := by rw [current_updateReport]; exact report_subset
  armed hedge e he := by
    rw [edge_updateReport] at hedge
    rw [edgeSeen_updateReport hedge]
    exact (h.armed hedge e he).imp_left Finset.mem_inter.2
  known := by rw [updateSeen_updateReport]; exact h.known
  pending hreport := by rw [cached_updateReport]; exact updatePending_updateReport hreport
  observed := .inr ⟨by rw [cached_updateReport]; exact h.observed, by
    rw [events_updateReport, cached_updateReport, updateSeen_updateReport]
    exact update_mem_report⟩

theorem cached_observe {found : SocketReadinessSnapshot} {low : Option LowEpochs} :
    (s.observe found low).cached = found := by
  cases low <;> rfl

section

variable (h : Faithful handle s history)
include h

/-- A level that stays seen is high in the new snapshot, or was found low. -/
theorem Faithful.observe (found : SocketReadinessSnapshot) (low : Option LowEpochs) :
    Tracked handle (s.observe found low)
      (.observed handle false (s.observe found low).low (low.elim ∅ s.lowSeen.changed)
        found.updateVersion :: history) := by
  have hevents : (s.observe found low).watched = s.watched := by cases low <;> rfl
  have hedgeEq : (s.observe found low).edge = s.edge := by cases low <;> rfl
  have hupdate : (s.observe found low).updateSeen = s.updateSeen := by cases low <;> rfl
  have hseen : (s.observe found low).edgeSeen = s.edgeSeen \ low.elim ∅ s.lowSeen.changed := by
    cases low
    · exact Finset.sdiff_empty.symm
    · rfl
  constructor
  · intro hedge e he
    rw [hedgeEq] at hedge
    rcases h.armed hedge e he with hin | hrearmed
    · have hwatched := (Finset.mem_inter.1 (h.seen hedge hin)).2
      by_cases hepoch : e ∈ low.elim ∅ s.lowSeen.changed
      · exact .inr (.inl ⟨rfl, .inr (.inr hepoch)⟩)
      by_cases hhigh : e ∈ found.high
      · refine .inl ⟨by rw [hseen]; exact Finset.mem_sdiff.2 ⟨hin, hepoch⟩, ?_⟩
        rw [Subscription.current, cached_observe, hevents]
        exact Finset.mem_inter.2 ⟨hhigh, hwatched⟩
      refine .inr (.inl ⟨rfl, .inr (.inl ?_)⟩)
      rw [Subscription.low, cached_observe]
      exact Finset.mem_sdiff.2 ⟨he, hhigh⟩
    · exact .inr (.inr ⟨id, hrearmed⟩)
  · rw [hupdate]; exact h.known
  · rw [cached_observe]; exact if_pos rfl

theorem Faithful.rebind (source : Option Source) (found : SocketReadinessSnapshot) (low : LowEpochs)
    (lows epochs : Finset Event) :
    Tracked handle (s.rebind source found low)
      (.observed handle true lows epochs found.updateVersion :: history) where
  armed _ _ _ := .inr (.inl ⟨rfl, .inl rfl⟩)
  known := h.known
  observed := if_pos rfl

/-- Consuming a report marks its levels seen and its version known. -/
theorem Faithful.consume (hreport : s.report ≠ ∅) :
    Tracked handle (s.consume s.report) (.reported handle s.report s.edge :: history) := by
  obtain ⟨-, hempty⟩ | ⟨hobserved, -⟩ := h.observed
  · exact absurd hempty hreport
  constructor
  · intro (hedge : s.edge = true) e he
    have hseen : (s.consume s.report).edgeSeen = s.edgeSeen ∪ s.report ∩ levels := if_pos hedge
    have hne : e ≠ .update := by rintro rfl; exact absurd he (by decide)
    rw [hseen]
    by_cases hin : e ∈ s.report
    · refine .inl ⟨Finset.mem_union_right _ (Finset.mem_inter.2 ⟨hin, he⟩), ?_⟩
      exact (Finset.mem_insert.1 (h.high hin)).resolve_left hne
    rcases h.armed hedge e he with hold | hrearmed
    · exact .inl ⟨Finset.mem_union_left _ hold, h.seen hedge hold⟩
    · exact .inr (.inr ⟨fun hrep => hin hrep.2, hrearmed⟩)
  · by_cases hupdate : .update ∈ s.report
    · have hknown : knownVersion handle (.reported handle s.report s.edge :: history) =
          observedVersion handle history := if_pos ⟨rfl, hupdate⟩
      rw [hknown, hobserved, ← h.pending hupdate]
      exact congrArg some (if_pos hupdate).symm
    have hknown : knownVersion handle (.reported handle s.report s.edge :: history) =
        knownVersion handle history := if_neg fun hc => hupdate hc.2
    rw [hknown, h.known]
    exact congrArg some (if_neg hupdate).symm
  · exact hobserved

theorem Faithful.warranted : Warranted (.reported handle s.report s.edge) history := by
  refine ⟨fun hedge e hin he => ?_, fun hupdate => ?_⟩
  · exact (h.armed hedge e he).resolve_left (Finset.disjoint_left.1 (h.unseen hedge) hin)
  obtain ⟨-, hempty⟩ | ⟨hobserved, hiff⟩ := h.observed
  · rw [hempty] at hupdate
    exact absurd hupdate (Finset.notMem_empty _)
  refine ⟨_, hobserved, ?_⟩
  rw [h.known]
  exact fun heq => (hiff.1 hupdate).2 (Option.some.inj heq).symm

end

theorem faithful_subscribed (handle : Handle) (events : Finset Event) (edge : Bool)
    (version : Nat) (history : List Happening) :
    Faithful handle
      { events := events, edge := edge, updateSeen := version, updatePending := version }
      (.subscribed handle version :: history) where
  unseen _ := Finset.disjoint_empty_left _
  seen _ := Finset.empty_subset _
  high := Finset.empty_subset _
  armed _ _ _ := .inr (.inl rfl)
  known := if_pos rfl
  pending h := absurd h (Finset.notMem_empty _)
  observed := .inl ⟨if_pos rfl, rfl⟩

end Subscription

end Srt.Epoll
