/-
# `Crypto.ReceivedData` — key generations that have received DATA

A generation is a key for as long as its selector knows it.  A `Reception`
notes beside a session which generations have decrypted or opened a payload.
Such a generation should end only by being the oldest of a full history when
a newer key arrives.

The session protects it by the mark in its slot, and a restoration makes a new
slot: a generation that received DATA before it was retired comes back without
its mark.  In runs whose requests carry no such key the mark and the note
agree.
-/
import Srt.Crypto.Replay

namespace Srt

open Fallible CryptoSession List Receiver BySelector

/-! ## Receptions -/

/-- The key is known under this selector. -/
def Receiver.holds (v : Receiver) (u : KeySelector × TrafficKey) : Bool :=
  (v.known u.1).any fun k => k.identity == u.2

structure Reception where
  session : CryptoSession
  /-- The generations that have decrypted or opened a payload. -/
  received : List (KeySelector × TrafficKey) := []

namespace Reception

variable (P : CryptoProvider)

/-- The generation a packet goes to. -/
def generationFor (s : CryptoSession) (key : EncryptionKey) (sequence : SequenceNumber) :
    Option (KeySelector × TrafficKey) :=
  (s.receiveSlotForPacket key sequence).map fun (i, _, k) => (i, k.identity)

/-- The generation whose payload a call has decrypted or opened. -/
def generationOf (s : CryptoSession) (c : CryptoCall) : Option (KeySelector × TrafficKey) :=
  if s.succeeds P c then
    match c with
    | .decrypt key sequence _ => generationFor s key sequence
    | .openPacket header _ _ => generationFor s header.encryptionKey header.sequence
    | _ => none
  else none

/-- A generation that is no longer known has ended; the same key may come again
as another one. -/
def step (x : Reception) (c : CryptoCall) : Reception :=
  let t := x.session.after P c
  { session := t
    received := ((generationOf P x.session c).toList ++ x.received).filter t.receiver.holds }

def system : Lts.System Reception CryptoCall :=
  .ofFun (fun x => ∃ c, x = { session := ofConfiguration P c }) (step P)

/-- The keys in a request, as the session unwraps them. -/
def carried (s : CryptoSession) : CryptoCall → List (KeySelector × TrafficKey)
  | .acceptKeyMaterial request _ =>
    match openKeyMaterial P request s with
    | .ok m _ => m.slots
    | .error _ _ => []
  | _ => []

/-- No request carries a retired key that has received DATA. -/
def Spares (x : Reception) (c : CryptoCall) : Prop :=
  ∀ k ∈ carried P x.session c, (k.1, k.2.identity) ∈ x.received →
    (x.session.receive.get k.1).any (·.identity == k.2.identity)

instance (x : Reception) (c : CryptoCall) : Decidable (Spares P x c) :=
  inferInstanceAs (Decidable (∀ k ∈ carried P x.session c, _ → _))

end Reception

/-- The generation was the oldest of a full history, and a key that was not
known has moved everything on by one. -/
structure ShiftedOut (v w : Receiver) (u : KeySelector × TrafficKey) : Prop where
  full : (v.history.get u.1).generations.length = receiveKeyHistoryCapacity
  oldest : ∃ g, (v.history.get u.1).generations.getLast? = some g ∧ g.slot.identity = u.2
  newer : ∃ current next, v.receive.get u.1 = some current ∧ w.receive.get u.1 = some next
    ∧ (∀ x ∈ v.known u.1, x.identity ≠ next.identity)
    ∧ (w.history.get u.1).generations = { slot := current, ceiling := v.frontier.map Prod.snd }
        :: (v.history.get u.1).generations.dropLast

/-! ## Marks -/

namespace Receiver

variable {v w : Receiver} {i : KeySelector} {k : TrafficKey} {u : KeySelector × TrafficKey}

/-- Histories hold at most four keys, and none before there is a current one. -/
structure Shaped (v : Receiver) : Prop where
  bounded : ∀ i, (v.history.get i).generations.length ≤ receiveKeyHistoryCapacity
  seated : ∀ i, v.receive.get i = none → (v.history.get i).generations = []

/-- The slots of a generation carry the mark. -/
def Marked (v : Receiver) (u : KeySelector × TrafficKey) : Prop :=
  ∀ k ∈ v.known u.1, k.identity = u.2 → k.receivedPayload = true

theorem holds_iff : v.holds u = true ↔ ∃ k ∈ v.known u.1, k.identity = u.2 := by
  simp [holds]

/-- The keys of one selector, with what a replacement of them reads. -/
def lane (v : Receiver) (i : KeySelector) : Option TrafficKey × ReceiveKeyHistory × Option Int :=
  (v.receive.get i, v.history.get i, v.frontier.map Prod.snd)

theorem known_of_lane (h : v.lane i = w.lane i) : v.known i = w.known i := by
  obtain ⟨hreceive, hhistory, -⟩ : v.receive.get i = w.receive.get i
      ∧ v.history.get i = w.history.get i ∧ v.frontier.map Prod.snd = w.frontier.map Prod.snd := by
    simpa [lane] using h
  rw [known, known, hreceive, hhistory]

theorem install_lane_of_ne {j : KeySelector} (h : j ≠ i) : (v.install i k).lane j = v.lane j := by
  unfold install
  split
  · rfl
  · simp only [lane, replace, get_set_of_ne _ _ h]

theorem install_lane (h : v.lane i = w.lane i) :
    (v.install i k).lane i = (w.install i k).lane i := by
  obtain ⟨hreceive, hhistory, hfrontier⟩ : v.receive.get i = w.receive.get i
      ∧ v.history.get i = w.history.get i ∧ v.frontier.map Prod.snd = w.frontier.map Prod.snd := by
    simpa [lane] using h
  unfold install
  rw [hreceive]
  split
  · exact h
  · simp only [lane, replace, get_set_self, hreceive, hhistory, hfrontier]

/-- A request changes the keys of a selector by at most one installation. -/
theorem installAll_lane (i : KeySelector) :
    ∀ {keys : List (KeySelector × TrafficKey)} {v : Receiver}, (keys.map Prod.fst).Nodup →
      (∀ k, (i, k) ∉ keys) ∧ (v.installAll keys).lane i = v.lane i
        ∨ ∃ k, (i, k) ∈ keys ∧ (v.installAll keys).lane i = (v.install i k).lane i
  | [], _, _ => .inl ⟨fun _ => not_mem_nil, rfl⟩
  | (j, k) :: keys, v, hnodup => by
    rw [map_cons, nodup_cons] at hnodup
    have hrest := installAll_lane i (v := v.install j k) hnodup.2
    show _ ∧ ((v.install j k).installAll keys).lane i = _ ∨ ∃ k', _ ∧ _
    by_cases hj : j = i
    · subst hj
      rcases hrest with ⟨-, hlane⟩ | ⟨k', hk', -⟩
      · exact .inr ⟨k, mem_cons_self, hlane⟩
      · exact absurd (mem_map_of_mem (f := Prod.fst) hk') hnodup.1
    have hsame : (v.install j k).lane i = v.lane i := install_lane_of_ne (Ne.symm hj)
    rcases hrest with ⟨hnot, hlane⟩ | ⟨k', hk', hlane⟩
    · refine .inl ⟨?_, hlane.trans hsame⟩
      intro k' hk'
      rcases mem_cons.1 hk' with heq | hk'
      · exact hj (congrArg Prod.fst heq).symm
      · exact hnot k' hk'
    · exact .inr ⟨k', mem_cons_of_mem _ hk', hlane.trans (install_lane hsame)⟩

/-- The generations in front of a restored one have not received DATA. -/
theorem restoreErases_front {key salt : Bytes} {mode : CryptoMode} :
    ∀ {gs : List ReceiveKeyGeneration} {index : Nat}, restoreErases key salt mode gs = false →
      (∀ (j : Nat) g, j < index → gs[j]? = some g → g.slot.is key salt mode = false) →
      ∀ (j : Nat) g, j < index → gs[j]? = some g → g.slot.receivedPayload = false
  | [], _, _, _, _, _, _, hg => by cases hg
  | g :: gs, index, h, hnewest, j, g', hj, hg => by
    have hfirst : g.slot.is key salt mode = false := hnewest 0 g (by omega) rfl
    rw [restoreErases, if_neg (by rw [hfirst]; decide)] at h
    split at h
    · cases h
    next hpayload =>
    cases j with
    | zero =>
      cases hg
      exact Bool.eq_false_iff.2 hpayload
    | succ j =>
      have hrest (j : Nat) (g : ReceiveKeyGeneration) (hj : j < index - 1)
          (hg : gs[j]? = some g) : g.slot.is key salt mode = false :=
        hnewest (j + 1) g (by omega) hg
      exact restoreErases_front h hrest j g' (by omega) hg

/-- What `accept_key_material` asks before it restores a key. -/
def SparesFront (v : Receiver) (i : KeySelector) (k : TrafficKey) : Prop :=
  v.isRetired i k.key k.salt k.mode = true →
    (v.receive.get i).any TrafficKey.receivedPayload = false
      ∧ restoreErases k.key k.salt k.mode (v.history.get i).generations = false

/-- A restoration keeps a marked generation, unless it restores that very one. -/
theorem restore_keeps {index : Nat} {g : ReceiveKeyGeneration} {x : TrafficKey}
    (hplace : (v.history.get i).generations[index]? = some g)
    (hfound : g.slot.is k.key k.salt k.mode = true)
    (hnewest : ∀ (j : Nat) g', j < index → (v.history.get i).generations[j]? = some g' →
      g'.slot.is k.key k.salt k.mode = false)
    (hspares : v.SparesFront i k) (hx : x ∈ v.known i) (hpayload : x.receivedPayload = true) :
    x = g.slot ∨ x ∈ (v.restore i k index).known i := by
  obtain ⟨hcurrent, herases⟩ := hspares (any_eq_true.2 ⟨g, mem_of_getElem? hplace, hfound⟩)
  rcases mem_append.1 hx with hx | hx
  · rw [Option.mem_toList.1 hx] at hcurrent
    rw [show x.receivedPayload = false from hcurrent] at hpayload
    cases hpayload
  obtain ⟨g', hg', rfl⟩ := mem_map.1 hx
  obtain ⟨j, hj⟩ := List.getElem?_of_mem hg'
  rcases Nat.lt_trichotomy j index with hlt | rfl | hgt
  · rw [restoreErases_front herases hnewest j g' hlt hj] at hpayload
    cases hpayload
  · rw [hplace] at hj
    cases hj
    exact .inl rfl
  refine .inr ?_
  rw [known_restore]
  refine mem_cons_of_mem _ (mem_map_of_mem (mem_of_getElem? (i := j - (index + 1)) ?_))
  rw [List.getElem?_drop, ← hj]
  congr 1
  omega

/-- A retirement keeps a known generation, unless it is shifted out. -/
theorem retire_keeps (hshaped : v.Shaped) {x : TrafficKey} (hx : x ∈ v.known i)
    (hnew : ∀ y ∈ v.known i, y.identity ≠ k.identity) :
    x ∈ (v.retire i k).known i ∨ ShiftedOut v (v.retire i k) (i, x.identity) := by
  cases hcurrent : v.receive.get i with
  | none =>
    rw [known, hcurrent, hshaped.seated i hcurrent] at hx
    cases hx
  | some c =>
    have hhistory : ((v.retire i k).history.get i).generations
        = ({ slot := c, ceiling := v.frontier.map Prod.snd } ::
          (v.history.get i).generations).take receiveKeyHistoryCapacity := by
      simp [retire, hcurrent, rememberReceiveKey]
    have hkept (g : ReceiveKeyGeneration) (hg : g ∈ ((v.retire i k).history.get i).generations) :
        g.slot ∈ (v.retire i k).known i :=
      mem_append_right _ (mem_map_of_mem hg)
    -- The generation with its place in front of or in the history.
    obtain ⟨g, hg, rfl⟩ : ∃ g ∈ ({ slot := c, ceiling := v.frontier.map Prod.snd } ::
        (v.history.get i).generations : List ReceiveKeyGeneration), g.slot = x := by
      rw [known, hcurrent] at hx
      rcases mem_cons.1 hx with rfl | hx
      · exact ⟨_, mem_cons_self, rfl⟩
      obtain ⟨g, hg, rfl⟩ := mem_map.1 hx
      exact ⟨g, mem_cons_of_mem _ hg, rfl⟩
    by_cases hfull : (v.history.get i).generations.length = receiveKeyHistoryCapacity
    · have hne : (v.history.get i).generations ≠ [] := by
        intro hnil
        rw [hnil] at hfull
        cases hfull
      have hshift : ((v.retire i k).history.get i).generations
          = { slot := c, ceiling := v.frontier.map Prod.snd } ::
            (v.history.get i).generations.dropLast := by
        rw [hhistory, dropLast_eq_take, hfull]
        rfl
      rw [← dropLast_concat_getLast hne, ← cons_append, ← hshift] at hg
      rcases mem_append.1 hg with hg | hg
      · exact .inl (hkept g hg)
      cases mem_singleton.1 hg
      refine .inr ⟨hfull, ⟨_, getLast?_eq_some_getLast hne, rfl⟩, c, k, hcurrent, ?_, hnew, hshift⟩
      simp [retire]
    have hbounded := hshaped.bounded i
    rw [take_of_length_le (by simp only [length_cons]; omega)] at hhistory
    rw [← hhistory] at hg
    exact .inl (hkept g hg)

/-- One installation keeps a marked generation that it does not restore, or
shifts it out. -/
theorem install_keeps (hshaped : v.Shaped) (hspares : v.SparesFront i k) {x : TrafficKey}
    (hx : x ∈ v.known i) (hmarked : v.Marked (i, x.identity))
    (hrestores : k.identity = x.identity → (v.receive.get i).any (·.identity == x.identity)) :
    (v.install i k).Marked (i, x.identity)
      ∧ (x ∈ (v.install i k).known i ∨ ShiftedOut v (v.install i k) (i, x.identity)) := by
  have hadds (hne : k.identity ≠ x.identity) : (v.install i k).Marked (i, x.identity) := by
    intro y hy hidentity
    rcases known_install hy with ⟨rfl, -⟩ | hy
    · exact absurd hidentity hne
    · exact hmarked y hy hidentity
  have hinstalls := v.installs_install i k
  generalize v.install i k = w at hinstalls hadds ⊢
  cases hinstalls with
  | same => exact ⟨hmarked, .inl hx⟩
  | restore index g place found current newest =>
    have hne : k.identity ≠ x.identity := by
      intro heq
      have hany := hrestores heq
      unfold isCurrent at current
      cases hc : v.receive.get i with
      | none =>
        rw [hc] at hany
        cases hany
      | some c =>
        rw [hc] at hany current
        have his : c.is k.key k.salt k.mode = true :=
          TrafficKey.is_iff.2 ((eq_of_beq hany).trans heq.symm)
        exact Bool.eq_false_iff.1 current his
    rcases restore_keeps place found newest hspares hx (hmarked x hx rfl) with rfl | hkept
    · exact absurd (TrafficKey.is_iff.1 found).symm hne
    · exact ⟨hadds hne, .inl hkept⟩
  | retire current retired =>
    have hnew : ∀ y ∈ v.known i, y.identity ≠ k.identity := by
      intro y hy hidentity
      rcases is_of_mem_known hy (TrafficKey.is_iff.2 hidentity) with hc | hr
      · rw [current] at hc
        cases hc
      rw [retired] at hr
      cases hr
    exact ⟨hadds (hnew x hx).symm, retire_keeps hshaped hx hnew⟩

section

variable (h : v.Shaped)
include h

/-- A current key with a history that is not too long. -/
theorem Shaped.seat {history : ReceiveKeyHistory}
    (hbound : history.generations.length ≤ receiveKeyHistoryCapacity) :
    Shaped { v with history := v.history.set i history, receive := v.receive.set i (some k) } := by
  refine ⟨fun j => ?_, fun j hnone => ?_⟩ <;> by_cases hj : j = i
  · simpa only [hj, get_set_self] using hbound
  · simpa only [get_set_of_ne _ _ hj] using h.bounded j
  · simp [hj] at hnone
  · simp only [get_set_of_ne _ _ hj] at hnone ⊢
    exact h.seated j hnone

theorem Shaped.install (i : KeySelector) (k : TrafficKey) : (v.install i k).Shaped := by
  have hinstalls := v.installs_install i k
  generalize v.install i k = w at hinstalls
  have hbound := h.bounded i
  cases hinstalls with
  | same => exact h
  | restore index => exact h.seat (Nat.le_trans (drop_sublist ..).length_le hbound)
  | retire =>
    refine h.seat ?_
    split
    · exact length_take_le _ _
    · exact hbound

theorem Shaped.installAll (keys : List (KeySelector × TrafficKey)) :
    (v.installAll keys).Shaped := by
  induction keys generalizing v with
  | nil => exact h
  | cons k keys ih => exact ih (h.install k.1 k.2)

theorem Shaped.of_same
    (hlength : ∀ j, (w.history.get j).generations.length = (v.history.get j).generations.length)
    (hreceive : ∀ j, w.receive.get j = none → v.receive.get j = none) : w.Shaped := by
  refine ⟨fun j => hlength j ▸ h.bounded j, ?_⟩
  intro j hnone
  have hempty := hlength j
  rw [h.seated j (hreceive j hnone)] at hempty
  exact length_eq_zero_iff.1 hempty

theorem Shaped.mark (i : KeySelector) (place : ReceivePlace) : (v.mark i place).Shaped := by
  cases place with
  | current =>
    refine h.of_same (fun _ => rfl) ?_
    intro j hnone
    by_cases hj : j = i
    · subst hj
      simpa [Receiver.mark] using hnone
    · simpa only [Receiver.mark, get_set_of_ne _ _ hj] using hnone
  | retired index =>
    refine h.of_same (fun j => ?_) (fun _ hnone => hnone)
    by_cases hj : j = i
    · subst hj
      simp [Receiver.mark]
    · simp only [Receiver.mark, get_set_of_ne _ _ hj]

theorem Shaped.note (sequence : SequenceNumber) : (v.note sequence).Shaped := by
  unfold Receiver.note
  split
  · exact h.of_same (fun _ => rfl) (fun _ hnone => hnone)
  dsimp only
  split
  · split
    · refine h.of_same (fun j => ?_) (fun _ hnone => hnone)
      cases j <;> simp [BySelector.get, rebaseHistory]
    · exact h.of_same (fun _ => rfl) (fun _ hnone => hnone)
  · exact h

end

end Receiver

theorem ReceiverStep.shaped {P : CryptoProvider} {c : CryptoCall} {s t : CryptoSession}
    (h : ReceiverStep P c s t) (hs : s.receiver.Shaped) : t.receiver.Shaped := by
  cases h with
  | keep h => rw [h]; exact hs
  | install request clone m u first remembered call opened accepts part h =>
    rw [h]
    exact (hs.installAll first).of_same (fun _ => rfl) (fun _ hnone => hnone)
  | clone empty h =>
    have hnil (i : KeySelector) : (t.receiver.history.get i).generations = [] := by
      rw [h.history]
      cases i <;> rfl
    exact ⟨fun i => by rw [hnil]; exact Nat.zero_le _, fun i _ => hnil i⟩
  | mark key sequence i place k slot h => rw [h]; exact hs.mark i place
  | markNote header ciphertext tag i place k call slot h =>
    rw [h]
    exact (hs.mark i place).note header.sequence
  | note sequence call h => rw [h]; exact hs.note sequence

/-! ## Marking -/

namespace Receiver

variable {v : Receiver} {i : KeySelector} {u : KeySelector × TrafficKey}

theorem mem_modify {α : Type} {f : α → α} {l : List α} {n : Nat} {a : α} (h : a ∈ l.modify n f) :
    ∃ m b, l[m]? = some b ∧ (m = n ∧ a = f b ∨ m ≠ n ∧ a = b) := by
  obtain ⟨m, hm⟩ := List.getElem?_of_mem h
  rw [List.getElem?_modify] at hm
  obtain ⟨b, hb, heq⟩ := Option.map_eq_some_iff.1 hm
  refine ⟨m, b, hb, ?_⟩
  split at heq
  · next hn => exact .inl ⟨hn.symm, heq.symm⟩
  · next hn => exact .inr ⟨Ne.symm hn, heq.symm⟩

theorem mem_known_mark {place : ReceivePlace} {j : KeySelector} {x : TrafficKey}
    (hx : x ∈ (v.mark i place).known j) : x ∈ v.known j ∨ x.receivedPayload = true := by
  by_cases hj : j = i
  · subst hj
    cases place with
    | current =>
      simp only [known, Receiver.mark, get_set_self] at hx
      rcases mem_append.1 hx with hx | hx
      · obtain ⟨k, -, rfl⟩ := Option.map_eq_some_iff.1 (Option.mem_toList.1 hx)
        exact .inr rfl
      · exact .inl (mem_append_right _ hx)
    | retired index =>
      simp only [known, Receiver.mark, get_set_self] at hx
      rcases mem_append.1 hx with hx | hx
      · exact .inl (mem_append_left _ hx)
      obtain ⟨g, hg, rfl⟩ := mem_map.1 hx
      obtain ⟨m, b, hb, ⟨-, rfl⟩ | ⟨-, rfl⟩⟩ := mem_modify hg
      · exact .inr rfl
      · exact .inl (mem_append_right _ (mem_map_of_mem (mem_of_getElem? hb)))
  refine .inl ?_
  cases place <;>
  · simp only [known, Receiver.mark, get_set_of_ne _ _ hj] at hx
    exact hx

theorem Marked.mark (h : v.Marked u) (place : ReceivePlace) : (v.mark i place).Marked u := by
  intro x hx hidentity
  rcases mem_known_mark hx with hx | hpayload
  · exact h x hx hidentity
  · exact hpayload

theorem marked_mark (honce : v.Once) {place : ReceivePlace} {k : TrafficKey} (hk : match place with
      | .current => v.receive.get i = some k
      | .retired index => ((v.history.get i).generations[index]?).map ReceiveKeyGeneration.slot
        = some k) : (v.mark i place).Marked (i, k.identity) := by
  have hnodup := honce i
  rw [known, map_append, nodup_append] at hnodup
  obtain ⟨-, hhistory, hacross⟩ := hnodup
  intro x hx hidentity
  cases place with
  | current =>
    simp only [known, Receiver.mark, get_set_self] at hx
    rcases mem_append.1 hx with hx | hx
    · obtain ⟨_, -, rfl⟩ := Option.map_eq_some_iff.1 (Option.mem_toList.1 hx)
      rfl
    refine absurd (TrafficKey.key_of_identity hidentity).symm (hacross _ ?_ _ (mem_map_of_mem hx))
    exact mem_map_of_mem (Option.mem_toList.2 hk)
  | retired index =>
    obtain ⟨g, hg, rfl⟩ := Option.map_eq_some_iff.1 hk
    simp only [known, Receiver.mark, get_set_self] at hx
    rcases mem_append.1 hx with hx | hx
    · refine absurd (TrafficKey.key_of_identity hidentity) (hacross _ (mem_map_of_mem hx) _ ?_)
      exact mem_map_of_mem (mem_map_of_mem (mem_of_getElem? hg))
    obtain ⟨g', hg', rfl⟩ := mem_map.1 hx
    obtain ⟨m, b, hb, ⟨-, rfl⟩ | ⟨hm, rfl⟩⟩ := mem_modify hg'
    · rfl
    refine absurd ((List.getElem?_inj ?_ hhistory).1 ?_) hm
    · simpa using (List.getElem?_eq_some_iff.1 hb).1
    simp only [List.getElem?_map, hb, hg, Option.map_some]
    rw [TrafficKey.key_of_identity hidentity]

end Receiver

/-! ## Runs -/

namespace Reception

variable {P : CryptoProvider} {x : Reception} {c : CryptoCall}

/-- What every reached reception satisfies. -/
structure Sound (x : Reception) : Prop where
  once : x.session.receiver.Once
  shaped : x.session.receiver.Shaped
  held : ∀ u ∈ x.received, x.session.receiver.holds u = true
  marked : ∀ u ∈ x.received, x.session.receiver.Marked u

theorem holds_congr {v w : Receiver} {u : KeySelector × TrafficKey}
    (h : (w.known u.1).map TrafficKey.identity = (v.known u.1).map TrafficKey.identity)
    (hv : v.holds u = true) : w.holds u = true := by
  obtain ⟨k, hk, hidentity⟩ := holds_iff.1 hv
  have hmem := mem_map_of_mem (f := TrafficKey.identity) hk
  rw [← h] at hmem
  obtain ⟨k', hk', heq⟩ := mem_map.1 hmem
  exact holds_iff.2 ⟨k', hk', heq.trans hidentity⟩

theorem opens_of_run {request : Bytes} {s t : CryptoSession} {m : OpenedKeyMaterial}
    (h : openKeyMaterial P request s = .ok m t) : Opens P request m := by
  have hopens := openKeyMaterial_receiver (P := P) (s := s) request
  unfold Ensures at hopens
  rw [h] at hopens
  exact hopens.2

/-- What a request does to a marked generation. -/
theorem installAll_keeps {v w : Receiver} {m : OpenedKeyMaterial}
    {first : List (KeySelector × TrafficKey)} {i : KeySelector} {k : TrafficKey}
    (hshaped : v.Shaped) (haccepts : v.Accepts m) (hselectors : (m.keys.map Prod.fst).Nodup)
    (hfirst : first <+: m.slots) (hw : w.lane i = (v.installAll first).lane i)
    (hk : k ∈ v.known i) (hmarked : v.Marked (i, k.identity))
    (hrestores : ∀ k', (i, k') ∈ m.slots → k'.identity = k.identity →
      (v.receive.get i).any (·.identity == k.identity)) :
    w.Marked (i, k.identity)
      ∧ (w.holds (i, k.identity) = true ∨ ShiftedOut v w (i, k.identity)) := by
  have hnodup : (first.map Prod.fst).Nodup := by
    refine List.Nodup.sublist ((hfirst.sublist).map _) ?_
    simpa [OpenedKeyMaterial.slots, Function.comp_def] using hselectors
  have hmarks {w' : Receiver} (hlane : w.lane i = w'.lane i) (hm : w'.Marked (i, k.identity)) :
      w.Marked (i, k.identity) := by
    intro y hy
    exact hm y (by rw [← known_of_lane hlane]; exact hy)
  have hholds {w' : Receiver} (hlane : w.lane i = w'.lane i) (hmem : k ∈ w'.known i) :
      w.holds (i, k.identity) = true :=
    holds_iff.2 ⟨k, known_of_lane hlane ▸ hmem, rfl⟩
  rcases installAll_lane i (v := v) hnodup with ⟨-, hlane⟩ | ⟨k', hk', hlane⟩
  · exact ⟨hmarks (hw.trans hlane) hmarked, .inl (hholds (hw.trans hlane) hk)⟩
  have hlane := hw.trans hlane
  obtain ⟨hreceive, hhistory, -⟩ : w.receive.get i = (v.install i k').receive.get i
      ∧ w.history.get i = (v.install i k').history.get i ∧ _ := by
    simpa only [lane, Prod.mk.injEq] using hlane
  have hspares : v.SparesFront i k' := by
    obtain ⟨key, hkey, heq⟩ := mem_map.1 (hfirst.subset hk')
    cases heq
    exact haccepts.spare key hkey
  obtain ⟨hm, hmem | hshifted⟩ :=
    install_keeps hshaped hspares hk hmarked (hrestores k' (hfirst.subset hk'))
  · exact ⟨hmarks hlane hm, .inl (hholds hlane hmem)⟩
  refine ⟨hmarks hlane hm, .inr ⟨hshifted.full, hshifted.oldest, ?_⟩⟩
  obtain ⟨current, next, hcurrent, hnext, hnew, hgenerations⟩ := hshifted.newer
  exact ⟨current, next, hcurrent, hreceive.trans hnext, hnew, by
    rw [show w.history.get (i, k.identity).1 = _ from hhistory]
    exact hgenerations⟩

/-- What a call does to a generation that has received DATA. -/
theorem Sound.kept (h : Sound x) (hc : Spares P x c) {u : KeySelector × TrafficKey}
    (hu : u ∈ x.received) :
    (x.session.after P c).receiver.Marked u ∧ ((x.session.after P c).receiver.holds u = true
        ∨ ShiftedOut x.session.receiver (x.session.after P c).receiver u) := by
  have hstep := after_receiverStep P x.session c
  have hheld := h.held u hu
  have hmarked := h.marked u hu
  obtain ⟨i, identity⟩ := u
  obtain ⟨k, hk, rfl⟩ : ∃ k ∈ x.session.receiver.known i, k.identity = identity := holds_iff.1 hheld
  generalize x.session.after P c = t at hstep
  cases hstep with
  | keep h => rw [h]; exact ⟨hmarked, .inl hheld⟩
  | install request clone m u first remembered call opened accepts part ht =>
    refine installAll_keeps h.shaped accepts (opens_of_run opened).selectors part ?_ hk hmarked ?_
    · rw [ht]
      rfl
    intro k' hk' heq
    have hcarried : (i, k') ∈ carried P x.session c := by
      rw [call, carried, opened]
      exact hk'
    rw [← heq]
    exact hc (i, k') hcarried (heq ▸ hu)
  | clone empty ht =>
    have hnone : x.session.receiver.receive.get i = none := by
      show x.session.receive.get i = none
      rw [empty]
      cases i <;> rfl
    rw [known, hnone, h.shaped.seated i hnone] at hk
    cases hk
  | mark key sequence j place k' slot ht =>
    rw [ht]
    exact ⟨hmarked.mark place, .inl (holds_congr (known_mark place i) hheld)⟩
  | markNote header ciphertext tag j place k' call slot ht =>
    have hm := hmarked.mark (i := j) place
    rw [ht]
    refine ⟨?_, .inl (holds_congr ?_ hheld)⟩
    · intro y hy
      rw [known_note] at hy
      exact hm y hy
    rw [known_note]
    exact known_mark place i
  | note sequence call ht =>
    rw [ht]
    refine ⟨?_, .inl (holds_congr (by rw [known_note]) hheld)⟩
    intro y hy
    rw [known_note] at hy
    exact hmarked y hy

theorem receiveKeyAt_of_slot {s : CryptoSession} {key : EncryptionKey} {sequence : SequenceNumber}
    {i : KeySelector} {place : ReceivePlace} {k : TrafficKey}
    (h : s.receiveSlotForPacket key sequence = some (i, place, k)) :
    key.selector = some i ∧ s.receiveKeyAt i place = some k := by
  simp only [receiveSlotForPacket, Option.bind_eq_bind, Option.bind_eq_some_iff, Option.pure_def,
    Option.some.injEq, Prod.mk.injEq] at h
  obtain ⟨j, hj, place', -, k', hk', rfl, rfl, rfl⟩ := h
  exact ⟨hj, hk'⟩

/-- The generation whose payload was decrypted is marked. -/
theorem marked_generationOf (honce : x.session.receiver.Once) {u : KeySelector × TrafficKey}
    (hu : generationOf P x.session c = some u) : (x.session.after P c).receiver.Marked u := by
  have hmark {key : EncryptionKey} {sequence : SequenceNumber}
      (hu : generationFor x.session key sequence = some u) :
      ∃ i place k, x.session.receiveSlotForPacket key sequence = some (i, place, k)
        ∧ (x.session.receiver.mark i place).Marked u := by
    obtain ⟨⟨i, place, k⟩, hslot, rfl⟩ := Option.map_eq_some_iff.1 hu
    refine ⟨i, place, k, hslot, marked_mark honce ?_⟩
    have hk := (receiveKeyAt_of_slot hslot).2
    cases place <;> exact hk
  unfold generationOf at hu
  split at hu
  · next hok =>
    cases c with
    | decrypt key sequence ciphertext =>
      obtain ⟨i, place, k, hslot, hmarked⟩ := hmark hu
      refine after_of_succeeds (c := .decrypt key sequence ciphertext)
        (Q := fun t => t.receiver.Marked u)
        (ensures_discard.2 ((decrypt_receiver key sequence ciphertext).mono ?_ (fun _ _ h => h)))
        hok
      rintro _ t (⟨rfl, -⟩ | ⟨i', place', k', hslot', ht⟩)
      · cases hslot
      rw [hslot] at hslot'
      cases hslot'
      rw [ht]
      exact hmarked
    | openPacket header ciphertext tag =>
      obtain ⟨i, place, k, hslot, hmarked⟩ := hmark hu
      refine after_of_succeeds (c := .openPacket header ciphertext tag)
        (Q := fun t => t.receiver.Marked u)
        (ensures_discard.2 ((openPacket_receiver header ciphertext tag).mono ?_
          (fun _ _ h => h))) hok
      rintro _ t ⟨i', place', k', hslot', ht⟩
      rw [hslot] at hslot'
      cases hslot'
      rw [ht]
      intro y hy
      rw [known_note] at hy
      exact hmarked y hy
    | _ => cases hu
  · cases hu

theorem Sound.step (h : Sound x) (hc : Spares P x c) : Sound (x.step P c) := by
  have hreceiver := after_receiverStep P x.session c
  refine ⟨hreceiver.once h.once, hreceiver.shaped h.shaped, ?_, ?_⟩
  · intro u hu
    exact (mem_filter.1 hu).2
  intro u hu
  rcases mem_append.1 (mem_filter.1 hu).1 with hu | hu
  · exact marked_generationOf h.once (Option.mem_toList.1 hu)
  · exact (h.kept hc hu).1

theorem sound_of_reaches (h : Lts.Reaches (system P) (Spares P) x) : Sound x := by
  refine h.invariant ?_ ?_
  · rintro _ ⟨c, rfl⟩
    obtain ⟨-, hreceiver⟩ := ofConfiguration_keys P c
    refine ⟨?_, ?_, nofun, nofun⟩
    · rw [hreceiver]
      exact fun i => by cases i <;> exact .nil
    rw [hreceiver]
    exact ⟨fun i => by cases i <;> exact Nat.zero_le _, fun i _ => by cases i <;> rfl⟩
  rintro x c _ _ hx hc rfl
  exact hx.step hc

/-- In a run whose requests carry no retired key that has received DATA, a
generation that has ends only by being shifted out of a full history by a newer
key. -/
theorem received_generation_shifted_out (P : CryptoProvider) (x : Reception)
    (h : Lts.Reaches (system P) (Spares P) x) (c : CryptoCall) (hc : Spares P x c)
    (u : KeySelector × TrafficKey) (hu : u ∈ x.received) :
    (x.step P c).session.receiver.holds u = true
      ∨ ShiftedOut x.session.receiver (x.step P c).session.receiver u :=
  ((sound_of_reaches h).kept hc hu).2

def exampleReception : Reception :=
  { session := ofConfiguration (exampleProvider []) exampleConfiguration }

/-- An example key with the salt of the example requests. -/
def exampleGeneration (b : UInt8) : KeySelector × TrafficKey :=
  (.even, { salt := replicate 16 7, key := exampleKey b, mode := .aesCtr })

/-- The second of two keys receives DATA. -/
def receivedRun : Reception :=
  [CryptoCall.acceptKeyMaterial (exampleMaterial .even (exampleKey 1)) false,
    .acceptKeyMaterial (exampleMaterial .even (exampleKey 2)) false,
    .decrypt .even (.ofNat 0) [1]].foldl (step (exampleProvider [])) exampleReception

theorem received_generation_shifted_out_receivedRun :
    exampleGeneration 2 ∈ receivedRun.received
      ∧ ((receivedRun.step (exampleProvider [])
          (.acceptKeyMaterial (exampleMaterial .even (exampleKey 3)) false)).session.receiver.holds
            (exampleGeneration 2) = true
        ∨ ShiftedOut receivedRun.session.receiver (receivedRun.step (exampleProvider [])
          (.acceptKeyMaterial (exampleMaterial .even (exampleKey 3)) false)).session.receiver
            (exampleGeneration 2)) := by
  have hstart : Lts.Reaches (system (exampleProvider [])) (Spares (exampleProvider []))
      exampleReception := .start ⟨exampleConfiguration, rfl⟩
  have hreceived : exampleGeneration 2 ∈ receivedRun.received := by decide +kernel
  exact ⟨hreceived, received_generation_shifted_out (exampleProvider []) receivedRun
    (hstart.foldl (by decide +kernel)) _ (by decide +kernel) _ hreceived⟩

/-- A third key retires it, and it comes back with a new key for the other
selector. -/
def restoredRun : Reception :=
  [CryptoCall.acceptKeyMaterial (exampleMaterial .even (exampleKey 3)) false,
    .acceptKeyMaterial (exampleMaterial .reserved (exampleKey 2 ++ exampleKey 4)) false].foldl
    (step (exampleProvider [])) receivedRun

/-- The first key with another new one for the other selector. -/
def restoringCall : CryptoCall :=
  .acceptKeyMaterial (exampleMaterial .reserved (exampleKey 1 ++ exampleKey 5)) false

/-- It has lost its mark, and the restoration of the first key erases it. -/
theorem restoration_erases_received_generation :
    Lts.Reachable (system (exampleProvider [])) restoredRun
      ∧ exampleGeneration 2 ∈ restoredRun.received
      ∧ (restoredRun.step (exampleProvider []) restoringCall).session.receiver.holds
          (exampleGeneration 2) = false
      ∧ ¬ShiftedOut restoredRun.session.receiver
          (restoredRun.step (exampleProvider []) restoringCall).session.receiver
          (exampleGeneration 2) := by
  have hstart : Lts.Reachable (system (exampleProvider [])) exampleReception :=
    .start ⟨exampleConfiguration, rfl⟩
  have hreceived : Lts.Reachable (system (exampleProvider [])) receivedRun :=
    hstart.foldl (by decide +kernel)
  refine ⟨hreceived.foldl (by decide +kernel), by decide +kernel, by decide +kernel, ?_⟩
  intro hshifted
  have hlength : (restoredRun.session.receiver.history.get .even).generations.length = 1 := by
    decide +kernel
  have hfull := hshifted.full
  rw [show (exampleGeneration 2).1 = .even from rfl, hlength] at hfull
  cases hfull

end Reception

end Srt
