/-
# `Crypto.Replay` — what a repeated or relabelled request can do

The keys a receiver knows are those of its two slots and of both histories.
`install_cases` says what the installation of a key does to the keys of its
selector: nothing, a restoration, or a retirement of the current key.  From it
follow that no key is ever known twice, and that a request which carries only
known keys installs nothing.
-/
import Srt.Crypto.Receiver

namespace Srt

open Fallible CryptoSession List TrafficKey Receiver

/-! ## Installing one key -/

namespace Receiver

variable (v : Receiver) (i : KeySelector) (k : TrafficKey)

/-- The key comes back from the history, and every newer key is given up. -/
def restore (index : Nat) : Receiver :=
  { v with
    history := v.history.set i { v.history.get i with
      generations := (v.history.get i).generations.drop (index + 1) }
    receive := v.receive.set i (some k) }

/-- The current key retires, if there is one. -/
def retire : Receiver :=
  { v with
    history := v.history.set i (match v.receive.get i with
      | some c => rememberReceiveKey (v.history.get i) c (v.frontier.map Prod.snd)
      | none => v.history.get i)
    receive := v.receive.set i (some k) }

/-- What `install_receive_key` does. -/
inductive Installs : Receiver → Prop
  | same (current : v.isCurrent i k.key k.salt k.mode = true) : Installs v
  | restore (index : Nat) (g : ReceiveKeyGeneration)
      (place : (v.history.get i).generations[index]? = some g)
      (found : g.slot.is k.key k.salt k.mode = true)
      (current : v.isCurrent i k.key k.salt k.mode = false)
      (newest : ∀ (j : Nat) g', j < index → (v.history.get i).generations[j]? = some g' →
        g'.slot.is k.key k.salt k.mode = false) :
      Installs (v.restore i k index)
  | retire (current : v.isCurrent i k.key k.salt k.mode = false)
      (retired : v.isRetired i k.key k.salt k.mode = false) : Installs (v.retire i k)

theorem installs_install : Installs v i k (v.install i k) := by
  unfold install
  split
  · next hcurrent => exact .same hcurrent
  next hcurrent =>
  have hcurrent : v.isCurrent i k.key k.salt k.mode = false := Bool.eq_false_iff.2 hcurrent
  cases hfind : (v.history.get i).generations.findIdx? (fun g => g.slot.is k.key k.salt k.mode) with
  | some index =>
    obtain ⟨hlt, hfound, hnewest⟩ := findIdx?_eq_some_iff_getElem.1 hfind
    have heq : v.replace i k = v.restore i k index := by
      unfold replace displaceReceiveKey
      rw [hfind]
      rfl
    rw [heq]
    refine .restore index _ (List.getElem?_eq_getElem hlt) hfound hcurrent ?_
    intro j g hj hg
    obtain ⟨hlt', rfl⟩ := List.getElem?_eq_some_iff.1 hg
    exact Bool.eq_false_iff.2 (hnewest j hj)
  | none =>
    have heq : v.replace i k = v.retire i k := by
      unfold replace displaceReceiveKey
      rw [hfind]
      rfl
    rw [heq]
    refine .retire hcurrent (any_eq_false.2 ?_)
    intro g hg
    exact Bool.eq_false_iff.1 (findIdx?_eq_none_iff.1 hfind g hg)

/-! ## The known keys behind an installation -/

variable {v : Receiver} {i : KeySelector} {k : TrafficKey}

theorem known_restore (index : Nat) : (v.restore i k index).known i
    = k :: ((v.history.get i).generations.drop (index + 1)).map ReceiveKeyGeneration.slot := by
  simp [known, restore]

/-- Behind a retirement the older keys are known keys, in their order. -/
theorem known_retire : ∃ older, older.Sublist (v.known i)
    ∧ (v.retire i k).known i = k :: older := by
  cases hcurrent : v.receive.get i with
  | none =>
    refine ⟨v.known i, List.Sublist.refl _, ?_⟩
    simp [known, retire, hcurrent]
  | some c =>
    refine ⟨(v.known i).take receiveKeyHistoryCapacity, take_sublist _ _, ?_⟩
    simp [known, retire, hcurrent, rememberReceiveKey, map_take]

variable {j : KeySelector}

theorem known_install_other (h : j ≠ i) : (v.install i k).known j = v.known j := by
  have hset {α : Type} (p : BySelector α) (a : α) : (p.set i a).get j = p.get j :=
    p.get_set_of_ne a h
  generalize hw : v.install i k = w
  have hinstalls := v.installs_install i k
  rw [hw] at hinstalls
  cases hinstalls with
  | same => rfl
  | restore => simp only [known, restore, hset]
  | retire => simp only [known, retire, hset]

variable {x : TrafficKey}

theorem known_install (hx : x ∈ (v.install i k).known j) : x = k ∧ j = i ∨ x ∈ v.known j := by
  by_cases hj : j = i
  · subst hj
    generalize hw : v.install j k = w at hx
    have hinstalls := v.installs_install j k
    rw [hw] at hinstalls
    cases hinstalls with
    | same => exact .inr hx
    | restore index =>
      rw [known_restore] at hx
      refine (mem_cons.1 hx).imp (fun h => ⟨h, rfl⟩) fun hx => ?_
      obtain ⟨g, hg, rfl⟩ := mem_map.1 hx
      exact mem_append_right _ (mem_map_of_mem (mem_of_mem_drop hg))
    | retire =>
      obtain ⟨older, hsub, hknown⟩ := known_retire (v := v) (i := j) (k := k)
      rw [hknown] at hx
      exact (mem_cons.1 hx).imp (fun h => ⟨h, rfl⟩) fun hx => hsub.subset hx
  rw [known_install_other hj] at hx
  exact .inr hx

/-- No selector knows a key twice. -/
def Once (v : Receiver) : Prop := ∀ i, ((v.known i).map key).Nodup

/-- No key is known twice. -/
structure Unique (v : Receiver) : Prop where
  each : v.Once
  across : ∀ i, ∀ a ∈ v.known i, ∀ b ∈ v.known i.other, a.key ≠ b.key

/-- A key that is known, if it is, as what it is installed as. -/
def Consistent (v : Receiver) (i : KeySelector) (k : TrafficKey) : Prop :=
  ∀ j, ∀ x ∈ v.known j, x.key = k.key → j = i ∧ x.is k.key k.salt k.mode = true

theorem key_of_is {key salt : Bytes} {mode : CryptoMode}
    (h : x.is key salt mode = true) : x.key = key ∧ x.salt = salt ∧ x.mode = mode := by
  simp only [is, Bool.and_eq_true, beq_iff_eq] at h
  exact ⟨h.1.2, h.2, h.1.1⟩

/-- A known key is the current one or a retired one. -/
theorem is_of_mem_known (hx : x ∈ v.known i) {key salt : Bytes}
    {mode : CryptoMode} (his : x.is key salt mode = true) :
    v.isCurrent i key salt mode = true ∨ v.isRetired i key salt mode = true := by
  rcases mem_append.1 hx with hx | hx
  · refine .inl ?_
    rw [isCurrent, Option.mem_toList.1 hx]
    exact his
  obtain ⟨g, hg, rfl⟩ := mem_map.1 hx
  exact .inr (any_eq_true.2 ⟨g, hg, his⟩)

theorem Once.install (h : v.Once) (hk : v.Consistent i k) : (v.install i k).Once := by
  intro j
  by_cases hj : j = i
  · subst hj
    have hinstalls := v.installs_install j k
    generalize v.install j k = w at hinstalls
    cases hinstalls with
    | same => exact h j
    | restore index g place found =>
      obtain ⟨hlt, rfl⟩ := List.getElem?_eq_some_iff.1 place
      rw [known_restore, map_cons, ← (key_of_is found).1, ← map_cons]
      refine ((h j).sublist (List.Sublist.map _ ?_))
      rw [← map_cons (f := ReceiveKeyGeneration.slot), ← drop_eq_getElem_cons hlt]
      exact ((drop_sublist _ _).map _).trans (sublist_append_right _ _)
    | retire current retired =>
      obtain ⟨older, hsub, hknown⟩ := known_retire (v := v) (i := j) (k := k)
      rw [hknown, map_cons, nodup_cons]
      refine ⟨?_, (h j).sublist (hsub.map _)⟩
      intro hmem
      obtain ⟨x, hx, hkey⟩ := mem_map.1 hmem
      have hx := hsub.subset hx
      rcases is_of_mem_known hx (hk j x hx hkey).2 with hcurrent | hretired
      · rw [current] at hcurrent
        cases hcurrent
      rw [retired] at hretired
      cases hretired
  rw [known_install_other hj]
  exact h j

theorem Unique.install (h : Unique v) (hk : v.Consistent i k) : Unique (v.install i k) := by
  have hother : i ≠ i.other := by cases i <;> exact nofun
  refine ⟨h.each.install hk, ?_⟩
  intro j a ha b hb hkey
  rcases known_install ha with ⟨rfl, rfl⟩ | hold
  · rcases known_install hb with ⟨-, hj⟩ | hb
    · exact hother hj.symm
    · exact hother (hk _ b hb hkey.symm).1.symm
  rcases known_install hb with ⟨rfl, rfl⟩ | hb
  · exact hother (by rw [KeySelector.other_other]; exact ((hk j a hold hkey).1).symm)
  · exact h.across j a hold b hb hkey

/-- What each consistent installation keeps, a whole request keeps. -/
theorem installAll_induction {I : Receiver → Prop}
    (hI : ∀ v i k, I v → v.Consistent i k → I (v.install i k)) :
    ∀ {keys : List (KeySelector × TrafficKey)} {v : Receiver}, I v →
      keys.Pairwise (fun a b => a.2.key ≠ b.2.key) → (∀ k ∈ keys, v.Consistent k.1 k.2) →
      I (v.installAll keys)
  | [], _, h, _, _ => h
  | (i, k) :: keys, v, h, hdistinct, hk => by
    rw [pairwise_cons] at hdistinct
    show I ((v.install i k).installAll keys)
    refine installAll_induction hI (hI v i k h (hk (i, k) mem_cons_self)) hdistinct.2 ?_
    intro k' hk' j x hx hkey
    rcases known_install hx with ⟨rfl, rfl⟩ | hx
    · exact absurd hkey (hdistinct.1 k' hk')
    · exact hk k' (mem_cons_of_mem _ hk') j x hx hkey

/-- A request that is accepted is consistent with what is known. -/
theorem Accepts.consistent {m : OpenedKeyMaterial} (h : v.Accepts m) :
    m.slots.Pairwise (fun a b => a.2.key ≠ b.2.key) ∧ ∀ k ∈ m.slots, v.Consistent k.1 k.2 := by
  refine ⟨pairwise_map.2 h.distinct, ?_⟩
  intro k hk j x hx hkey
  obtain ⟨key, hmem, rfl⟩ := mem_map.1 hk
  exact h.identity key hmem j x hx hkey

theorem known_note (sequence : SequenceNumber) (j : KeySelector) :
    (v.note sequence).known j = v.known j := by
  have hrebase (highest : Int) (h : ReceiveKeyHistory) :
      (rebaseHistory highest h).generations.map ReceiveKeyGeneration.slot
        = h.generations.map ReceiveKeyGeneration.slot := by
    simp [rebaseHistory, Function.comp_def]
  unfold note
  split
  · rfl
  dsimp only
  split
  · split
    · cases j <;> exact congrArg _ (hrebase _ _)
    · rfl
  · rfl

theorem map_modify_of_eq {α β : Type} {f : α → α} {g : α → β} (hf : ∀ a, g (f a) = g a)
    (l : List α) (n : Nat) : (l.modify n f).map g = l.map g := by
  induction l generalizing n with
  | nil => cases n <;> rfl
  | cons a l ih =>
    cases n with
    | zero => simp [hf]
    | succ n => simp [ih]

theorem known_mark (place : ReceivePlace) (j : KeySelector) :
    ((v.mark i place).known j).map identity = (v.known j).map identity := by
  by_cases hj : j = i
  · subst hj
    cases place with
    | current =>
      simp only [known, mark, BySelector.get_set_self, map_append]
      cases v.receive.get j <;> rfl
    | retired index =>
      simp only [known, mark, BySelector.get_set_self, map_append, map_map]
      congr 1
      exact map_modify_of_eq (by intro; rfl) _ _
  · cases place <;> simp only [known, mark, BySelector.get_set_of_ne _ _ hj]

variable {w : Receiver}

theorem keys_of_identity (hw : (w.known j).map identity = (v.known j).map identity) :
    (w.known j).map key = (v.known j).map key := by
  have hkey : key = key ∘ identity := rfl
  rw [hkey, ← map_map, hw, map_map]

theorem Once.of_identity (h : v.Once)
    (hw : ∀ j, (w.known j).map identity = (v.known j).map identity) :
    w.Once := by
  intro j
  rw [keys_of_identity (hw j)]
  exact h j

theorem Unique.of_identity (h : Unique v)
    (hw : ∀ j, (w.known j).map identity = (v.known j).map identity) :
    Unique w := by
  refine ⟨h.each.of_identity hw, ?_⟩
  intro j a ha b hb hkey
  have ha := mem_map_of_mem (f := key) ha
  have hb := mem_map_of_mem (f := key) hb
  rw [keys_of_identity (hw _)] at ha hb
  obtain ⟨a', ha', hakey⟩ := mem_map.1 ha
  obtain ⟨b', hb', hbkey⟩ := mem_map.1 hb
  exact h.across j a' ha' b' hb' (by rw [hakey, hbkey, hkey])

end Receiver

/-! ## Keys are known once -/

/-- The two transmit keys differ. -/
def SlotsApart (s : CryptoSession) : Prop :=
  ∀ i, ∀ a ∈ s.transmit.get i, ∀ b ∈ s.transmit.get i.other, a.key ≠ b.key

section Runs

variable {P : CryptoProvider} {s₀ s t : CryptoSession} {c : CryptoCall}

theorem SlotsApart.of_none {i : KeySelector} (h : s.transmit.get i = none) : SlotsApart s := by
  intro j a ha b hb
  by_cases hj : j = i
  · subst hj
    rw [h] at ha
    cases ha
  have hother : j.other = i := by cases i <;> cases j <;> first | rfl | exact absurd rfl hj
  rw [hother, h] at hb
  cases hb

theorem SlotsApart.next (hfresh : FreshKeys P) (hknown : SlotsKnown P s) {i : KeySelector}
    {current k : TrafficKey} (hcurrent : s.transmit.get i = some current) (hdrew : Drew P s t k.key)
    (htransmit : t.transmit = s.transmit.set i.other (some k)) : SlotsApart t := by
  have hne : current.key ≠ k.key := hdrew.ne hfresh (hknown i current hcurrent).drawn
  intro j a ha b hb
  rw [htransmit] at ha hb
  by_cases hj : j = i
  · subst hj
    rw [BySelector.get_other_set, hcurrent] at ha
    rw [BySelector.get_set_self] at hb
    cases ha
    cases hb
    exact hne
  have hj : j = i.other := by cases i <;> cases j <;> first | rfl | exact absurd rfl hj
  subst hj
  rw [BySelector.get_set_self] at ha
  rw [KeySelector.other_other, BySelector.get_other_set, hcurrent] at hb
  cases ha
  cases hb
  exact hne.symm

theorem SenderStep.slotsApart (hfresh : FreshKeys P) (h : SenderStep P s₀ c s t)
    (hknown : SlotsKnown P s) (hs : SlotsApart s) : SlotsApart t := by
  rcases h.transmit_cases with heq | heq | ⟨i, k, drew, heq, ⟨empty, rfl, -⟩ | ⟨_, ready, rfl, -⟩⟩
  · unfold SlotsApart
    rw [heq]
    exact hs
  · exact .of_none (i := .even) (by rw [heq]; rfl)
  · exact .of_none (i := .odd) (by rw [heq, empty]; rfl)
  · exact .next hfresh hknown ready drew heq

/-- What every reachable session satisfies. -/
structure KnownOnce (P : CryptoProvider) (s : CryptoSession) : Prop where
  wellFormed : SenderWellFormed s
  slots : SlotsKnown P s
  apart : SlotsApart s
  unique : s.receiver.Unique

theorem Cloned.known {transmit : BySelector (Option TrafficKey)} {v : Receiver}
    (h : Cloned transmit v) (i : KeySelector) : v.known i = (v.receive.get i).toList := by
  rw [Receiver.known, h.history]
  cases i <;> simp [BySelector.get]

theorem ReceiverStep.once (h : ReceiverStep P c s t) (hs : s.receiver.Once) : t.receiver.Once := by
  cases h with
  | keep h => rw [h]; exact hs
  | install request clone m u first remembered call opened accepts part h =>
    obtain ⟨hdistinct, hconsistent⟩ := accepts.consistent
    rw [h]
    exact installAll_induction (I := Receiver.Once) (fun _ _ _ => Receiver.Once.install)
      hs (hdistinct.sublist part.sublist) (fun k hk => hconsistent k (part.subset hk))
  | clone empty h =>
    intro i
    rw [h.known]
    cases t.receiver.receive.get i <;> simp
  | mark key sequence i place k slot h =>
    rw [h]
    exact hs.of_identity fun j => known_mark place j
  | markNote header ciphertext tag i place k call slot h =>
    rw [h]
    exact hs.of_identity fun j => by
      rw [known_note]
      exact known_mark place j
  | note sequence call h =>
    rw [h]
    exact hs.of_identity fun j => by rw [known_note]

theorem ReceiverStep.unique (h : ReceiverStep P c s t) (hs : KnownOnce P s) :
    t.receiver.Unique := by
  have honce : t.receiver.Once := h.once hs.unique.each
  cases h with
  | keep h => rw [h]; exact hs.unique
  | install request clone m u first remembered call opened accepts part h =>
    obtain ⟨hdistinct, hconsistent⟩ := accepts.consistent
    have hall : (s.receiver.installAll first).Unique :=
      installAll_induction (fun _ _ _ => Receiver.Unique.install)
        hs.unique (hdistinct.sublist part.sublist) (fun k hk => hconsistent k (part.subset hk))
    rw [h]
    exact ⟨hall.each, hall.across⟩
  | clone empty h =>
    refine ⟨honce, ?_⟩
    intro i a ha b hb
    rw [h.known, Option.mem_toList] at ha hb
    obtain ⟨source, hsource, -, rfl⟩ := h.source i a ha
    obtain ⟨source', hsource', -, rfl⟩ := h.source i.other b hb
    exact hs.apart i source hsource source' hsource'
  | mark key sequence i place k slot h =>
    rw [h]
    exact hs.unique.of_identity fun j => known_mark place j
  | markNote header ciphertext tag i place k call slot h =>
    rw [h]
    exact hs.unique.of_identity fun j => by
      rw [known_note]
      exact known_mark place j
  | note sequence call h =>
    rw [h]
    exact hs.unique.of_identity fun j => by rw [known_note]

theorem KnownOnce.after (hfresh : FreshKeys P) (hs : KnownOnce P s) (c : CryptoCall) :
    KnownOnce P (s.after P c) := by
  have hsteps := after_steps (P := P) hs.wellFormed c
  have hslots : SlotsKnown P (s.after P c) ∧ SlotsApart (s.after P c) := by
    generalize s.after P c = t at hsteps
    induction hsteps with
    | refl => exact ⟨hs.slots, hs.apart⟩
    | tail _ hstep ih => exact ⟨hstep.slotsKnown ih.1, hstep.slotsApart hfresh ih.1 ih.2⟩
  exact ⟨SenderSteps.wellFormed hsteps hs.wellFormed, hslots.1, hslots.2,
    (after_receiverStep P s c).unique hs⟩

theorem knownOnce_of_reachable (hfresh : FreshKeys P) (h : Lts.Reachable (runs P) s) :
    KnownOnce P s := by
  refine h.invariant ?_ ?_
  · rintro _ ⟨c, rfl⟩
    obtain ⟨htransmit, hreceiver⟩ := ofConfiguration_keys P c
    refine ⟨senderWellFormed_ofConfiguration P c, ?_, ?_, ?_⟩
    · intro i k hk
      rw [htransmit] at hk
      cases i <;> cases hk
    · exact .of_none (i := .even) (by rw [htransmit]; rfl)
    rw [hreceiver]
    exact ⟨fun i => by cases i <;> exact .nil, fun i _ ha => by cases i <;> cases ha⟩
  rintro s c _ _ hs - rfl
  exact hs.after hfresh c

/-! ## A request of known keys -/

/-- The keys of the two receive slots and of both histories. -/
def CryptoSession.knownReceiveKeys (s : CryptoSession) : List Bytes :=
  (s.receiver.known .even ++ s.receiver.known .odd).map key

theorem Receiver.Unique.nodup (h : s.receiver.Unique) : s.knownReceiveKeys.Nodup := by
  rw [knownReceiveKeys, map_append, nodup_append]
  refine ⟨h.each .even, h.each .odd, ?_⟩
  intro _ heven _ hodd
  obtain ⟨a, ha, rfl⟩ := mem_map.1 heven
  obtain ⟨b, hb, rfl⟩ := mem_map.1 hodd
  exact h.across .even a ha b hb

/-- Where every key is known, none is installed. -/
theorem Receiver.Accepts.current {v : Receiver} {m : OpenedKeyMaterial} (h : v.Accepts m)
    (hknown : ∀ k ∈ m.keys, ∃ i, ∃ x ∈ v.known i, x.key = k.2) :
    ∀ k ∈ m.keys, v.isCurrent k.1 k.2 m.salt m.mode = true := by
  have hplace (k : KeySelector × Bytes) (hk : k ∈ m.keys) :
      v.isCurrent k.1 k.2 m.salt m.mode = true ∨ v.isRetired k.1 k.2 m.salt m.mode = true := by
    obtain ⟨i, x, hx, hkey⟩ := hknown k hk
    obtain ⟨rfl, his⟩ := h.identity k hk i x hx hkey
    exact is_of_mem_known hx his
  intro k hk
  rcases hplace k hk with hcurrent | hretired
  · exact hcurrent
  -- A companion that is neither current nor retired would not be known.
  obtain ⟨k', hk', hnotRetired, hnotCurrent⟩ := h.companion k hk hretired
  rcases hplace k' hk' with hcurrent | hretired
  · rw [hnotCurrent] at hcurrent
    cases hcurrent
  rw [hnotRetired] at hretired
  cases hretired

theorem Receiver.installAll_of_current {v : Receiver} : ∀ {keys : List (KeySelector × TrafficKey)},
      (∀ k ∈ keys, v.isCurrent k.1 k.2.key k.2.salt k.2.mode = true) → v.installAll keys = v
  | [], _ => rfl
  | (i, k) :: keys, h => by
    have hhead : v.install i k = v := if_pos (h (i, k) mem_cons_self)
    show (v.install i k).installAll keys = v
    rw [hhead]
    exact installAll_of_current fun k hk => h k (mem_cons_of_mem _ hk)

/-- In every reachable session each receive key is known once, and a request
whose keys are all known, under whatever selector, salt or mode, leaves the
receive slots, both histories and their ceilings as they are. -/
theorem replayed_keys_change_nothing (P : CryptoProvider) (hfresh : FreshKeys P)
    (s : CryptoSession) (h : Lts.Reachable (runs P) s) :
    s.knownReceiveKeys.Nodup
      ∧ ∀ request clone,
        (∀ m u, openKeyMaterial P request s = .ok m u → ∀ k ∈ m.keys, k.2 ∈ s.knownReceiveKeys) →
        (s.after P (.acceptKeyMaterial request clone)).receive = s.receive
          ∧ (s.after P (.acceptKeyMaterial request clone)).receiveHistory = s.receiveHistory := by
  refine ⟨(knownOnce_of_reachable hfresh h).unique.nodup, ?_⟩
  intro request clone hknown
  have hsame {t : CryptoSession} {remembered : List Bytes}
      (ht : t.receiver = { s.receiver with remembered }) :
      t.receive = s.receive ∧ t.receiveHistory = s.receiveHistory :=
    ⟨congrArg Receiver.receive ht, congrArg Receiver.history ht⟩
  have hinstalled {m : OpenedKeyMaterial} {u : CryptoSession}
      (hopened : openKeyMaterial P request s = .ok m u) (haccepts : s.receiver.Accepts m)
      {first : List (KeySelector × TrafficKey)} (hfirst : first <+: m.slots) :
      s.receiver.installAll first = s.receiver := by
    refine installAll_of_current fun k hk => ?_
    obtain ⟨key, hmem, rfl⟩ := mem_map.1 (hfirst.subset hk)
    refine haccepts.current (fun k hk => ?_) key hmem
    obtain ⟨x, hx, hkey⟩ := mem_map.1 (hknown m u hopened k hk)
    rcases mem_append.1 hx with hx | hx
    · exact ⟨_, x, hx, hkey⟩
    · exact ⟨_, x, hx, hkey⟩
  refine after_of_ensures (P := P) (c := .acceptKeyMaterial request clone)
    (Q := fun t => t.receive = s.receive ∧ t.receiveHistory = s.receiveHistory)
    ((acceptKeyMaterial_receiver request clone).mono ?_ ?_)
  · rintro _ t (⟨-, ht⟩ | ⟨-, m, u, hopened, haccepts, ht⟩)
    · exact hsame ht
    rw [hinstalled hopened haccepts prefix_rfl] at ht
    exact hsame ht
  rintro _ t (ht | ⟨-, m, u, first, hopened, haccepts, hfirst, ht⟩)
  · exact hsame ht
  rw [hinstalled hopened haccepts hfirst] at ht
  exact hsame ht

end Runs

/-- A request of a peer for these keys, under one salt. -/
def exampleMaterial (keys : EncryptionKey) (plaintext : Bytes) : Bytes :=
  match encodeKeyMaterial
    { keys
      cipher := .aesCtr
      authentication := .none
      salt := replicate 16 7
      keyLength := 16
      wrappedKeys := replicate 8 0 ++ plaintext } maximumKeyMaterialSize with
  | .ok message => message
  | .error _ => []

/-- The sixteen equal bytes of an example key. -/
def exampleKey (b : UInt8) : Bytes := replicate 16 b

/-- A receiver of two keys, the first of them retired. -/
def twoKeySession : CryptoSession :=
  [CryptoCall.acceptKeyMaterial (exampleMaterial .even (exampleKey 1)) false,
    .acceptKeyMaterial (exampleMaterial .even (exampleKey 2)) false].foldl
    (after (exampleProvider [])) (ofConfiguration (exampleProvider []) exampleConfiguration)

/-- The retired key comes again under the other selector. -/
theorem replayed_keys_change_nothing_twoKeySession :
    twoKeySession.knownReceiveKeys = [exampleKey 2, exampleKey 1]
      ∧ (twoKeySession.after (exampleProvider [])
          (.acceptKeyMaterial (exampleMaterial .odd (exampleKey 1)) false)).receive
        = twoKeySession.receive := by
  have hstart : Lts.Reachable (runs (exampleProvider []))
      (ofConfiguration (exampleProvider []) exampleConfiguration) :=
    .start ⟨exampleConfiguration, rfl⟩
  have hreachable : Lts.Reachable (runs (exampleProvider [])) twoKeySession :=
    hstart.foldl (by decide +kernel)
  have hopens : (match openKeyMaterial (exampleProvider [])
        (exampleMaterial .odd (exampleKey 1)) twoKeySession with
      | .ok m _ => m.keys.all fun k => twoKeySession.knownReceiveKeys.contains k.2
      | .error _ _ => true) = true := by decide +kernel
  refine ⟨by decide +kernel, ((replayed_keys_change_nothing (exampleProvider [])
    (exampleProvider_freshKeys []) twoKeySession hreachable).2 _ false ?_).1⟩
  intro m u hrun k hk
  rw [hrun] at hopens
  exact contains_iff_mem.1 (all_eq_true.1 hopens k hk)

end Srt
