/-
# `FilterNegotiation` — negotiation is symmetric, and survives its own text

Two configurations merge field by field, so the merge does not see which of
them is local.  What it yields is an effective configuration with a text of its
own.  Reading that text back gives the same fields, whichever of the three ways
the configuration came about, and a caller that applies the answer to its offer
ends where the responder is.
-/
import Srt.Handshake.PacketFilter

namespace Srt

/-! ## Symmetry -/

theorem mergeValue_comm {α : Type} [DecidableEq α] (s t : Bool) (v w d : α) :
    mergeValue s v t w d = mergeValue t w s v d := by
  cases s <;> cases t
  · rfl
  · rfl
  · rfl
  by_cases hvw : v = w
  · rw [hvw]
  · simp [mergeValue, hvw, Ne.symm hvw]

section

variable (l peer : PacketFilterConfiguration)

theorem resolveValues_comm : resolveValues l peer false = resolveValues peer l false := by
  simp only [resolveValues, Bool.false_eq_true, if_false]
  rw [mergeValue_comm l.columnsSpecified, mergeValue_comm l.rowsSpecified,
    mergeValue_comm l.layoutSpecified, mergeValue_comm l.arqSpecified]

theorem resolveEffectiveConfiguration_comm :
    resolveEffectiveConfiguration l peer false = resolveEffectiveConfiguration peer l false := by
  simp only [resolveEffectiveConfiguration]
  rw [Bool.and_comm, resolveValues_comm l peer]
  by_cases hsensor : l.sensorProfile = peer.sensorProfile
  · rw [hsensor]
  · rw [if_pos hsensor, if_pos (Ne.symm hsensor)]

theorem negotiatePacketFilterConfiguration_comm (rendezvous : Bool) :
    negotiatePacketFilterConfiguration l peer rendezvous
      = negotiatePacketFilterConfiguration peer l rendezvous := by
  simp only [negotiatePacketFilterConfiguration]
  rw [resolveEffectiveConfiguration_comm l peer]
  cases rendezvous with
  | false => cases l.enabled <;> cases peer.enabled <;> rfl
  | true =>
    -- with both sides enabled the two texts are one
    cases l.enabled <;> cases peer.enabled
    · rfl
    · rfl
    · rfl
    by_cases htext : l.text = peer.text
    · rw [htext]
    · simp [htext, Ne.symm htext]

end

/-! ## Values that were not given -/

/-- A field that was not given has its default. -/
structure Defaulted (c : PacketFilterConfiguration) : Prop where
  columns : c.columnsSpecified = false → c.columns = 0
  rows : c.rowsSpecified = false → c.rows = 1
  layout : c.layoutSpecified = false → c.layout = .staircase
  arq : c.arqSpecified = false → c.arq = .onRequest

variable {c c' : PacketFilterConfiguration}

theorem Defaulted.parseItem {item : List Char}
    (h : Defaulted c) (hitem : parseItem c item = .ok c') : Defaulted c' := by
  simp only [Srt.parseItem, parseCols, parseRows, parseLayout, parseArq] at hitem
  -- each branch gives one field and marks it as given
  repeat' split at hitem
  all_goals cases hitem
  all_goals first
    | exact { h with columns := by simp }
    | exact { h with rows := by simp }
    | exact { h with layout := by simp }
    | exact { h with arq := by simp }

theorem Defaulted.foldlM_parseItem {items : List (List Char)}
    (h : Defaulted c) (hitems : items.foldlM Srt.parseItem c = .ok c') : Defaulted c' := by
  induction items generalizing c with
  | nil =>
    obtain rfl := Except.ok.inj hitems
    exact h
  | cons item items ih =>
    rw [List.foldlM_cons] at hitems
    cases hitem : Srt.parseItem c item with
    | error e => rw [hitem] at hitems; cases hitems
    | ok d =>
      rw [hitem] at hitems
      exact ih (h.parseItem hitem) hitems

theorem Defaulted.parseStored {text : List Char}
    (h : Defaulted c) (hparse : parseStored text c = .ok c') : Defaulted c' := by
  have henabled : Defaulted { c with enabled := true } := ⟨h.columns, h.rows, h.layout, h.arq⟩
  simp only [Srt.parseStored] at hparse
  split at hparse
  · cases hparse
  split at hparse
  · cases hparse
  split at hparse
  · split at hparse
    · cases hparse
    obtain rfl := Except.ok.inj hparse
    exact henabled
  split at hparse
  · rw [finishParse_eq hparse]
    exact henabled
  split at hparse
  · cases hparse
  next d hitems =>
  rw [finishParse_eq hparse]
  exact henabled.foldlM_parseItem hitems

theorem ParsedPacketFilter.defaulted (c : ParsedPacketFilter) : Defaulted c.val := by
  have hempty : Defaulted {} := ⟨fun _ => rfl, fun _ => rfl, fun _ => rfl, fun _ => rfl⟩
  have hparse := c.property
  simp only [parsePacketFilterConfiguration] at hparse
  split at hparse
  · rw [← Except.ok.inj hparse]
    exact hempty
  split at hparse
  · cases hparse
  next d hstore =>
  refine Defaulted.parseStored ?_ hparse
  rw [storeText_eq hstore]
  exact ⟨hempty.columns, hempty.rows, hempty.layout, hempty.arq⟩

/-! ## What a text gives back -/

/-- The fields both ends work by. -/
structure SameFields (c d : PacketFilterConfiguration) : Prop where
  columns : c.columns = d.columns
  rows : c.rows = d.rows
  layout : c.layout = d.layout
  arq : c.arq = d.arq

/-- The text parses, to the text and the fields. -/
def ReadsBack (f : PacketFilterConfiguration) : Prop :=
  ∃ p, parsePacketFilterConfiguration f.text = .ok p ∧ p.text = f.text ∧ SameFields p f

theorem resolveValues_self {r : PacketFilterConfiguration} (h : Defaulted c)
    (hvalues : resolveValues c c false = some r) : SameFields c r := by
  have hor : ∀ {α : Type} {s : Bool} {v d : α}, (s = false → v = d) →
      v = if s = true then v else d := by
    intro α s v d hd
    cases s with
    | false => exact hd rfl
    | true => rfl
  simp only [resolveValues, mergeValue_self, Bool.false_eq_true, if_false] at hvalues
  obtain rfl := Option.some.inj hvalues
  exact ⟨hor h.columns, hor h.rows, hor h.layout, hor h.arq⟩

theorem resolveValues_sensor (o : Bool) : resolveValues sensorConfiguration sensorConfiguration o
      = some { enabled := true, columns := 4, rows := 1, layout := .staircase, arq := .never } := by
  cases o <;> decide

variable {l peer : ParsedPacketFilter} {f : PacketFilterConfiguration}

theorem readsBack_of_resolve {o : Bool} (h : resolveEffectiveConfiguration l.val peer.val o = .ok f)
    (henabled : l.val.enabled = true ∨ peer.val.enabled = true) : ReadsBack f := by
  obtain ⟨hsensor, r, hvalues, htwo, hgeometry, rfl, hlength⟩ := resolve_ok h henabled
  by_cases hs : l.val.sensorProfile = true
  · rw [sensorProfile_eq hs, sensorProfile_eq (hsensor ▸ hs), resolveValues_sensor] at hvalues
    obtain rfl := Option.some.inj hvalues
    simp only [ReadsBack, if_pos hs]
    exact ⟨_, parse_sensorProfileFilterV1, rfl, rfl, rfl, rfl, rfl⟩
  simp only [ReadsBack, if_neg hs] at hlength ⊢
  exact ⟨_, parse_effectiveText htwo hgeometry hlength, rfl, rfl, rfl, rfl, rfl⟩

/-- Rendezvous peers keep the text they were configured with. -/
theorem readsBack_of_rendezvous (henabled : peer.val.enabled = true)
    (h : negotiatePacketFilterConfiguration l.val peer.val true = .ok f) : ReadsBack f := by
  obtain ⟨htext, r, hresolve, rfl⟩ := negotiate_rendezvous_ok henabled h
  obtain ⟨-, v, hvalues, -, -, rfl, -⟩ := resolve_ok hresolve (.inr henabled)
  have hself : resolveValues peer.val peer.val false = some v := by
    by_cases hl : l.val.enabled = true
    · rw [← hvalues, ParsedPacketFilter.eq_of_text (htext hl)]
    · rw [← hvalues, ParsedPacketFilter.eq_default (Bool.eq_false_iff.2 hl), resolveValues_default]
  obtain ⟨hcolumns, hrows, hlayout, harq⟩ := resolveValues_self peer.defaulted hself
  exact ⟨peer.val, peer.property, rfl, hcolumns, hrows, hlayout, harq⟩

theorem readsBack_of_negotiate {rendezvous : Bool}
    (h : negotiatePacketFilterConfiguration l.val peer.val rendezvous = .ok f) : ReadsBack f := by
  by_cases hpeer : peer.val.enabled = true
  · cases rendezvous with
    | false => exact readsBack_of_resolve (resolve_of_negotiate hpeer h) (.inr hpeer)
    | true => exact readsBack_of_rendezvous hpeer h
  by_cases hl : l.val.enabled = true
  · -- the same, with the sides exchanged
    rw [negotiatePacketFilterConfiguration_comm] at h
    cases rendezvous with
    | false => exact readsBack_of_resolve (resolve_of_negotiate hl h) (.inr hl)
    | true => exact readsBack_of_rendezvous hl h
  simp only [negotiatePacketFilterConfiguration, Bool.eq_false_iff.2 hpeer,
    Bool.eq_false_iff.2 hl, Bool.not_false, Bool.and_self, if_true] at h
  obtain rfl := Except.ok.inj h
  exact ⟨{}, rfl, rfl, rfl, rfl, rfl, rfl⟩

theorem readsBack_of_apply {response : ParsedPacketFilter}
    (h : applyPacketFilterResponse l.val response.val = .ok f) : ReadsBack f := by
  simp only [applyPacketFilterResponse] at h
  split at h
  · cases h
  · next henabled => exact readsBack_of_resolve h (.inr (by simpa using henabled))

/-! ## The caller's side -/

theorem sensorProfile_effectiveText (d : PacketFilterConfiguration)
    (h : c.text = effectiveText d) : c.sensorProfile = false := by
  simp [PacketFilterConfiguration.sensorProfile, h, effectiveText, FilterText.sensor,
    FilterText.fec, List.isPrefixOf]

/-- Every field was given, and the text says so. -/
structure Spelled (f : PacketFilterConfiguration) : Prop where
  enabled : f.enabled = true
  columns : f.columnsSpecified = true
  rows : f.rowsSpecified = true
  layout : f.layoutSpecified = true
  arq : f.arqSpecified = true
  text : f.text = effectiveText f

/-- A fully specified answer is what applying it gives. -/
theorem apply_spelled {l : PacketFilterConfiguration} (hf : Spelled f)
    (hsensor : l.sensorProfile = false) (htwo : 2 ≤ f.columns)
    (hgeometry : validFecGeometry f.columns f.rows = true)
    (hlength : f.text.length ≤ maximumPacketFilterConfigurationSize) :
    applyPacketFilterResponse l f = .ok f := by
  have hvalues : resolveValues l f true = some
      { enabled := true, columns := f.columns, rows := f.rows
        layout := f.layout, arq := f.arq } := by
    simp only [resolveValues, responseValue, hf.columns, hf.rows, hf.layout, hf.arq, if_true]
  have hchecks : ¬(f.columns < 2 ∨ validFecGeometry f.columns f.rows = false) := by
    simp only [hgeometry, Bool.true_eq_false, or_false]
    omega
  have hformat : formatEffective
      { enabled := true, columns := f.columns, rows := f.rows
        layout := f.layout, arq := f.arq
        columnsSpecified := true, rowsSpecified := true
        layoutSpecified := true, arqSpecified := true } false = some f := by
    obtain ⟨henabled, hcolumns, hrows, hlayout, harq, htext⟩ := hf
    rw [htext] at hlength
    refine (if_pos hlength).trans (congrArg some ?_)
    cases f
    simp_all [effectiveText]
  simp only [applyPacketFilterResponse, resolveEffectiveConfiguration, hf.enabled, hsensor,
    sensorProfile_effectiveText f hf.text, hvalues, if_neg hchecks, hformat, Bool.not_true,
    Bool.and_false, Bool.false_eq_true, if_false, ne_eq, not_true_eq_false]

/-- Applying the answer to an offer gives the answer, as it was sent and as it is read. -/
theorem apply_of_negotiate {caller responder : ParsedPacketFilter}
    {response : PacketFilterConfiguration}
    (henabled : caller.val.enabled = true ∨ responder.val.enabled = true)
    (hf : negotiatePacketFilterConfiguration responder.val caller.val false = .ok f)
    (hresponse : response = f ∨ parsePacketFilterConfiguration f.text = .ok response) :
    applyPacketFilterResponse caller.val response = .ok f := by
  have hresolve : resolveEffectiveConfiguration responder.val caller.val false = .ok f := by
    by_cases hcaller : caller.val.enabled = true
    · exact resolve_of_negotiate hcaller hf
    rw [negotiatePacketFilterConfiguration_comm] at hf
    rw [resolveEffectiveConfiguration_comm]
    exact resolve_of_negotiate (henabled.resolve_left hcaller) hf
  obtain ⟨hsensor, r, hvalues, htwo, hgeometry, rfl, hlength⟩ := resolve_ok hresolve henabled.symm
  by_cases hs : responder.val.sensorProfile = true
  · -- both sides are the sensor profile, and everything is a constant
    rw [sensorProfile_eq hs, sensorProfile_eq (hsensor ▸ hs), resolveValues_sensor] at hvalues
    obtain rfl := Option.some.inj hvalues
    simp only [if_pos hs] at hresponse ⊢
    rw [sensorProfile_eq (hsensor ▸ hs)]
    rcases hresponse with rfl | hparse
    · decide
    rw [parse_sensorProfileFilterV1] at hparse
    obtain rfl := Except.ok.inj hparse
    decide
  have hcaller : caller.val.sensorProfile = false := by
    rw [← hsensor]
    exact Bool.eq_false_iff.2 hs
  have hon := resolveValues_enabled hvalues
  simp only [if_neg hs] at hresponse hlength ⊢
  have hsame : response = { r with
      columnsSpecified := true, rowsSpecified := true
      layoutSpecified := true, arqSpecified := true, text := effectiveText r } := by
    rcases hresponse with rfl | hparse
    · rfl
    rw [parse_effectiveText htwo hgeometry hlength] at hparse
    rw [hon]
    exact (Except.ok.inj hparse).symm
  rw [hsame]
  exact apply_spelled ⟨hon, rfl, rfl, rfl, rfl, rfl⟩ hcaller htwo hgeometry hlength

/-- Negotiation agrees: it does not depend on which side is local, what it yields survives its
text, and a caller that applies the answer to its own offer ends with the answer. -/
theorem filter_negotiation_agrees (caller responder : ParsedPacketFilter) :
    (∀ f, negotiatePacketFilterConfiguration responder.val caller.val false = .ok f →
      (∀ g, applyPacketFilterResponse caller.val f = .ok g →
        SameFields g f ∧ g.sensorProfile = f.sensorProfile)
      ∧ (caller.val.enabled = true ∨ responder.val.enabled = true →
        ∀ response, response = f ∨ parsePacketFilterConfiguration f.text = .ok response →
          applyPacketFilterResponse caller.val response = .ok f))
    ∧ (∀ rendezvous, negotiatePacketFilterConfiguration caller.val responder.val rendezvous
        = negotiatePacketFilterConfiguration responder.val caller.val rendezvous)
    ∧ (∀ rendezvous f,
        negotiatePacketFilterConfiguration caller.val responder.val rendezvous = .ok f →
          ReadsBack f)
    ∧ ∀ f, applyPacketFilterResponse caller.val responder.val = .ok f → ReadsBack f := by
  refine ⟨?_, negotiatePacketFilterConfiguration_comm _ _, fun _ _ => readsBack_of_negotiate,
    fun _ => readsBack_of_apply⟩
  intro f hf
  refine ⟨fun g hg => ?_, fun henabled response => apply_of_negotiate henabled hf⟩
  have henabled : caller.val.enabled = true ∨ responder.val.enabled = true := by
    by_contra hoff
    simp only [not_or, Bool.not_eq_true] at hoff
    -- with nothing configured the answer is off, and cannot be applied
    simp only [negotiatePacketFilterConfiguration, hoff.1, hoff.2, Bool.not_false, Bool.and_self,
      if_true] at hf
    obtain rfl := Except.ok.inj hf
    cases hg
  have hsame := apply_of_negotiate henabled hf (.inl rfl)
  rw [hg] at hsame
  obtain rfl := Except.ok.inj hsame
  exact ⟨⟨rfl, rfl, rfl, rfl⟩, rfl⟩

/-- An offer of four columns, and a responder that wants two rows. -/
def offeredColumns : ParsedPacketFilter where
  val :=
    { enabled := true, columns := 4, columnsSpecified := true
      text := FilterText.fec ++ ',' :: FilterText.cols ++ [':', '4'] }
  property := by decide

def wantedRows : ParsedPacketFilter where
  val :=
    { enabled := true, rows := 2, rowsSpecified := true
      text := FilterText.fec ++ ',' :: FilterText.rows ++ [':', '2'] }
  property := by decide

theorem filter_negotiation_agrees_offeredColumns :
    ∃ f, negotiatePacketFilterConfiguration wantedRows.val offeredColumns.val false = .ok f
      ∧ f.columns = 4 ∧ f.rows = 2
      ∧ applyPacketFilterResponse offeredColumns.val f = .ok f := by
  refine ⟨_, rfl, rfl, rfl, ?_⟩
  exact ((filter_negotiation_agrees offeredColumns wantedRows).1 _ rfl).2 (.inl rfl) _ (.inl rfl)

end Srt
