/-
# `PacketFilter` — filter configurations, their text and their negotiation

A packet filter configuration travels as text and is parsed again by the
peer (`src/packet_filter.cpp`).  The model is the build without compiled
experimental filters, in which `experimental()` is constantly false.

What the handshakes need of it is proved at the end: a negotiated
configuration is recovered by the other end from its text alone, both from
the canonical text a listener answers with (`applyPacketFilterResponse_eq`)
and from the configured text rendezvous peers keep
(`negotiate_rendezvous_self`).
-/
import Srt.Packet

namespace Srt

inductive PacketFilterLayout
  | even
  | staircase
  deriving DecidableEq, Repr

inductive PacketFilterArqLevel
  | never
  | onRequest
  | always
  deriving DecidableEq, Repr

def maximumPacketFilterConfigurationSize : Nat := 512

/-! The words of the configuration text. -/

namespace FilterText

def fec : List Char := ['f', 'e', 'c']
def sensor : List Char :=
  ['f', 'e', 'c', '-', 's', 'e', 'n', 's', 'o', 'r', '-', 'v', '1']
def cols : List Char := ['c', 'o', 'l', 's']
def rows : List Char := ['r', 'o', 'w', 's']
def layout : List Char := ['l', 'a', 'y', 'o', 'u', 't']
def arq : List Char := ['a', 'r', 'q']
def even : List Char := ['e', 'v', 'e', 'n']
def staircase : List Char := ['s', 't', 'a', 'i', 'r', 'c', 'a', 's', 'e']
def never : List Char := ['n', 'e', 'v', 'e', 'r']
def onreq : List Char := ['o', 'n', 'r', 'e', 'q']
def always : List Char := ['a', 'l', 'w', 'a', 'y', 's']

end FilterText

open FilterText

/-- `sensor_profile_filter_v1`, `fec-sensor-v1,cols:4,rows:1,arq:never`. -/
def sensorProfileFilterV1 : List Char :=
  sensor ++ ',' :: cols ++ [':', '4', ',']
    ++ rows ++ [':', '1', ','] ++ arq
    ++ ':' :: never

structure PacketFilterConfiguration where
  enabled : Bool := false
  columns : Nat := 0
  rows : Int := 1
  layout : PacketFilterLayout := .staircase
  arq : PacketFilterArqLevel := .onRequest
  columnsSpecified : Bool := false
  rowsSpecified : Bool := false
  layoutSpecified : Bool := false
  arqSpecified : Bool := false
  text : List Char := []
  deriving DecidableEq, Repr, Inhabited

/-- The sensor profile is recognised by the configured text. -/
def PacketFilterConfiguration.sensorProfile
    (c : PacketFilterConfiguration) : Bool :=
  (sensor ++ [',']).isPrefixOf c.text

def validFecGeometry (columns : Nat) (rows : Int) : Bool :=
  if columns > 128 then false
  else if rows = 1 then true
  else if rows = 0 ∨ rows = -1 then false
  else columns ≤ 128 ∧ columns * rows.natAbs < SequenceNumber.halfRange

def fecGeometryFitsReceiveCapacity (c : PacketFilterConfiguration)
    (receiveCapacityPackets : Nat) : Bool :=
  if !c.enabled then true
  else if receiveCapacityPackets = 0 ∨ c.columns < 2 ∨ c.rows = 0 ∨ c.rows = -1 then false
  else c.columns ≤ receiveCapacityPackets / c.rows.natAbs

/-! ## Parsing -/

/-- `parse_integer` at an unsigned type: `from_chars` reads digits only and
must consume the whole text. -/
def parseUnsigned (limit : Nat) (text : List Char) : Option Nat :=
  if text ≠ [] ∧ text.all Char.isDigit ∧ Nat.ofDigitChars 10 text 0 ≤ limit
  then some (Nat.ofDigitChars 10 text 0)
  else none

/-- `parse_integer` at `int32_t`. -/
def parseSigned (text : List Char) : Option Int :=
  match text with
  | '-' :: digits =>
    (parseUnsigned (2 ^ 31) digits).map fun n : Nat => -(n : Int)
  | digits => (parseUnsigned (2 ^ 31 - 1) digits).map fun n : Nat => (n : Int)

def parseCols (c : PacketFilterConfiguration) (value : List Char) :
    Except Error PacketFilterConfiguration :=
  match parseUnsigned (2 ^ 32 - 1) value with
  | none => .error .invalidState
  | some n =>
    if c.columnsSpecified ∨ n < 2 ∨ n > 2 ^ 31 - 1 then .error .invalidState
    else .ok { c with columns := n, columnsSpecified := true }

def parseRows (c : PacketFilterConfiguration) (value : List Char) :
    Except Error PacketFilterConfiguration :=
  match parseSigned value with
  | none => .error .invalidState
  | some n =>
    if c.rowsSpecified ∨ (n < 1 ∧ n > -2) then .error .invalidState
    else .ok { c with rows := n, rowsSpecified := true }

def parseLayout (c : PacketFilterConfiguration) (value : List Char) :
    Except Error PacketFilterConfiguration :=
  if c.layoutSpecified then .error .invalidState
  else if value = even then
    .ok { c with layout := .even, layoutSpecified := true }
  else if value = staircase then
    .ok { c with layout := .staircase, layoutSpecified := true }
  else .error .invalidState

def parseArq (c : PacketFilterConfiguration) (value : List Char) :
    Except Error PacketFilterConfiguration :=
  if c.arqSpecified then .error .invalidState
  else if value = never then
    .ok { c with arq := .never, arqSpecified := true }
  else if value = onreq then
    .ok { c with arq := .onRequest, arqSpecified := true }
  else if value = always then
    .ok { c with arq := .always, arqSpecified := true }
  else .error .invalidState

/-- One `key:value` item of the comma-separated list. -/
def parseItem (c : PacketFilterConfiguration) (item : List Char) :
    Except Error PacketFilterConfiguration :=
  let key := item.takeWhile (· ≠ ':')
  -- A missing colon leaves nothing behind the key; an empty item, key or
  -- value is refused as well.
  match item.dropWhile (· ≠ ':') with
  | [] => .error .invalidState
  | _ :: value =>
    if key = [] ∨ value = [] then .error .invalidState
    else if key = cols then parseCols c value
    else if key = rows then parseRows c value
    else if key = layout then parseLayout c value
    else if key = arq then parseArq c value
    else .error .invalidState

/-- The checks behind the item loop. -/
def finishParse (sensorProfile : Bool) (text : List Char)
    (c : PacketFilterConfiguration) :
    Except Error PacketFilterConfiguration :=
  if c.columnsSpecified ∧ c.rowsSpecified ∧ validFecGeometry c.columns c.rows = false then
    .error .invalidState
  else if sensorProfile ∧ (text ≠ sensorProfileFilterV1 ∨ c.columnsSpecified = false ∨ c.columns ≠ 4
      ∨ c.rowsSpecified = false ∨ c.rows ≠ 1
      ∨ c.arqSpecified = false ∨ c.arq ≠ .never
      ∨ (c.layoutSpecified ∧ c.layout ≠ .staircase)) then
    .error .invalidState
  else .ok c

/-- `store_text`: the text must fit and hold no NUL. -/
def storeText (c : PacketFilterConfiguration) (text : List Char) :
    Option PacketFilterConfiguration :=
  if text.length > maximumPacketFilterConfigurationSize ∨ Char.ofNat 0 ∈ text then
    none
  else some { c with text := text }

/-- The part of the parser behind the stored text: the type word and the
item loop. -/
def parseStored (text : List Char) (c : PacketFilterConfiguration) :
    Except Error PacketFilterConfiguration :=
  match text.splitOn ',' with
  | [] => .error .unsupported
  | type :: rest =>
    if type ≠ fec ∧ type ≠ sensor then
      .error .unsupported
    else
      let sensorProfile := decide (type = sensor)
      let c := { c with enabled := true }
      if rest = [] then
        if sensorProfile then .error .invalidState else .ok c
      -- A single comma after the type leaves the item loop unentered.
      else if rest = [[]] then finishParse sensorProfile text c
      else
        match rest.foldlM parseItem c with
        | .error e => .error e
        | .ok c => finishParse sensorProfile text c

/-- `parse_packet_filter_configuration`. -/
def parsePacketFilterConfiguration (text : List Char) :
    Except Error PacketFilterConfiguration :=
  if text = [] then .ok {}
  else
    match storeText {} text with
    | none => .error .invalidState
    | some c => parseStored text c

/-! ## Formatting and negotiation -/

def arqText : PacketFilterArqLevel → List Char
  | .never => never
  | .always => always
  | .onRequest => onreq

def layoutText : PacketFilterLayout → List Char
  | .even => even
  | .staircase => staircase

/-- `to_chars` at `int32_t`. -/
def formatSigned (n : Int) : List Char :=
  if n < 0 then '-' :: Nat.toDigits 10 n.natAbs else Nat.toDigits 10 n.natAbs

def effectiveText (c : PacketFilterConfiguration) : List Char :=
  fec ++ ',' :: arq ++ ':' :: arqText c.arq
    ++ ',' :: cols ++ ':' :: Nat.toDigits 10 c.columns
    ++ ',' :: layout ++ ':' :: layoutText c.layout
    ++ ',' :: rows ++ ':' :: formatSigned c.rows

/-- `format_effective`; every `append` refuses to pass the size limit. -/
def formatEffective (c : PacketFilterConfiguration) (sensorProfile : Bool) :
    Option PacketFilterConfiguration :=
  let text := if sensorProfile then sensorProfileFilterV1 else effectiveText c
  if text.length ≤ maximumPacketFilterConfigurationSize then
    some { c with text := text }
  else none

def mergeValue {α : Type} [DecidableEq α] (localSpecified : Bool)
    (localValue : α) (peerSpecified : Bool) (peer default : α) : Option α :=
  if localSpecified ∧ peerSpecified ∧ localValue ≠ peer then none
  else some (if localSpecified then localValue
    else if peerSpecified then peer else default)

def responseValue {α : Type} (localSpecified : Bool) (localValue : α)
    (responseSpecified : Bool) (response default : α) : α :=
  if responseSpecified then response
  else if localSpecified then localValue else default

/-- The four negotiated values of `resolve_effective_configuration`. -/
def resolveValues (l peer : PacketFilterConfiguration)
    (peerOverrides : Bool) : Option PacketFilterConfiguration :=
  if peerOverrides then
    some
      { enabled := true
        columns := responseValue l.columnsSpecified l.columns
          peer.columnsSpecified peer.columns 0
        rows := responseValue l.rowsSpecified l.rows
          peer.rowsSpecified peer.rows 1
        layout := responseValue l.layoutSpecified l.layout
          peer.layoutSpecified peer.layout .staircase
        arq := responseValue l.arqSpecified l.arq
          peer.arqSpecified peer.arq .onRequest }
  else do
    let columns ← mergeValue l.columnsSpecified l.columns
      peer.columnsSpecified peer.columns 0
    let rows ← mergeValue l.rowsSpecified l.rows
      peer.rowsSpecified peer.rows 1
    let layout ← mergeValue l.layoutSpecified l.layout
      peer.layoutSpecified peer.layout .staircase
    let arq ← mergeValue l.arqSpecified l.arq
      peer.arqSpecified peer.arq .onRequest
    return { enabled := true, columns, rows, layout, arq }

def resolveEffectiveConfiguration (l peer : PacketFilterConfiguration)
    (peerOverrides : Bool) : Except Error PacketFilterConfiguration :=
  if !l.enabled && !peer.enabled then .ok {}
  else if l.sensorProfile ≠ peer.sensorProfile then .error .invalidState
  else
    match resolveValues l peer peerOverrides with
    | none => .error .invalidState
    | some r =>
      if r.columns < 2 ∨ validFecGeometry r.columns r.rows = false then
        .error .invalidState
      else
        match formatEffective { r with
            columnsSpecified := true, rowsSpecified := true
            layoutSpecified := true, arqSpecified := true }
            l.sensorProfile with
        | none => .error .invalidState
        | some f => .ok f

/-- `negotiate_packet_filter_configuration`.  Rendezvous peers compare the
configured text and keep it on the wire. -/
def negotiatePacketFilterConfiguration (l peer : PacketFilterConfiguration)
    (rendezvous : Bool) : Except Error PacketFilterConfiguration :=
  if !l.enabled && !peer.enabled then .ok {}
  else if rendezvous && l.enabled && peer.enabled && l.text ≠ peer.text then
    .error .invalidState
  else
    match resolveEffectiveConfiguration l peer false with
    | .error e => .error e
    | .ok r =>
      if rendezvous then
        match storeText r (if l.enabled then l.text else peer.text) with
        | none => .error .invalidState
        | some f => .ok f
      else .ok r

/-- `apply_packet_filter_response`. -/
def applyPacketFilterResponse (l response : PacketFilterConfiguration) :
    Except Error PacketFilterConfiguration :=
  if !response.enabled then .error .invalidState
  else resolveEffectiveConfiguration l response true

/-! ## The parser keeps its input -/

variable {c c' : PacketFilterConfiguration}

/-- No item touches the stored text or the enabled flag. -/
theorem parseItem_frame {item : List Char} (h : parseItem c item = .ok c') :
    c'.text = c.text ∧ c'.enabled = c.enabled := by
  simp only [parseItem, parseCols, parseRows, parseLayout, parseArq] at h
  repeat' split at h
  all_goals cases h
  all_goals exact ⟨rfl, rfl⟩

theorem foldlM_parseItem_frame {items : List (List Char)} (h : items.foldlM parseItem c = .ok c') :
    c'.text = c.text ∧ c'.enabled = c.enabled := by
  induction items generalizing c with
  | nil =>
    cases h
    exact ⟨rfl, rfl⟩
  | cons item items ih =>
    rw [List.foldlM_cons] at h
    cases hi : parseItem c item with
    | error e => rw [hi] at h; cases h
    | ok d =>
      rw [hi] at h
      obtain ⟨ht, he⟩ := ih h
      obtain ⟨ht', he'⟩ := parseItem_frame hi
      exact ⟨ht.trans ht', he.trans he'⟩

variable {text : List Char}

theorem finishParse_eq {sensor : Bool} (h : finishParse sensor text c = .ok c') : c' = c := by
  simp only [finishParse] at h
  repeat' split at h
  all_goals cases h
  rfl

theorem storeText_eq (h : storeText c text = some c') : c' = { c with text := text } := by
  simp only [storeText, Option.ite_none_left_eq_some, Option.some.injEq] at h
  exact h.2.symm

theorem parseStored_frame (h : parseStored text c = .ok c') :
    c'.text = c.text ∧ c'.enabled = true := by
  simp only [parseStored] at h
  repeat' split at h
  all_goals first | cases h | skip
  · exact ⟨rfl, rfl⟩
  · rw [finishParse_eq h]; exact ⟨rfl, rfl⟩
  · next hf => rw [finishParse_eq h]; exact foldlM_parseItem_frame hf

/-- What an accepted text looks like: it is empty and disables the filter,
or it is stored in an enabled configuration. -/
theorem parse_ok (h : parsePacketFilterConfiguration text = .ok c) :
    (text = [] ∧ c = {}) ∨ (text ≠ [] ∧ c.text = text ∧ c.enabled = true) := by
  simp only [parsePacketFilterConfiguration] at h
  split at h
  · next ht => cases h; exact .inl ⟨ht, rfl⟩
  next hne =>
  split at h
  · cases h
  next hs =>
  rw [storeText_eq hs] at h
  exact .inr ⟨hne, parseStored_frame h⟩

/-- A configuration as the option parser produces it: its text parses back
to it.  Handshake configurations carry these. -/
structure ParsedPacketFilter where
  val : PacketFilterConfiguration
  property : parsePacketFilterConfiguration val.text = .ok val

namespace ParsedPacketFilter

instance : Inhabited ParsedPacketFilter := ⟨⟨{}, rfl⟩⟩

/-- Parsed configurations with one text are one configuration. -/
theorem eq_of_text {a b : ParsedPacketFilter} (h : a.val.text = b.val.text) : a.val = b.val := by
  have ha := a.property
  rw [h, b.property] at ha
  exact (Except.ok.inj ha).symm

theorem eq_default {a : ParsedPacketFilter} (h : a.val.enabled = false) : a.val = {} := by
  rcases parse_ok a.property with ⟨_, ha⟩ | ⟨_, _, he⟩
  · exact ha
  · rw [h] at he; cases he

end ParsedPacketFilter

/-! ## Round trip of the canonical text -/

variable {n : Nat}

theorem parseUnsigned_toDigits {limit : Nat} (h : n ≤ limit) :
    parseUnsigned limit (Nat.toDigits 10 n) = some n := by
  have hv : Nat.ofDigitChars 10 (Nat.toDigits 10 n) 0 = n :=
    Nat.ofDigitChars_toDigits (by decide) (by decide)
  have hd : (Nat.toDigits 10 n).all Char.isDigit = true := by
    rw [List.all_eq_true]
    exact fun c hc => Nat.isDigit_of_mem_toDigits (by decide) (by decide) hc
  have hne : Nat.toDigits 10 n ≠ [] := Nat.toDigits_ne_nil
  simp only [parseUnsigned, hv]
  rw [if_pos ⟨hne, hd, h⟩]

/-- Digits hold neither separators nor a sign. -/
theorem notMem_toDigits {c : Char} (hc : c.isDigit = false) : c ∉ Nat.toDigits 10 n := by
  intro hm
  have := Nat.isDigit_of_mem_toDigits (by decide) (by decide) hm
  rw [hc] at this
  cases this

theorem parseSigned_formatSigned {n : Int} (hl : -(2 ^ 31) ≤ n)
    (hu : n < 2 ^ 31) : parseSigned (formatSigned n) = some n := by
  by_cases hn : n < 0
  · have hb : n.natAbs ≤ 2 ^ 31 := by omega
    simp only [formatSigned, if_pos hn, parseSigned, parseUnsigned_toDigits hb, Option.map_some]
    congr 1
    omega
  have hb : n.natAbs ≤ 2 ^ 31 - 1 := by omega
  simp only [formatSigned, if_neg hn]
  have hm : ∀ d, Nat.toDigits 10 n.natAbs ≠ '-' :: d := by
    intro d hd
    exact notMem_toDigits (n := n.natAbs) (c := '-') (by decide) (hd ▸ List.mem_cons_self)
  unfold parseSigned
  split
  · next d hd => exact absurd hd (hm d)
  rw [parseUnsigned_toDigits hb, Option.map_some]
  congr 1
  omega

theorem parseItem_cols (hs : c.columnsSpecified = false) (h2 : 2 ≤ n) (hn : n < 2 ^ 31) :
    parseItem c (cols ++ ':' :: Nat.toDigits 10 n)
      = .ok { c with columns := n, columnsSpecified := true } := by
  have hd : Nat.toDigits 10 n ≠ [] := Nat.toDigits_ne_nil
  have hp : parseUnsigned (2 ^ 32 - 1) (Nat.toDigits 10 n) = some n :=
    parseUnsigned_toDigits (by omega)
  have hc : parseCols c (Nat.toDigits 10 n)
      = .ok { c with columns := n, columnsSpecified := true } := by
    simp only [parseCols, hp]
    rw [if_neg (by simp [hs]; omega)]
  simpa [parseItem, cols, hd] using hc

theorem parseItem_rows {n : Int} (hs : c.rowsSpecified = false) (hr : n = 1 ∨ (n ≠ 0 ∧ n ≠ -1))
    (hl : -(2 ^ 31) ≤ n) (hu : n < 2 ^ 31) :
    parseItem c (rows ++ ':' :: formatSigned n)
      = .ok { c with rows := n, rowsSpecified := true } := by
  have hd : formatSigned n ≠ [] := by
    unfold formatSigned
    split
    · exact List.cons_ne_nil _ _
    · exact Nat.toDigits_ne_nil
  have hc : parseRows c (formatSigned n) = .ok { c with rows := n, rowsSpecified := true } := by
    simp only [parseRows, parseSigned_formatSigned hl hu]
    rw [if_neg (by simp [hs]; omega)]
  simpa [parseItem, cols, rows, hd] using hc

theorem parseItem_layout (hs : c.layoutSpecified = false) (l : PacketFilterLayout) :
    parseItem c (layout ++ ':' :: layoutText l)
      = .ok { c with layout := l, layoutSpecified := true } := by
  cases l <;>
    simp [parseItem, layoutText, parseLayout, hs, cols, rows, layout, even, staircase]

theorem parseItem_arq (hs : c.arqSpecified = false) (a : PacketFilterArqLevel) :
    parseItem c (arq ++ ':' :: arqText a) = .ok { c with arq := a, arqSpecified := true } := by
  cases a <;>
    simp [parseItem, arqText, parseArq, hs, cols, rows, layout, arq, never, onreq, always]

/-- The items of the canonical text. -/
def effectiveItems (c : PacketFilterConfiguration) : List (List Char) :=
  [fec, arq ++ ':' :: arqText c.arq,
    cols ++ ':' :: Nat.toDigits 10 c.columns,
    layout ++ ':' :: layoutText c.layout,
    rows ++ ':' :: formatSigned c.rows]

theorem effectiveText_eq (c : PacketFilterConfiguration) :
    effectiveText c = [','].intercalate (effectiveItems c) := by
  simp [effectiveText, effectiveItems, List.intercalate]

theorem notMem_formatSigned {n : Int} {c : Char} (hc : c.isDigit = false)
    (hm : c ≠ '-') : c ∉ formatSigned n := by
  unfold formatSigned
  split
  · exact fun h => (List.mem_cons.1 h).elim hm (notMem_toDigits hc)
  · exact notMem_toDigits hc

theorem splitOn_effectiveText (c : PacketFilterConfiguration) :
    (effectiveText c).splitOn ',' = effectiveItems c := by
  rw [effectiveText_eq, List.splitOn_intercalate]
  · have hc := notMem_toDigits (n := c.columns) (c := ',') (by decide)
    have hr := notMem_formatSigned (n := c.rows) (c := ',') (by decide) (by decide)
    have ha : ',' ∉ arqText c.arq := by cases c.arq <;> decide
    have hl : ',' ∉ layoutText c.layout := by cases c.layout <;> decide
    have hf : ',' ∉ fec ∧ ',' ∉ arq ∧ ',' ∉ cols ∧ ',' ∉ layout ∧ ',' ∉ rows := by decide
    simp [effectiveItems, hc, hr, ha, hl, hf]
  · exact List.cons_ne_nil _ _

theorem validFecGeometry_iff {columns : Nat} {rows : Int} : validFecGeometry columns rows = true ↔
      columns ≤ 128 ∧ (rows = 1 ∨ (rows ≠ 0 ∧ rows ≠ -1
        ∧ columns * rows.natAbs < SequenceNumber.halfRange)) := by
  simp only [validFecGeometry]
  split
  · next h => simp only [Bool.false_eq_true, false_iff]; omega
  split
  · next h1 => simp only [h1, true_or, and_true, true_iff]; omega
  split
  · next h01 => simp only [Bool.false_eq_true, false_iff]; omega
  · next h01 => simp only [decide_eq_true_eq]; omega

/-- The values of a checked geometry fit the parser's integer types. -/
theorem rows_bounds {columns : Nat} {rows : Int} (h2 : 2 ≤ columns)
    (hg : validFecGeometry columns rows = true) :
    (rows = 1 ∨ (rows ≠ 0 ∧ rows ≠ -1)) ∧ -(2 ^ 31) ≤ rows ∧ rows < 2 ^ 31 := by
  obtain ⟨_, rfl | ⟨h0, h1, hm⟩⟩ := validFecGeometry_iff.1 hg
  · decide
  have hle : rows.natAbs ≤ columns * rows.natAbs := Nat.le_mul_of_pos_left _ (by omega)
  simp only [SequenceNumber.halfRange, SequenceNumber.modulus] at hm
  exact ⟨.inr ⟨h0, h1⟩, by omega, by omega⟩

theorem nul_notMem_effectiveText (c : PacketFilterConfiguration) :
    Char.ofNat 0 ∉ effectiveText c := by
  have hc := notMem_toDigits (n := c.columns) (c := Char.ofNat 0) (by decide)
  have hr := notMem_formatSigned (n := c.rows) (c := Char.ofNat 0) (by decide) (by decide)
  have ha : Char.ofNat 0 ∉ arqText c.arq := by cases c.arq <;> decide
  have hl : Char.ofNat 0 ∉ layoutText c.layout := by cases c.layout <;> decide
  have hf : Char.ofNat 0 ∉ fec ∧ Char.ofNat 0 ∉ arq ∧ Char.ofNat 0 ∉ cols ∧ Char.ofNat 0 ∉ layout
      ∧ Char.ofNat 0 ∉ rows ∧ Char.ofNat 0 ≠ ','
      ∧ Char.ofNat 0 ≠ ':' := by decide
  simp only [effectiveText, List.mem_append, List.mem_cons, hc, hr, ha, hl, hf,
    or_self, not_false_eq_true]

/-- The canonical text of a checked configuration parses to exactly that
configuration, with all four values specified. -/
theorem parse_effectiveText (h2 : 2 ≤ c.columns) (hg : validFecGeometry c.columns c.rows = true)
    (hlen : (effectiveText c).length ≤ maximumPacketFilterConfigurationSize) :
    parsePacketFilterConfiguration (effectiveText c)
      = .ok { enabled := true, columns := c.columns, rows := c.rows
              layout := c.layout, arq := c.arq, columnsSpecified := true
              rowsSpecified := true, layoutSpecified := true
              arqSpecified := true, text := effectiveText c } := by
  obtain ⟨hrow, hl, hu⟩ := rows_bounds h2 hg
  obtain ⟨h128, _⟩ := validFecGeometry_iff.1 hg
  have hne : effectiveText c ≠ [] := by
    simp [effectiveText, fec]
  have hstore : storeText {} (effectiveText c) = some { text := effectiveText c } :=
    if_neg (not_or.2 ⟨by omega, nul_notMem_effectiveText c⟩)
  have hitems : (effectiveItems c).tail.foldlM parseItem
      { enabled := true, text := effectiveText c }
      = .ok { enabled := true, columns := c.columns, rows := c.rows
              layout := c.layout, arq := c.arq, columnsSpecified := true
              rowsSpecified := true, layoutSpecified := true
              arqSpecified := true, text := effectiveText c } := by
    simp only [effectiveItems, List.tail_cons, List.foldlM_cons, List.foldlM_nil]
    rw [parseItem_arq rfl]
    simp only [bind, Except.bind, pure, Except.pure]
    rw [parseItem_cols rfl h2 (by omega)]
    simp only
    rw [parseItem_layout rfl]
    simp only
    rw [parseItem_rows rfl hrow hl hu]
  have htype : ¬(fec ≠ fec ∧ fec ≠ sensor) := fun h => h.1 rfl
  have hfs : decide (fec = sensor) = false := by decide
  simp only [effectiveItems, List.tail_cons] at hitems
  simp only [parsePacketFilterConfiguration, if_neg hne, hstore, parseStored,
    splitOn_effectiveText, effectiveItems, if_neg htype, hfs]
  rw [if_neg (List.cons_ne_nil _ _), if_neg (by simp), hitems]
  simp [finishParse, hg]

/-! ## What a resolution yields -/

/-- A resolution with an enabled side is the canonical form of its
values. -/
theorem resolve_ok {l peer f : PacketFilterConfiguration} {o : Bool}
    (h : resolveEffectiveConfiguration l peer o = .ok f)
    (he : l.enabled = true ∨ peer.enabled = true) :
    l.sensorProfile = peer.sensorProfile ∧
    ∃ r, resolveValues l peer o = some r ∧ 2 ≤ r.columns ∧ validFecGeometry r.columns r.rows = true
      ∧ f = { r with
          columnsSpecified := true, rowsSpecified := true
          layoutSpecified := true, arqSpecified := true
          text := if l.sensorProfile then sensorProfileFilterV1
            else effectiveText r }
      ∧ f.text.length ≤ maximumPacketFilterConfigurationSize := by
  simp only [resolveEffectiveConfiguration] at h
  split at h
  · next hd => rcases he with he | he <;> simp [he] at hd
  split at h
  · cases h
  next hs =>
  refine ⟨not_not.1 hs, ?_⟩
  split at h
  · cases h
  next r hr =>
  split at h
  · cases h
  next hg =>
  simp only [not_or, Nat.not_lt, Bool.not_eq_false] at hg
  split at h
  · cases h
  next f' hf =>
  cases h
  simp only [formatEffective, Option.ite_none_right_eq_some, Option.some.injEq] at hf
  obtain ⟨hlen, rfl⟩ := hf
  exact ⟨r, hr, hg.1, hg.2, rfl, hlen⟩

theorem resolveValues_enabled {l peer r : PacketFilterConfiguration}
    {o : Bool} (h : resolveValues l peer o = some r) : r.enabled = true := by
  simp only [resolveValues] at h
  split at h
  · cases h; rfl
  simp only [bind, Option.bind_eq_some_iff, Option.pure_def, Option.some.injEq] at h
  obtain ⟨_, _, _, _, _, _, _, _, rfl⟩ := h
  rfl

/-- The sensor profile has one admissible text. -/
theorem sensorProfile_text {c : ParsedPacketFilter} (h : c.val.sensorProfile = true) :
    c.val.text = sensorProfileFilterV1 := by
  obtain ⟨t, ht⟩ := List.isPrefixOf_iff_prefix.1 h
  have hp := c.property
  rw [List.append_assoc, List.singleton_append] at ht
  have hsplit : c.val.text.splitOn ',' = sensor :: t.splitOn ',' := by
    rw [← ht]
    exact List.splitOnP_append_cons_of_forall_mem (by simp [sensor]) _ (by simp) _
  simp only [parsePacketFilterConfiguration] at hp
  split at hp
  · next h0 => rw [h0] at ht; cases ht
  split at hp
  · cases hp
  simp only [parseStored] at hp
  rw [hsplit] at hp
  simp only [ne_eq, not_true_eq_false, and_false, if_false, decide_true, if_true] at hp
  -- Every remaining branch ends in the sensor check of `finishParse`.
  have hfin : ∀ {d e}, finishParse true c.val.text d = .ok e →
      c.val.text = sensorProfileFilterV1 := by
    intro d e hd
    by_contra hne
    simp only [finishParse] at hd
    split at hd
    · cases hd
    · rw [if_pos ⟨trivial, .inl hne⟩] at hd; cases hd
  split at hp
  · cases hp
  split at hp
  · exact hfin hp
  split at hp
  · cases hp
  · exact hfin hp

/-- The one configuration of the sensor profile. -/
def sensorConfiguration : PacketFilterConfiguration :=
  { enabled := true, columns := 4, rows := 1, arq := .never
    columnsSpecified := true, rowsSpecified := true, arqSpecified := true
    text := sensorProfileFilterV1 }

theorem parse_sensorProfileFilterV1 :
    parsePacketFilterConfiguration sensorProfileFilterV1 = .ok sensorConfiguration := by
  decide

theorem sensorProfile_eq {c : ParsedPacketFilter}
    (h : c.val.sensorProfile = true) : c.val = sensorConfiguration := by
  have hp := c.property
  rw [sensorProfile_text h, parse_sensorProfileFilterV1] at hp
  exact (Except.ok.inj hp).symm

/-! ## Both ends settle on one configuration -/

variable {caller listener : ParsedPacketFilter}

section

variable {f : PacketFilterConfiguration} (hoffer : caller.val.enabled = true)
  (hf : negotiatePacketFilterConfiguration listener.val caller.val false = .ok f)
include hoffer hf

theorem resolve_of_negotiate :
    resolveEffectiveConfiguration listener.val caller.val false = .ok f := by
  simp only [negotiatePacketFilterConfiguration, hoffer, Bool.not_true,
    Bool.and_false, Bool.false_eq_true, if_false, Bool.false_and] at hf
  split at hf
  · cases hf
  next r hr =>
  rw [hr, Except.ok.inj hf]

/-- The text a listener answers with is one the caller can parse. -/
theorem negotiate_parses : ∃ response, parsePacketFilterConfiguration f.text = .ok response := by
  obtain ⟨_, r, _, h2, hgeo, rfl, hlen⟩ := resolve_ok (resolve_of_negotiate hoffer hf) (.inr hoffer)
  by_cases hs : listener.val.sensorProfile = true
  · simp only [if_pos hs]
    exact ⟨_, parse_sensorProfileFilterV1⟩
  simp only [if_neg hs] at hlen ⊢
  exact ⟨_, parse_effectiveText h2 hgeo hlen⟩

/-- Caller and listener: what the listener negotiated out of the caller's
offer is what the caller takes out of the listener's answer. -/
theorem applyPacketFilterResponse_eq {response g : PacketFilterConfiguration}
    (hparse : parsePacketFilterConfiguration f.text = .ok response)
    (hg : applyPacketFilterResponse caller.val response = .ok g) : g = f := by
  simp only [applyPacketFilterResponse] at hg
  split at hg
  · cases hg
  obtain ⟨hsensor, r, hv, h2, hgeo, rfl, hlen⟩ := resolve_ok
    (resolve_of_negotiate hoffer hf) (.inr hoffer)
  obtain ⟨hsensor', r', hv', _, _, rfl, _⟩ := resolve_ok hg (.inl hoffer)
  by_cases hs : listener.val.sensorProfile = true
  · -- Both sides are the sensor profile: everything is a constant.
    have hl := sensorProfile_eq hs
    have hc := sensorProfile_eq (hsensor ▸ hs)
    rw [hl, hc] at hv
    simp only [if_pos hs, parse_sensorProfileFilterV1, Except.ok.injEq] at hparse
    rw [hc, ← hparse] at hv'
    have hrr : r = r' := Option.some.inj (hv.symm.trans
      ((by decide : resolveValues sensorConfiguration sensorConfiguration
        false = resolveValues sensorConfiguration sensorConfiguration
        true).trans hv'))
    rw [hrr, hs, hsensor.symm.trans hs]
  have hs' : caller.val.sensorProfile = false := by
    rw [← hsensor]; exact Bool.eq_false_iff.2 hs
  simp only [if_neg hs] at hparse hlen
  rw [parse_effectiveText h2 hgeo hlen] at hparse
  obtain rfl := Except.ok.inj hparse
  have hen := resolveValues_enabled hv
  simp only [resolveValues, responseValue, if_true, Option.some.injEq] at hv'
  subst hv'
  rw [if_neg hs, hs']
  simp only [hen, Bool.false_eq_true, if_false, effectiveText]

end

theorem mergeValue_self {α : Type} [DecidableEq α] (s : Bool) (v d : α) :
    mergeValue s v s v d = some (if s then v else d) := by
  cases s <;> simp [mergeValue]

/-- An unconfigured side leaves the other side's values alone. -/
theorem resolveValues_default (c : PacketFilterConfiguration) :
    resolveValues {} c false = resolveValues c c false := by
  simp only [resolveValues, mergeValue_self]
  simp [mergeValue]

section Rendezvous

variable {initiator responder : ParsedPacketFilter} {f : PacketFilterConfiguration}

section

variable (hoffer : initiator.val.enabled = true)
  (hf : negotiatePacketFilterConfiguration responder.val initiator.val true = .ok f)
include hoffer hf

/-- What a responder's successful negotiation of an offer consists of. -/
theorem negotiate_rendezvous_ok :
    (responder.val.enabled = true → responder.val.text = initiator.val.text) ∧
    ∃ r, resolveEffectiveConfiguration responder.val initiator.val false = .ok r
      ∧ f = { r with text := initiator.val.text } := by
  simp only [negotiatePacketFilterConfiguration, hoffer, Bool.not_true,
    Bool.and_false, Bool.false_eq_true, if_false, Bool.true_and,
    Bool.and_true, if_true] at hf
  split at hf
  · cases hf
  next hne =>
  split at hf
  · cases hf
  next r hr =>
  split at hf
  · cases hf
  next hstore =>
  have htext : responder.val.enabled = true → responder.val.text = initiator.val.text := by
    intro he
    simpa [he] using hne
  obtain rfl := Except.ok.inj hf
  refine ⟨htext, r, hr, ?_⟩
  rw [storeText_eq hstore]
  by_cases he : responder.val.enabled = true
  · simp [he, htext he]
  · simp [he]

theorem negotiate_rendezvous_enabled : f.enabled = true := by
  obtain ⟨_, r, hr, rfl⟩ := negotiate_rendezvous_ok hoffer hf
  obtain ⟨_, v, hv, _, _, rfl, _⟩ := resolve_ok hr (.inr hoffer)
  have henabled : v.enabled = true := resolveValues_enabled hv
  exact henabled

/-- Whatever the responder configured, the wire text is the initiator's. -/
theorem negotiate_rendezvous_text : f.text = initiator.val.text := by
  obtain ⟨_, r, _, rfl⟩ := negotiate_rendezvous_ok hoffer hf
  rfl

/-- The initiator, who reads its own text back, settles on what the
responder negotiated. -/
theorem negotiate_rendezvous_self :
    negotiatePacketFilterConfiguration initiator.val initiator.val true = .ok f := by
  obtain ⟨htext, r, hr, _⟩ := negotiate_rendezvous_ok hoffer hf
  by_cases he : responder.val.enabled = true
  · -- Equal texts parse to equal configurations.
    rw [ParsedPacketFilter.eq_of_text (htext he)] at hf
    exact hf
  have hd := ParsedPacketFilter.eq_default (Bool.eq_false_iff.2 he)
  rw [hd] at hf hr
  have hs : initiator.val.sensorProfile = false := (resolve_ok hr (.inr hoffer)).1.symm
  have hres : resolveEffectiveConfiguration {} initiator.val false
      = resolveEffectiveConfiguration initiator.val initiator.val false := by
    have hd : ({} : PacketFilterConfiguration).sensorProfile = false := rfl
    simp only [resolveEffectiveConfiguration, hoffer, hs, hd,
      resolveValues_default, Bool.not_true, Bool.and_false]
  rw [← hf]
  simp [negotiatePacketFilterConfiguration, hoffer, hres]

end

end Rendezvous

end Srt
