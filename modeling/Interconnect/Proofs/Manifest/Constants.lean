/-
Constants that are written as integers. What stands at the place of a constant decides what its connector
carries: a signed integer of 64 bits, in whatever notation, is carried in plain decimal digits, so that
different ones stay different. Above these the nearest float is carried, which no integer is written as,
and an integer that has no form of 64 bits is not loaded at all.
-/
import Interconnect.Proofs.Run.Labels
import Interconnect.Proofs.Toml.Integers

namespace Interconnect

open Toml

/-! ## Texts of numbers -/

/-- A text of nothing but decimal digits and minus signs. -/
def IsPlain (s : String) : Prop := ∀ c ∈ s.toList, c = '-' ∨ c.isDigit = true

theorem isPlain_repr (n : Nat) : IsPlain n.repr := by
  intro c hc
  rw [Nat.toList_repr] at hc
  exact .inr (Nat.isDigit_of_mem_toDigits (by decide) (by decide) hc)

theorem isPlain_toString (n : Int) : IsPlain (toString n) := by
  cases n with
  | ofNat k => exact isPlain_repr k
  | negSucc k =>
    intro c hc
    rw [Int.toString_eq_repr, Int.repr, String.toList_append] at hc
    rcases List.mem_append.1 hc with hc | hc
    · exact .inl (List.mem_singleton.1 hc)
    · exact isPlain_repr _ c hc

namespace FloatLayout

theorem point_mem_positional (digits : List Char) (point : Int) :
    '.' ∈ (positional digits point).toList := by
  unfold positional
  split
  · simp
  · split <;> simp

theorem mark_mem_exponential (digits : List Char) (power : Int) :
    'e' ∈ (exponential digits power).toList := by
  simp [exponential]

/-- Whatever the layout, no float has the text of an integer. -/
theorem not_isPlain_text (layout : FloatLayout) (x : Binary64) : ¬ IsPlain (layout.text x) := by
  -- some character is neither a digit nor a sign
  have hmark : ∀ {s : String} {c : Char}, c ∈ s.toList → c ≠ '-' ∧ c.isDigit = false → ¬ IsPlain s := by
    rintro s c hc ⟨hsign, hdigit⟩ hplain
    rcases hplain c hc with rfl | hc
    · exact hsign rfl
    · rw [hdigit] at hc
      cases hc
  cases x with
  | nan => exact hmark (c := 'N') (by simp [text]) (by decide)
  | infinity negative => cases negative <;> exact hmark (c := 'i') (by simp [text]) (by decide)
  | finite negative m e form =>
    simp only [text]
    generalize (if negative = true then "-" else "") = sign
    split
    · exact hmark (c := '.') (by simp) (by decide)
    · split
      · refine hmark (c := '.') ?_ (by decide)
        rw [String.toList_append]
        exact List.mem_append_right _ (point_mem_positional _ _)
      · refine hmark (c := 'e') ?_ (by decide)
        rw [String.toList_append]
        exact List.mem_append_right _ (mark_mem_exponential _ _)

end FloatLayout

namespace Manifest

/-! ## Literals -/

/-- The literal of an integer: itself if it is signed, and else the float next to it. -/
def Literal.ofInteger (n : Int) : Literal :=
  if isSigned 64 n then .integer n else .float (Binary64.ofNat n.toNat)

/-- Only the literal of a signed integer has a text of plain digits, and it is that of the integer. -/
theorem Literal.render_ofInteger_eq_iff {n n' : Int} :
    (ofInteger n).render = toString n' ↔ isSigned 64 n = true ∧ n = n' := by
  unfold ofInteger
  split
  · rename_i h
    show toString n = toString n' ↔ _
    constructor
    · intro heq
      have hn := writtenInteger_toString n
      rw [heq] at hn
      exact ⟨h, hn.unique (writtenInteger_toString n')⟩
    · rintro ⟨-, rfl⟩
      rfl
  · rename_i h
    refine ⟨fun heq => ?_, fun hsigned => absurd hsigned.1 h⟩
    have hplain := isPlain_toString n'
    rw [← heq] at hplain
    exact absurd hplain (FloatLayout.not_isPlain_text _ _)

theorem Literal.read_integer {span : Span} {n : Int} {l : Literal}
    (h : Literal.read (.integer span n) = .ok l) : hasForm 64 n = true ∧ l = ofInteger n := by
  have hform : hasForm 64 n = true := by
    by_contra hwide
    unfold Literal.read Value.numberFault? at h
    cases hfound : (Value.integer span n).found? <;> simp [hfound, hwide] at h
  refine ⟨hform, ?_⟩
  unfold Literal.read at h
  split at h
  · cases h
  · cases h
    rfl

/-- What a literal is read from is spelled in the text; and if it is spelled as an integer, then that is
the integer it is made of. -/
theorem Literal.integer_of_written {text : String} {v : Value} (hv : v.Written text) {l : Literal}
    (h : Literal.read v = .ok l) : ∃ cs, Spells text v.span cs ∧
      ∀ n, WrittenInteger cs n → hasForm 64 n = true ∧ l = ofInteger n := by
  have hspelled := hv.spelled
  have hbare : ∀ {cs : List Char} {s : Scalar}, Scalar.read (String.ofList cs) = some s →
      v = .ofScalar v.span s → ∀ n, WrittenInteger cs n → hasForm 64 n = true ∧ l = ofInteger n := by
    intro cs s hread heq n hn
    rw [← @String.toList_ofList cs, ← Scalar.read_eq_integer_iff, hread] at hn
    cases hn
    rw [heq] at h
    exact read_integer h
  cases v with
  | string span s =>
    obtain ⟨cs, hcs, q, hq, hhead⟩ := hspelled
    refine ⟨cs, hcs, fun n hn => absurd (hn.head hhead) ?_⟩
    have hquote : q = '"' ∨ q = '\'' := by simpa using hq
    rcases hquote with rfl | rfl <;> decide
  | array span items =>
    unfold Literal.read at h
    split at h <;> cases h
  | table span entries =>
    unfold Literal.read at h
    split at h <;> cases h
  | _ =>
    obtain ⟨cs, s, hcs, hread, heq⟩ := hspelled
    exact ⟨cs, hcs, hbare hread heq⟩

/-! ## Connectors -/

/-- The connectors of declarations are parts of them. -/
theorem Declarations.forall_connectEntries {P : Part → Prop} {d : Declarations}
    (h : ∀ p ∈ d.parts, P p) : ∀ x ∈ d.connectEntries, P (.connector x) := by
  obtain ⟨hcomponents, hexpansions⟩ := forall_parts.1 h
  simp only [connectEntries, List.forall_mem_append, List.forall_mem_flatMap]
  refine ⟨fun c hc => ?_, fun n hn => (forall_expansionNodes d.expansions hexpansions n hn).2.2⟩
  obtain ⟨-, -, -, hinstances, hconnectors⟩ := ComponentEntry.forall_parts.1 (hcomponents c hc)
  exact ⟨hconnectors, fun i hi => (InstanceEntry.forall_parts.1 (hinstances i hi)).2.2⟩

/-- The connector that is declared at that place has a constant, and it is written with those characters. -/
def Declarations.WritesConstant (text : String) (d : Declarations) (place : Nat) (cs : List Char) :
    Prop :=
  ∃ x c, d.connectEntries[place]? = some x ∧ x.constant = some c ∧ Spells text c.span cs

/-- What the connectors of a model carry for constants that the text writes as integers. -/
structure Declarations.CarriesIntegers (text : String) (d : Declarations) (m : Model) : Prop where
  /-- Constant connectors are those for which something is written. -/
  constant_iff : ∀ (place : Nat) (k : Connector), m.connectors[place]? = some k →
    (k.isConstant = true ↔ ∃ cs, d.WritesConstant text place cs)
  /-- Whatever the notation, a signed integer is carried in plain digits. No other one is: the nearest
  float stands for it. -/
  literal : ∀ (place : Nat) (k : Connector) (cs : List Char) (n : Int),
    m.connectors[place]? = some k → d.WritesConstant text place cs → WrittenInteger cs n →
    hasForm 64 n = true ∧ k.constant = some (Literal.ofInteger n).render ∧
      (k.constant = some (toString n) ↔ isSigned 64 n = true)
  /-- A signed integer is told apart from all others. -/
  constant_inj : ∀ (place place' : Nat) (k k' : Connector) (cs cs' : List Char) (n n' : Int),
    m.connectors[place]? = some k → d.WritesConstant text place cs → WrittenInteger cs n →
    m.connectors[place']? = some k' → d.WritesConstant text place' cs' → WrittenInteger cs' n' →
    isSigned 64 n = true → (k.constant = k'.constant ↔ n = n')

namespace Declarations.Describes

variable {text : String} {d : Declarations} {m : Model} (h : d.Describes m)
  (hwritten : ∀ p ∈ d.parts, p.Written text) {place : Nat} {k : Connector}

include h hwritten

/-- A connector is that of the entry at its place, and the entry is read from the text. -/
theorem exists_entry (hk : m.connectors[place]? = some k) : ∃ x : ConnectEntry,
    d.connectEntries[place]? = some x ∧ x.Written text ∧ ∃ scope, x.Describes scope k := by
  obtain ⟨x, hx, hdescribes⟩ := getElem?_of_forall₂ h.forall₂_connectors hk
  exact ⟨x, hx, d.forall_connectEntries hwritten x (List.mem_of_getElem? hx), hdescribes⟩

/-- Something is written for every constant connector. -/
theorem exists_writesConstant (hk : m.connectors[place]? = some k) (hconstant : k.isConstant = true) :
    ∃ cs, d.WritesConstant text place cs := by
  obtain ⟨x, hx, hspelled, scope, hdescribes⟩ := h.exists_entry hwritten hk
  rcases hdescribes.reads with ⟨-, -, -, hnone, -⟩ | ⟨c, -, -, hc, -⟩
  · rw [Connector.isConstant, hnone] at hconstant
    cases hconstant
  · obtain ⟨v, hv, hspan, hread⟩ := hspelled.constant c hc
    obtain ⟨cs, hcs, -⟩ := Literal.integer_of_written hv hread
    exact ⟨cs, x, c, hx, hc, hspan ▸ hcs⟩

/-- Where something is written for a constant, the connector carries the literal that it stands for. -/
theorem exists_literal {cs : List Char} (hk : m.connectors[place]? = some k)
    (hwrites : d.WritesConstant text place cs) : ∃ l : Literal, k.constant = some l.render ∧
      ∀ n, WrittenInteger cs n → hasForm 64 n = true ∧ l = .ofInteger n := by
  obtain ⟨x, c, hx, hc, hcs⟩ := hwrites
  obtain ⟨x', hx', hspelled, scope, hdescribes⟩ := h.exists_entry hwritten hk
  cases hx.symm.trans hx'
  obtain ⟨v, hv, hspan, hread⟩ := hspelled.constant c hc
  obtain ⟨cs', hcs', hinteger⟩ := Literal.integer_of_written hv hread
  rw [hspan] at hcs'
  refine ⟨_, ?_, hcs.unique hcs' ▸ hinteger⟩
  rw [hdescribes.constant, hc, Option.map_some]

theorem constant_eq {cs : List Char} {n : Int} (hk : m.connectors[place]? = some k)
    (hwrites : d.WritesConstant text place cs) (hn : WrittenInteger cs n) :
    k.constant = some (Literal.ofInteger n).render := by
  obtain ⟨l, hconstant, hl⟩ := h.exists_literal hwritten hk hwrites
  rw [hconstant, (hl n hn).2]

theorem carriesIntegers : d.CarriesIntegers text m := by
  refine ⟨fun place k hk => ⟨h.exists_writesConstant hwritten hk, ?_⟩,
    fun place k cs n hk hwrites hn => ?_, ?_⟩
  · rintro ⟨cs, hwrites⟩
    obtain ⟨l, hconstant, -⟩ := h.exists_literal hwritten hk hwrites
    rw [Connector.isConstant, hconstant]
    rfl
  · obtain ⟨l, -, hl⟩ := h.exists_literal hwritten hk hwrites
    have hconstant := h.constant_eq hwritten hk hwrites hn
    refine ⟨(hl n hn).1, hconstant, ?_⟩
    rw [hconstant, Option.some.injEq, Literal.render_ofInteger_eq_iff]
    exact and_iff_left rfl
  · intro place place' k k' cs cs' n n' hk hwrites hn hk' hwrites' hn' hsigned
    -- the text of a signed integer is the text of no other literal
    have hplain := Literal.render_ofInteger_eq_iff.2 ⟨hsigned, (rfl : n = n)⟩
    rw [h.constant_eq hwritten hk hwrites hn, h.constant_eq hwritten hk' hwrites' hn',
      Option.some.injEq, hplain]
    constructor
    · intro heq
      exact (Literal.render_ofInteger_eq_iff.1 heq.symm).2.symm
    · rintro rfl
      exact hplain.symm

end Declarations.Describes

theorem Declarations.writesConstant_of_span {text : String} {d : Declarations} {place : Nat}
    {s : Span} {cs : List Char}
    (h : (d.connectEntries.map fun x => x.constant.map Placed.span)[place]? = some (some s))
    (hcs : Spells text s cs) : d.WritesConstant text place cs := by
  rw [List.getElem?_map] at h
  obtain ⟨x, hx, hspan⟩ := Option.map_eq_some_iff.1 h
  obtain ⟨c, hc, rfl⟩ := Option.map_eq_some_iff.1 hspan
  exact ⟨x, c, hx, hc, hcs⟩

/-- Declarations without flaws whose design builds are loaded, so it is enough to read a text once. -/
theorem exists_load_of_declarations {text : String} {spans : List (Option Span)}
    {literals : List (Option String)}
    (h : (declarations text).toOption.map (fun d => (d.flaws,
      d.connectEntries.map (fun x => x.constant.map Placed.span),
      d.design.build.toOption.map (·.connectors.map Connector.constant))) =
        some ([], spans, some literals)) :
    ∃ d m, declarations text = .ok d ∧ load text = .ok m ∧
      (d.connectEntries.map fun x => x.constant.map Placed.span) = spans ∧
      m.connectors.map Connector.constant = literals := by
  obtain ⟨d, hd, heq⟩ := exists_ok h
  obtain ⟨hflaws, heq⟩ := Prod.mk.inj heq
  obtain ⟨hspans, hbuilt⟩ := Prod.mk.inj heq
  obtain ⟨m, hm, hliterals⟩ := exists_ok hbuilt
  exact ⟨d, m, hd, (load_eq_ok_iff hd).2 ⟨hflaws, hm⟩, hspans, hliterals⟩

/-- A loaded model carries the constants that its text writes as signed integers of 64 bits in plain digits,
whatever their notation, and no others. Integers beyond 64 bits are not loaded. -/
theorem carriesIntegers_of_load {text : String} {m : Model} (h : load text = .ok m) :
    ∃ d, declarations text = .ok d ∧ d.CarriesIntegers text m := by
  cases hd : declarations text with
  | error failure =>
    rw [load, hd] at h
    cases h
  | ok d =>
    obtain ⟨hflaws, hbuild⟩ := (load_eq_ok_iff hd).1 h
    obtain ⟨-, rfl⟩ := Design.build_eq_ok_iff.1 hbuild
    exact ⟨d, rfl, (d.describes_assemble hflaws).carriesIntegers (written_declarations hd)⟩

/-- Integers in two notations other than plain digits. -/
def notationManifest : String :=
  "component=[\x7bname='b',connect=[\x7bconstant=0xff,target='z'\x7d," ++
    "\x7bconstant=-1_000,target='z'\x7d]\x7d]"

theorem carriesIntegers_of_load_notations : ∃ d m, declarations notationManifest = .ok d ∧
    load notationManifest = .ok m ∧
    d.WritesConstant notationManifest 0 "0xff".toList ∧ WrittenInteger "0xff".toList 255 ∧
    d.WritesConstant notationManifest 1 "-1_000".toList ∧ WrittenInteger "-1_000".toList (-1000) ∧
    m.connectors.map Connector.constant = [some "255", some "-1000"] ∧
    d.CarriesIntegers notationManifest m := by
  have hread : ∃ d m, declarations notationManifest = .ok d ∧ load notationManifest = .ok m ∧
      (d.connectEntries.map fun x => x.constant.map Placed.span) =
        [some ⟨40, 44⟩, some ⟨67, 73⟩] ∧
      m.connectors.map Connector.constant = [some "255", some "-1000"] :=
    exists_load_of_declarations (by decide +kernel)
  obtain ⟨d, m, hd, hm, hspans, hliterals⟩ := hread
  obtain ⟨d', hd', hcarries⟩ := carriesIntegers_of_load hm
  cases hd.symm.trans hd'
  refine ⟨d, m, hd, hm, ?_, ?_, ?_, ?_, hliterals, hcarries⟩
  · refine Declarations.writesConstant_of_span (by rw [hspans]; rfl) ?_
    exact ⟨notationManifest.toList.take 40, notationManifest.toList.drop 44, by decide +kernel⟩
  · exact Scalar.read_eq_integer_iff.1 (by decide +kernel)
  · refine Declarations.writesConstant_of_span (by rw [hspans]; rfl) ?_
    exact ⟨notationManifest.toList.take 67, notationManifest.toList.drop 73, by decide +kernel⟩
  · exact Scalar.read_eq_integer_iff.1 (by decide +kernel)

/-- Two integers that need all 64 bits, one after the other. -/
def wideManifest : String :=
  "component=[\x7bname='b',connect=[\x7bconstant=9223372036854775808,target='z'\x7d," ++
    "\x7bconstant=9223372036854775809,target='z'\x7d]\x7d]"

/-- Above the signed integers the literal is not the integer, and different ones become the same. -/
theorem wide_integers_merge : ∃ d m, declarations wideManifest = .ok d ∧ load wideManifest = .ok m ∧
    d.WritesConstant wideManifest 0 "9223372036854775808".toList ∧
    WrittenInteger "9223372036854775808".toList 9223372036854775808 ∧
    d.WritesConstant wideManifest 1 "9223372036854775809".toList ∧
    WrittenInteger "9223372036854775809".toList 9223372036854775809 ∧
    m.connectors.map Connector.constant =
      [some "9.223372036854776e18", some "9.223372036854776e18"] ∧
    "9.223372036854776e18" ≠ toString (9223372036854775808 : Int) := by
  have hread : ∃ d m, declarations wideManifest = .ok d ∧ load wideManifest = .ok m ∧
      (d.connectEntries.map fun x => x.constant.map Placed.span) =
        [some ⟨40, 59⟩, some ⟨82, 101⟩] ∧
      m.connectors.map Connector.constant =
        [some "9.223372036854776e18", some "9.223372036854776e18"] :=
    exists_load_of_declarations (by decide +kernel)
  obtain ⟨d, m, hd, hm, hspans, hliterals⟩ := hread
  refine ⟨d, m, hd, hm, ?_, ?_, ?_, ?_, hliterals, by decide +kernel⟩
  · refine Declarations.writesConstant_of_span (by rw [hspans]; rfl) ?_
    exact ⟨wideManifest.toList.take 40, wideManifest.toList.drop 59, by decide +kernel⟩
  · exact Scalar.read_eq_integer_iff.1 (by decide +kernel)
  · refine Declarations.writesConstant_of_span (by rw [hspans]; rfl) ?_
    exact ⟨wideManifest.toList.take 82, wideManifest.toList.drop 101, by decide +kernel⟩
  · exact Scalar.read_eq_integer_iff.1 (by decide +kernel)

end Manifest

end Interconnect
