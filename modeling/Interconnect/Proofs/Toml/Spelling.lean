/-
How a text is spelled. Every token stands at a place of the text, is read from the characters there, and
ends where the next one starts; so tokens side by side stand together for all the characters from the
first to the last.
-/
import Mathlib.Data.List.Chain
import Interconnect.Toml.Line

namespace Interconnect

/-- Both ends of the span lie in the text. -/
abbrev Span.InText (text : String) (s : Span) : Prop := s.Within text.utf8ByteSize

namespace Toml

/-! ## Bytes -/

theorem byteLength_append (cs ds : List Char) :
    byteLength (cs ++ ds) = byteLength cs + byteLength ds := by
  induction cs with
  | nil => simp [byteLength]
  | cons c rest ih =>
    simp only [byteLength, List.cons_append, List.foldr_cons] at ih ⊢
    omega

theorem byteLength_toList (text : String) : byteLength text.toList = text.utf8ByteSize := by
  have hlist : ∀ cs : List Char, (String.ofList cs).utf8ByteSize = byteLength cs := by
    intro cs
    induction cs with
    | nil => rfl
    | cons c rest ih =>
      rw [String.ofList_cons, String.utf8ByteSize_append, String.utf8ByteSize_singleton, ih]
      rfl
  rw [← hlist, String.ofList_toList]

/-- Two beginnings of the same characters are the same if they have the same number of bytes. -/
theorem append_inj_of_byteLength {cs cs' ds ds' : List Char} (h : cs ++ cs' = ds ++ ds')
    (hlen : byteLength cs = byteLength ds) : cs = ds ∧ cs' = ds' := by
  have hpos : ∀ (c : Char) (rest : List Char), 0 < byteLength (c :: rest) := fun c rest =>
    Nat.lt_of_lt_of_le c.utf8Size_pos (Nat.le_add_right _ _)
  induction cs generalizing ds with
  | nil =>
    cases ds with
    | nil => exact ⟨rfl, h⟩
    | cons d ds => exact absurd hlen (Nat.ne_of_lt (hpos d ds))
  | cons c cs ih =>
    cases ds with
    | nil => exact absurd hlen.symm (Nat.ne_of_lt (hpos c cs))
    | cons d ds =>
      rw [List.cons_append, List.cons_append] at h
      obtain ⟨rfl, hrest⟩ := List.cons_eq_cons.1 h
      obtain ⟨rfl, rfl⟩ := ih hrest (Nat.add_left_cancel hlen)
      exact ⟨rfl, rfl⟩

/-! ## Characters at a place -/

/-- The characters `cs` stand at that place of the text. -/
def Spells (text : String) (s : Span) (cs : List Char) : Prop :=
  ∃ before after, text.toList = before ++ cs ++ after ∧ s.start = byteLength before ∧
    s.stop = byteLength before + byteLength cs

namespace Spells

variable {text : String} {s t : Span} {cs ds : List Char}

theorem ordered (h : Spells text s cs) : s.Ordered := by
  obtain ⟨before, after, -, hstart, hstop⟩ := h
  rw [Span.Ordered, hstart, hstop]
  exact Nat.le_add_right _ _

theorem inText (h : Spells text s cs) : s.InText text := by
  obtain ⟨before, after, htext, hstart, hstop⟩ := h
  have hsize := congrArg byteLength htext
  rw [byteLength_toList, byteLength_append, byteLength_append] at hsize
  constructor <;> omega

/-- There is only one spelling at a place. -/
theorem unique (hc : Spells text s cs) (hd : Spells text s ds) : cs = ds := by
  obtain ⟨before, after, htext, hstart, hstop⟩ := hc
  obtain ⟨before', after', htext', hstart', hstop'⟩ := hd
  rw [htext, List.append_assoc, List.append_assoc] at htext'
  obtain ⟨rfl, hrest⟩ := append_inj_of_byteLength htext' (hstart.symm.trans hstart')
  exact (append_inj_of_byteLength hrest (by omega)).1

/-- What stands side by side stands together at the hull. -/
theorem append (hc : Spells text s cs) (hd : Spells text t ds) (h : s.stop = t.start) :
    Spells text (s.union t) (cs ++ ds) := by
  have hs := hc.ordered
  have ht := hd.ordered
  obtain ⟨before, after, htext, hstart, hstop⟩ := hc
  obtain ⟨before', after', htext', hstart', hstop'⟩ := hd
  have hlen : byteLength (before ++ cs) = byteLength before' := by
    rw [byteLength_append]
    omega
  rw [htext, List.append_assoc before'] at htext'
  obtain ⟨rfl, rfl⟩ := append_inj_of_byteLength htext' hlen
  refine ⟨before, after', by simpa using htext, ?_, ?_⟩
  · show min s.start t.start = _
    unfold Span.Ordered at hs ht
    omega
  · show max s.stop t.stop = _
    unfold Span.Ordered at hs ht
    rw [byteLength_append]
    omega

end Spells

/-! ## Tokens -/

/-- Those characters are read as the token: as they are, if it may be part of a bare value, and from a
quote on, if it is a string. -/
structure Token.ReadFrom (t : Token) (cs : List Char) : Prop where
  bare : ∀ raw, t.bareText? = some raw → raw.toList = cs
  quoted : ∀ value multiline, t.kind = .quoted value multiline → ∃ q ∈ ['"', '\''], cs.head? = some q

/-- The token is read from what stands at its place. -/
def Token.Spelled (text : String) (t : Token) : Prop := ∃ cs, Spells text t.span cs ∧ t.ReadFrom cs

theorem Token.Spelled.inText {text : String} {t : Token} (h : t.Spelled text) : t.span.InText text := by
  obtain ⟨cs, hcs, -⟩ := h
  exact hcs.inText

/-- Each of the places ends where the next one starts. -/
def SideBySide (ss : List Span) : Prop := ss.IsChain fun s t => s.stop = t.start

theorem quoted_of_readString {quote : Char} {cs : List Char} {kind : TokenKind} {width : Nat}
    (h : readString quote cs = some (kind, width)) : ∃ value multiline, kind = .quoted value multiline := by
  unfold readString at h
  dsimp only at h
  split at h
  · split at h <;> obtain ⟨⟨out, n⟩, -, heq⟩ := Option.map_eq_some_iff.1 h <;> cases heq
    · exact ⟨_, _, rfl⟩
    · exact ⟨_, _, rfl⟩
  · obtain ⟨⟨out, n⟩, -, heq⟩ := Option.map_eq_some_iff.1 h
    cases heq
    exact ⟨_, _, rfl⟩

theorem readFrom_of_read {c : Char} {cs : List Char} {kind : TokenKind} {width : Nat}
    (h : TokenKind.read c cs = some (kind, width)) (s : Span) :
    (Token.mk kind s).ReadFrom (c :: cs.take width) := by
  have hmark : ∀ {k : TokenKind} {ds : List Char}, (Token.mk k s).bareText? = none →
      (∀ value multiline, k ≠ .quoted value multiline) → (Token.mk k s).ReadFrom ds := by
    intro k ds hbare hquoted
    exact ⟨fun raw hraw => by simp [hbare] at hraw, fun value multiline hk =>
      absurd hk (hquoted value multiline)⟩
  have hstring : ∀ q ∈ ['"', '\''], readString q cs = some (kind, width) →
      (Token.mk kind s).ReadFrom (q :: cs.take width) := by
    intro q hq hread
    obtain ⟨value, multiline, rfl⟩ := quoted_of_readString hread
    exact ⟨nofun, fun _ _ _ => ⟨q, hq, rfl⟩⟩
  unfold TokenKind.read at h
  split at h
  case h_2 =>
    obtain ⟨-, h⟩ := Option.ite_none_right_eq_some.1 h
    cases h
    exact hmark rfl nofun
  case h_3 =>
    obtain ⟨n, -, h⟩ := Option.map_eq_some_iff.1 h
    cases h
    exact hmark rfl nofun
  case h_4 =>
    cases h
    exact ⟨by rintro _ ⟨⟩; rfl, nofun⟩
  case h_11 => exact hstring _ (by decide) h
  case h_12 => exact hstring _ (by decide) h
  case h_13 =>
    -- blanks, or a bare word, as far as they go
    have htake : ∀ p : Char → Bool, cs.take (cs.takeWhile p).length = cs.takeWhile p := fun p =>
      (List.prefix_iff_eq_take.1 (List.takeWhile_prefix p)).symm
    simp only [Option.some.injEq, Prod.mk.injEq] at h
    obtain ⟨rfl, rfl⟩ := h
    split <;> rw [htake]
    · exact ⟨by rintro _ ⟨⟩; simp, nofun⟩
    · exact ⟨by rintro _ ⟨⟩; simp, nofun⟩
  all_goals
    cases h
    exact hmark rfl nofun

theorem spelled_scan {text : String} (before : List Char) {cs : List Char} {pos skip : Nat}
    {ts : List Token} (htext : text.toList = before ++ cs) (hpos : pos = byteLength before)
    (h : scan pos skip cs = some ts) : ∀ t ∈ ts, t.Spelled text := by
  induction cs generalizing before pos skip ts with
  | nil =>
    cases h
    simp
  | cons c cs ih =>
    have htext' : text.toList = (before ++ [c]) ++ cs := by simpa using htext
    have hpos' : pos + c.utf8Size = byteLength (before ++ [c]) := by
      rw [byteLength_append, hpos]
      rfl
    cases skip with
    | succ k => exact ih _ htext' hpos' h
    | zero =>
      simp only [scan, Option.bind_eq_bind, Option.bind_eq_some_iff] at h
      obtain ⟨⟨kind, width⟩, hread, rest, hrest, h⟩ := h
      cases h
      refine List.forall_mem_cons.2 ⟨?_, ih _ htext' hpos' hrest⟩
      refine ⟨c :: cs.take width, ?_, readFrom_of_read hread _⟩
      refine ⟨before, cs.drop width, by simpa using htext, hpos, ?_⟩
      show pos + c.utf8Size + byteLength (cs.take width) = _
      rw [hpos, Nat.add_assoc]
      rfl

theorem sideBySide_scan {cs : List Char} {pos skip : Nat} {ts : List Token}
    (h : scan pos skip cs = some ts) : SideBySide (ts.map Token.span) ∧
      ∀ t ∈ ts.head?, t.span.start = pos + byteLength (cs.take skip) := by
  induction cs generalizing pos skip ts with
  | nil =>
    cases h
    exact ⟨.nil, nofun⟩
  | cons c cs ih =>
    cases skip with
    | succ k =>
      obtain ⟨hside, hfirst⟩ := ih h
      refine ⟨hside, fun t ht => ?_⟩
      rw [hfirst t ht, Nat.add_assoc]
      rfl
    | zero =>
      simp only [scan, Option.bind_eq_bind, Option.bind_eq_some_iff] at h
      obtain ⟨⟨kind, width⟩, hread, rest, hrest, h⟩ := h
      cases h
      obtain ⟨hside, hfirst⟩ := ih hrest
      refine ⟨List.isChain_cons.2 ⟨?_, hside⟩, ?_⟩
      · intro s hs
        rw [List.head?_map] at hs
        obtain ⟨t, ht, rfl⟩ := Option.map_eq_some_iff.1 hs
        exact (hfirst t ht).symm
      · rintro t ⟨⟩
        rfl

theorem spelled_tokens {text : String} {ts : List Token} (h : tokens? text = some ts) :
    (∀ t ∈ ts, t.Spelled text) ∧ SideBySide (ts.map Token.span) := by
  unfold tokens? at h
  split at h
  · rename_i cs hcs
    exact ⟨spelled_scan ['\ufeff'] hcs (by decide) h, (sideBySide_scan h).1⟩
  · exact ⟨spelled_scan [] rfl rfl h, (sideBySide_scan h).1⟩

/-! ## Bare values -/

/-- Tokens side by side are spelled together. -/
theorem spells_hull {text : String} {t : Token} {ts : List Token} {raws : List String}
    (hts : ∀ u ∈ t :: ts, u.Spelled text) (hside : SideBySide ((t :: ts).map Token.span))
    (h : (t :: ts).mapM Token.bareText? = some raws) :
    Spells text (hull (t :: ts)) (String.join raws).toList := by
  have hbare : ∀ {u : Token} {raw : String}, u.Spelled text → u.bareText? = some raw →
      Spells text u.span raw.toList := by
    rintro u raw ⟨cs, hcs, hread⟩ hraw
    rwa [hread.bare raw hraw]
  -- what has been put together grows by one token after the other
  have hfold : ∀ (us : List Token) (s : Span) (cs : List Char) (raws : List String),
      Spells text s cs → (∀ u ∈ us, u.Spelled text) → SideBySide (s :: us.map Token.span) →
      us.mapM Token.bareText? = some raws →
      Spells text (us.foldl (fun s u => s.union u.span) s) (cs ++ raws.flatMap String.toList) := by
    intro us
    induction us with
    | nil =>
      intro s cs raws hs _ _ hraws
      cases hraws
      simpa using hs
    | cons u us ih =>
      intro s cs raws hs hus hside hraws
      simp only [List.mapM_cons, Option.bind_eq_bind, Option.bind_eq_some_iff] at hraws
      obtain ⟨raw, hraw, rest, hrest, hraws⟩ := hraws
      cases hraws
      obtain ⟨hu, hus⟩ := List.forall_mem_cons.1 hus
      obtain ⟨hnext, hside⟩ := List.isChain_cons_cons.1 hside
      have hu := hbare hu hraw
      have hstop : (s.union u.span).stop = u.span.stop :=
        Nat.max_eq_right (hnext.le.trans hu.ordered)
      have := ih (s.union u.span) _ rest (hs.append hu hnext) hus (hside.imp_head ?_) hrest
      · simpa using this
      · intro v hv
        rwa [hstop]
  simp only [List.mapM_cons, Option.bind_eq_bind, Option.bind_eq_some_iff] at h
  obtain ⟨raw, hraw, rest, hrest, h⟩ := h
  cases h
  obtain ⟨ht, hts⟩ := List.forall_mem_cons.1 hts
  have := hfold ts t.span _ rest (hbare ht hraw) hts hside hrest
  rwa [String.toList_join, List.flatMap_cons]

end Toml

end Interconnect
