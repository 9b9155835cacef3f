/-
Places in a document. Every key is a token, and every value is a token or tokens side by side, or stands
between two brackets, or is a table named by a key; so everything in a document has its place in the text,
and a bare value or a string is spelled there.
-/
import Interconnect.Proofs.Toml.Tables

namespace Interconnect.Toml

/-! ## Keys and headers -/

variable {text : String} {ts : List Token}

theorem infix_trimBoth {α : Type} (p : α → Bool) (l : List α) : trimBoth p l <:+: l := by
  have hback := List.reverse_prefix.2 ((List.dropWhile_suffix p (l := (l.dropWhile p).reverse)))
  rw [List.reverse_reverse] at hback
  exact hback.isInfix.trans (List.dropWhile_suffix p).isInfix

theorem mem_of_between? {opening closing : List TokenKind} {inner : List Token}
    (h : between? opening closing ts = some inner) : inner ⊆ ts := by
  obtain ⟨-, h⟩ := Option.ite_none_right_eq_some.1 h
  cases h
  exact List.Subset.trans (List.take_subset _ _) (List.drop_subset _ _)

section

variable (hts : ∀ t ∈ ts, t.span.InText text)

include hts

theorem inText_hull : (hull ts).InText text := by
  have hfold : ∀ (rest : List Token) (s : Span), s.InText text → (∀ t ∈ rest, t.span.InText text) →
      (rest.foldl (fun s u => s.union u.span) s).InText text := by
    intro rest
    induction rest with
    | nil => exact fun s hs _ => hs
    | cons t rest ih =>
      intro s hs hrest
      obtain ⟨ht, hrest⟩ := List.forall_mem_cons.1 hrest
      exact ih _ (Span.union_within hs ht) hrest
  cases ts with
  | nil => exact Span.default_within _
  | cons t rest =>
    obtain ⟨ht, hrest⟩ := List.forall_mem_cons.1 hts
    exact hfold rest t.span ht hrest

theorem inText_dottedKeys {keys : List Key} (h : dottedKeys? ts = some keys) :
    ∀ k ∈ keys, k.span.InText text := by
  have hkey : ∀ {t : Token} {k : Key}, t.key? = some k → k.span = t.span := by
    intro t k hk
    unfold Token.key? at hk
    split at hk
    · split at hk <;> cases hk
      rfl
    · cases hk
      rfl
    · cases hk
  induction ts using dottedKeys?.induct generalizing keys with
  | case1 => cases h
  | case2 t =>
    obtain ⟨k, hk, rfl⟩ := Option.map_eq_some_iff.1 h
    simpa [hkey hk] using hts
  | case3 t dot rest hdot ih =>
    simp only [dottedKeys?, hdot, if_true, Option.bind_eq_bind, Option.bind_eq_some_iff] at h
    obtain ⟨k, hk, keys, hkeys, h⟩ := h
    cases h
    obtain ⟨ht, hrest⟩ := List.forall_mem_cons.1 hts
    have hrest := ih (List.forall_mem_cons.1 hrest).2 hkeys
    exact List.forall_mem_cons.2 ⟨hkey hk ▸ ht, hrest⟩
  | case4 t dot rest hdot =>
    simp only [dottedKeys?, hdot, if_false] at h
    cases h

theorem inText_keyPath {path : List Key} {key : Key} (h : keyPath? ts = some (path, key)) :
    (∀ k ∈ path, k.span.InText text) ∧ key.span.InText text := by
  simp only [keyPath?, Option.bind_eq_bind, Option.bind_eq_some_iff] at h
  obtain ⟨keys, hkeys, h⟩ := h
  have hkeys := inText_dottedKeys (fun t ht => hts t (List.mem_filter.1 ht).1) hkeys
  obtain ⟨-, h⟩ := Option.ite_none_left_eq_some.1 h
  obtain ⟨last, hlast, h⟩ := Option.bind_eq_some_iff.1 h
  cases h
  exact ⟨fun k hk => hkeys k (List.dropLast_subset _ hk), hkeys _ (List.mem_of_getLast? hlast)⟩

end

/-- The keys of a line, its value and its header have their places in the text. -/
def Line.Written (text : String) : Line → Prop
  | assign path key value =>
    (∀ k ∈ path, k.span.InText text) ∧ key.span.InText text ∧ value.Written text
  | header _ path key span =>
    (∀ k ∈ path, k.span.InText text) ∧ key.span.InText text ∧ span.InText text

theorem written_headerLine (hts : ∀ t ∈ ts, t.span.InText text) {ls : List Line}
    (h : headerLine? ts = some ls) : ∀ l ∈ ls, l.Written text := by
  have htrim : ∀ t ∈ trimBoth Token.isBlank ts, t.span.InText text := fun t ht =>
    hts t ((infix_trimBoth _ _).subset ht)
  simp only [headerLine?] at h
  split at h
  · cases h
    simp
  · split at h
    · rename_i inner hinner
      obtain ⟨⟨path, key⟩, hpath, h⟩ := Option.bind_eq_some_iff.1 h
      cases h
      obtain ⟨hpath, hkey⟩ := inText_keyPath (fun t ht => htrim t (mem_of_between? hinner ht)) hpath
      exact List.forall_mem_singleton.2 ⟨hpath, hkey, inText_hull htrim⟩
    · simp only [Option.bind_eq_bind, Option.bind_eq_some_iff] at h
      obtain ⟨inner, hinner, ⟨path, key⟩, hpath, h⟩ := h
      cases h
      obtain ⟨hpath, hkey⟩ := inText_keyPath (fun t ht => htrim t (mem_of_between? hinner ht)) hpath
      exact List.forall_mem_singleton.2 ⟨hpath, hkey, inText_hull htrim⟩

/-! ## Values -/

/-- Whatever is got from the members of a list one by one has what these give. -/
theorem forall_mem_of_mapM {α β : Type} {f : α → Option β} {P : β → Prop} {xs : List α} {ys : List β}
    (h : xs.mapM f = some ys) (hf : ∀ x ∈ xs, ∀ y, f x = some y → P y) : ∀ y ∈ ys, P y := by
  induction xs generalizing ys with
  | nil =>
    cases h
    simp
  | cons x rest ih =>
    simp only [List.mapM_cons, Option.bind_eq_bind, Option.bind_eq_some_iff] at h
    obtain ⟨y, hy, ys, hys, h⟩ := h
    cases h
    obtain ⟨hx, hrest⟩ := List.forall_mem_cons.1 hf
    exact List.forall_mem_cons.2 ⟨hx y hy, ih hys hrest⟩

/-- What every step keeps is kept by all of them. -/
theorem of_foldlM {α β : Type} {f : β → α → Option β} {P : β → Prop} {xs : List α} {b out : β}
    (h : xs.foldlM f b = some out) (hb : P b)
    (hf : ∀ b, ∀ x ∈ xs, P b → ∀ out, f b x = some out → P out) : P out := by
  induction xs generalizing b with
  | nil =>
    cases h
    exact hb
  | cons x rest ih =>
    rw [List.foldlM_cons] at h
    obtain ⟨b', hb', h⟩ := Option.bind_eq_some_iff.1 h
    exact ih h (hf b x (List.mem_cons_self ..) hb b' hb') fun b y hy =>
      hf b y (List.mem_cons_of_mem _ hy)

/-- The first part that a list is split into starts the list, and the others follow on it. -/
theorem infix_of_mem_splitAtAll {α : Type} {p : α → Bool} {l : List α} :
    (∀ part ∈ (splitAtAll p l).head?, part <+: l) ∧ ∀ part ∈ splitAtAll p l, part <:+: l := by
  induction l with
  | nil => simp [splitAtAll]
  | cons a rest ih =>
    obtain ⟨hfirst, hall⟩ := ih
    unfold splitAtAll
    split
    · have hone : [a] <+: a :: rest := List.cons_prefix_cons.2 ⟨rfl, List.nil_prefix⟩
      exact ⟨by rintro _ ⟨⟩; exact hone, List.forall_mem_singleton.2 hone.isInfix⟩
    · rename_i first others heq
      rw [heq] at hfirst hall
      have hfirst : a :: first <+: a :: rest := List.cons_prefix_cons.2 ⟨rfl, hfirst first rfl⟩
      have hall : ∀ part ∈ first :: others, part <:+: a :: rest := fun part hpart =>
        List.infix_cons (hall part hpart)
      split
      · refine ⟨by rintro _ ⟨⟩; exact List.nil_prefix, List.forall_mem_cons.2 ⟨?_, hall⟩⟩
        exact List.nil_infix
      · refine ⟨by rintro _ ⟨⟩; exact hfirst, List.forall_mem_cons.2 ⟨hfirst.isInfix, ?_⟩⟩
        exact (List.forall_mem_cons.1 hall).2

def Piece.span : Piece → Span
  | token t => t.span
  | value v => v.span

/-- What the piece is made of is spelled in the text. -/
def Piece.Written (text : String) : Piece → Prop
  | token t => t.Spelled text
  | value v => v.Written text

/-- Pieces of the text, each of them where the one before it ends. -/
structure Row (text : String) (pieces : List Piece) : Prop where
  written : ∀ p ∈ pieces, p.Written text
  sideBySide : SideBySide (pieces.map Piece.span)

namespace Row

variable {pieces : List Piece}

theorem nil : Row text [] := ⟨nofun, .nil⟩

theorem cut {part : List Piece} (h : Row text pieces) (hpart : part <:+: pieces) :
    Row text part :=
  ⟨fun p hp => h.written p (hpart.subset hp), List.IsChain.infix h.sideBySide (hpart.map _)⟩

theorem commaParts {part : List Piece} (h : Row text pieces) (hpart : part ∈ commaParts pieces) :
    Row text part := by
  refine h.cut ?_
  simp only [Toml.commaParts] at hpart
  split at hpart
  · exact infix_of_mem_splitAtAll.2 part (List.dropLast_subset _ hpart)
  · exact infix_of_mem_splitAtAll.2 part hpart

/-- Pieces that are tokens all of them. -/
theorem tokens (h : Row text pieces) (hts : pieces.mapM Piece.token? = some ts) :
    (∀ t ∈ ts, t.Spelled text) ∧ SideBySide (ts.map Token.span) := by
  have hpieces : pieces = ts.map .token := by
    clear h
    induction pieces generalizing ts with
    | nil =>
      cases hts
      rfl
    | cons p rest ih =>
      simp only [List.mapM_cons, Option.bind_eq_bind, Option.bind_eq_some_iff] at hts
      obtain ⟨t, ht, ts, hts, heq⟩ := hts
      cases heq
      cases p with
      | token t' =>
        cases ht
        rw [ih hts, List.map_cons]
      | value v => cases ht
  subst hpieces
  refine ⟨fun t ht => h.written _ (List.mem_map_of_mem ht), ?_⟩
  have hside := h.sideBySide
  rwa [List.map_map] at hside

theorem value {v : Value} (h : Row text pieces) (hv : value? pieces = some v) : v.Written text := by
  have htrim := h.cut (infix_trimBoth Piece.isTrivia pieces)
  unfold value? at hv
  -- nothing, what stood in brackets, or tokens: a string, or a bare value, which spans all of them
  split at hv
  · cases hv
  · rename_i w heq
    cases hv
    rw [heq] at htrim
    exact htrim.written _ (List.mem_singleton_self _)
  · obtain ⟨ts, hts, hv⟩ := Option.bind_eq_some_iff.1 hv
    obtain ⟨hspelled, hside⟩ := htrim.tokens hts
    split at hv
    · cases hv
      have ht := hspelled _ (List.mem_singleton_self _)
      obtain ⟨cs, hcs, hread⟩ := ht
      exact Value.written_leaf hcs.inText ⟨cs, hcs, hread.quoted _ _ rfl⟩ rfl rfl
    · simp only [Option.bind_eq_bind, Option.bind_eq_some_iff] at hv
      obtain ⟨raws, hraws, s, hs, hv⟩ := hv
      cases hv
      cases ts with
      | nil =>
        cases hraws
        cases hs
      | cons t rest =>
        have hcs := spells_hull hspelled hside hraws
        have hleaf : (Value.ofScalar (hull (t :: rest)) s).Spelled text := by
          have hread : Scalar.read (String.ofList (String.join raws).toList) = some s := by
            rwa [String.ofList_toList]
          cases s <;> exact ⟨_, _, hcs, hread, rfl⟩
        cases s <;> exact Value.written_leaf hcs.inText hleaf rfl rfl

theorem entry {path : List Key} {key : Key} {v : Value} (h : Row text pieces)
    (he : entry? pieces = some (path, key, v)) :
    (∀ k ∈ path, k.span.InText text) ∧ key.span.InText text ∧ v.Written text := by
  unfold entry? at he
  simp only [Option.bind_eq_bind, Option.bind_eq_some_iff] at he
  obtain ⟨left, hleft, ⟨path, key⟩, hpath, v, hv, he⟩ := he
  cases he
  have hleft := (h.cut ((infix_trimBoth ..).trans (List.takeWhile_prefix _).isInfix)).tokens hleft
  obtain ⟨hpath, hkey⟩ := inText_keyPath (fun t ht => (hleft.1 t ht).inText) hpath
  refine ⟨hpath, hkey, (h.cut ?_).value hv⟩
  exact ((List.drop_suffix ..).trans (List.dropWhile_suffix _)).isInfix

theorem close {b : Bracket} {span : Span} {v : Value} (h : Row text pieces)
    (hspan : span.InText text) (hv : b.close? span pieces = some v) : v.Written text := by
  cases b with
  | square =>
    obtain ⟨items, hitems, hv⟩ := Option.bind_eq_some_iff.1 hv
    cases hv
    refine ⟨hspan, trivial, nofun, forall_mem_of_mapM hitems fun part hpart v hv => ?_⟩
    exact (h.commaParts hpart).value hv
  | curly =>
    simp only [Bracket.close?, Option.bind_eq_bind, Option.bind_eq_some_iff] at hv
    obtain ⟨entries, hentries, inner, hinner, hv⟩ := hv
    cases hv
    have hentries := forall_mem_of_mapM hentries
      (P := fun e => (∀ k ∈ e.1, k.span.InText text) ∧ e.2.1.span.InText text ∧ e.2.2.Written text)
      fun part hpart e he => (h.commaParts hpart).entry he
    have hinner : Entries.Written text inner := by
      refine of_foldlM hinner Entries.written_nil fun es e he hes out hout => ?_
      obtain ⟨hpath, hkey, hv⟩ := hentries e he
      exact hes.assign hpath hkey hv hout
    exact hinner.toValues hspan

end Row

theorem span_of_close {b : Bracket} {span : Span} {pieces : List Piece} {v : Value}
    (h : b.close? span pieces = some v) : v.span = span := by
  cases b with
  | square =>
    obtain ⟨items, -, h⟩ := Option.bind_eq_some_iff.1 h
    cases h
    rfl
  | curly =>
    obtain ⟨entries, -, h⟩ := Option.bind_eq_some_iff.1 h
    obtain ⟨inner, -, h⟩ := Option.bind_eq_some_iff.1 h
    cases h
    rfl

/-! ## Reading -/

/-- Pieces of the text side by side, the last one first, up to that place. -/
structure Stack (text : String) (pos : Nat) (pieces : List Piece) : Prop where
  row : Row text pieces.reverse
  top : ∀ p ∈ pieces.head?, p.span.stop = pos

namespace Stack

variable {pos : Nat} {pieces : List Piece}

theorem nil : Stack text pos [] := ⟨.nil, nofun⟩

theorem push (h : Stack text pos pieces) {p : Piece} (hp : p.Written text) (hpos : p.span.start = pos) :
    Stack text p.span.stop (p :: pieces) := by
  refine ⟨⟨?_, ?_⟩, by rintro _ ⟨⟩; rfl⟩
  · intro q hq
    rw [List.reverse_cons] at hq
    rcases List.mem_append.1 hq with hq | hq
    · exact h.row.written q hq
    · rw [List.mem_singleton.1 hq]
      exact hp
  · rw [List.reverse_cons, List.map_append]
    refine List.isChain_append.2 ⟨h.row.sideBySide, .singleton _, ?_⟩
    rintro s hs t ⟨⟩
    rw [List.getLast?_map, List.getLast?_reverse] at hs
    obtain ⟨q, hq, rfl⟩ := Option.map_eq_some_iff.1 hs
    rw [h.top q hq, hpos]

end Stack

/-- What a reader has read of a line is written in the text, up to that place. -/
def Phase.Written (text : String) (pos : Nat) : Phase → Prop
  | left ts => ∀ t ∈ ts, t.span.InText text
  | right path key frames pieces =>
    (∀ k ∈ path, k.span.InText text) ∧ key.span.InText text ∧
      (∀ f ∈ frames, f.start ≤ text.utf8ByteSize ∧ Stack text f.start f.before) ∧
      Stack text pos pieces

structure Reader.Written (text : String) (pos : Nat) (r : Reader) : Prop where
  lines : ∀ l ∈ r.lines, l.Written text
  phase : r.phase.Written text pos

namespace Reader.Written

variable {pos : Nat} {r r' : Reader} (h : r.Written text pos)

include h

theorem endLine (hr : r.endLine? = some r') (pos' : Nat) : r'.Written text pos' := by
  obtain ⟨lines, phase⟩ := r
  obtain ⟨hlines, hphase⟩ := h
  cases phase with
  | left ts =>
    obtain ⟨ls, hls, hr⟩ := Option.bind_eq_some_iff.1 hr
    cases hr
    have hls := written_headerLine (fun t ht => hphase t (List.mem_reverse.1 ht)) hls
    refine ⟨fun l hl => ?_, nofun⟩
    rcases List.mem_append.1 hl with hl | hl
    · exact hls l (List.mem_reverse.1 hl)
    · exact hlines l hl
  | right path key frames pieces =>
    obtain ⟨hpath, hkey, -, hpieces⟩ := hphase
    cases frames with
    | nil =>
      obtain ⟨v, hv, hr⟩ := Option.bind_eq_some_iff.1 hr
      cases hr
      exact ⟨List.forall_mem_cons.2 ⟨⟨hpath, hkey, hpieces.row.value hv⟩, hlines⟩, nofun⟩
    | cons frame frames => cases hr

theorem openBracket {b : Bracket} (hpos : pos ≤ text.utf8ByteSize)
    (hr : r.openBracket? b pos = some r') (pos' : Nat) : r'.Written text pos' := by
  obtain ⟨lines, phase⟩ := r
  obtain ⟨hlines, hphase⟩ := h
  cases phase with
  | left ts => cases hr
  | right path key frames pieces =>
    obtain ⟨hpath, hkey, hframes, hpieces⟩ := hphase
    obtain ⟨-, hr⟩ := Option.ite_none_right_eq_some.1 hr
    cases hr
    exact ⟨hlines, hpath, hkey, List.forall_mem_cons.2 ⟨⟨hpos, hpieces⟩, hframes⟩, .nil⟩

/-- What stood in brackets starts where the pieces before it end. -/
theorem closeBracket {b : Bracket} {stop : Nat} (hstop : stop ≤ text.utf8ByteSize)
    (hr : r.closeBracket? b stop = some r') : r'.Written text stop := by
  obtain ⟨lines, phase⟩ := r
  obtain ⟨hlines, hphase⟩ := h
  cases phase with
  | left ts => cases hr
  | right path key frames pieces =>
    cases frames with
    | nil => cases hr
    | cons frame frames =>
      obtain ⟨hpath, hkey, hframes, hpieces⟩ := hphase
      obtain ⟨⟨hstart, hbefore⟩, hframes⟩ := List.forall_mem_cons.1 hframes
      obtain ⟨-, hr⟩ := Option.ite_none_right_eq_some.1 hr
      obtain ⟨v, hv, hr⟩ := Option.bind_eq_some_iff.1 hr
      cases hr
      have hspan : v.span = ⟨frame.start, stop⟩ := span_of_close hv
      have hpush := hbefore.push (p := .value v) (hpieces.row.close ⟨hstart, hstop⟩ hv)
        (congrArg Span.start hspan)
      refine ⟨hlines, hpath, hkey, hframes, ?_⟩
      rwa [Piece.span, hspan] at hpush

variable {t : Token} (ht : t.Spelled text) (hpos : t.span.start = pos)

include ht hpos

theorem takeRight (hr : r.takeRight? t = some r') : r'.Written text t.span.stop := by
  have hin := ht.inText
  unfold takeRight? at hr
  split at hr
  · exact h.openBracket (hpos ▸ hin.1) (hpos ▸ hr) _
  · exact h.openBracket (hpos ▸ hin.1) (hpos ▸ hr) _
  · exact h.closeBracket hin.2 hr
  · exact h.closeBracket hin.2 hr
  · exact h.endLine hr _
  · rename_i path key frames pieces hphase _ _ _ _ _
    cases hr
    have hwritten := h.phase
    rw [hphase] at hwritten
    obtain ⟨hpath, hkey, hframes, hpieces⟩ := hwritten
    exact ⟨h.lines, hpath, hkey, hframes, hpieces.push (p := .token t) ht hpos⟩
  · cases hr

omit hpos in
theorem takeLeft {ts : List Token} (hts : ∀ t ∈ ts, t.span.InText text) (hphase : r.phase = .left ts)
    (hr : r.takeLeft? ts t = some r') (pos' : Nat) : r'.Written text pos' := by
  unfold takeLeft? at hr
  split at hr
  · exact h.endLine hr _
  · cases hr
    exact ⟨h.lines, hphase ▸ hts⟩
  · obtain ⟨⟨path, key⟩, hpath, hr⟩ := Option.bind_eq_some_iff.1 hr
    cases hr
    obtain ⟨hpath, hkey⟩ := inText_keyPath (fun t ht => hts t (List.mem_reverse.1 ht)) hpath
    exact ⟨h.lines, hpath, hkey, nofun, .nil⟩
  · cases hr
    exact ⟨h.lines, List.forall_mem_cons.2 ⟨ht.inText, hts⟩⟩

theorem take (hr : r.take? t = some r') : r'.Written text t.span.stop := by
  unfold take? at hr
  split at hr
  · rename_i ts hphase
    have hwritten := h.phase
    rw [hphase] at hwritten
    exact h.takeLeft ht hwritten hphase hr _
  · exact h.takeRight ht hpos hr

end Reader.Written

/-- What is read token by token stays written in the text: each token starts where the reader is. -/
theorem Reader.Written.takeAll {pos : Nat} {r r' : Reader} (h : r.Written text pos)
    (hts : ∀ t ∈ ts, t.Spelled text) (hside : SideBySide (ts.map Token.span))
    (hfirst : ∀ t ∈ ts.head?, t.span.start = pos) (hr : ts.foldlM Reader.take? r = some r') :
    ∃ pos', r'.Written text pos' := by
  induction ts generalizing pos r with
  | nil =>
    cases hr
    exact ⟨pos, h⟩
  | cons t rest ih =>
    rw [List.foldlM_cons] at hr
    obtain ⟨next, hnext, hr⟩ := Option.bind_eq_some_iff.1 hr
    obtain ⟨ht, hrest⟩ := List.forall_mem_cons.1 hts
    obtain ⟨hadjacent, hside⟩ := List.isChain_cons.1 hside
    refine ih (h.take ht (hfirst t rfl) hnext) hrest hside (fun u hu => ?_) hr
    exact (hadjacent u.span (by rw [List.head?_map, Option.mem_def.1 hu]; rfl)).symm

theorem written_lines (hts : ∀ t ∈ ts, t.Spelled text) (hside : SideBySide (ts.map Token.span))
    {ls : List Line} (h : lines? ts = some ls) : ∀ l ∈ ls, l.Written text := by
  simp only [lines?, Option.bind_eq_bind, Option.bind_eq_some_iff] at h
  obtain ⟨r, hr, r', hr', h⟩ := h
  cases h
  have hstart : Reader.Written text ((ts.head?.map (·.span.start)).getD 0) {} := ⟨nofun, nofun⟩
  obtain ⟨pos, hread⟩ := hstart.takeAll hts hside (fun t ht => by simp [Option.mem_def.1 ht]) hr
  exact fun l hl => (hread.endLine hr' pos).lines l (List.mem_reverse.1 hl)

/-! ## Documents -/

def Assignment.Written (text : String) (a : Assignment) : Prop :=
  (∀ k ∈ a.path, k.span.InText text) ∧ a.key.span.InText text ∧ a.value.Written text

structure Section.Written (text : String) (s : Section) : Prop where
  path : ∀ k ∈ s.path, k.span.InText text
  key : s.key.span.InText text
  span : s.span.InText text
  body : ∀ a ∈ s.body, a.Written text

theorem written_sections {ls : List Line} (h : ∀ l ∈ ls, l.Written text) :
    (∀ a ∈ (sections ls).1, a.Written text) ∧ ∀ s ∈ (sections ls).2, s.Written text := by
  induction ls with
  | nil => exact ⟨nofun, nofun⟩
  | cons l rest ih =>
    obtain ⟨hl, hrest⟩ := List.forall_mem_cons.1 h
    obtain ⟨hbody, hafter⟩ := ih hrest
    cases l with
    | assign path key value => exact ⟨List.forall_mem_cons.2 ⟨hl, hbody⟩, hafter⟩
    | header many path key span =>
      obtain ⟨hpath, hkey, hspan⟩ := hl
      exact ⟨nofun, List.forall_mem_cons.2 ⟨⟨hpath, hkey, hspan, hbody⟩, hafter⟩⟩

namespace Entries

variable {es out : Entries}

theorem Written.assignAll (h : es.Written text) {body : List Assignment}
    (hbody : ∀ a ∈ body, a.Written text) (hout : es.assignAll body = some out) : out.Written text := by
  refine of_foldlM hout h fun es a ha hes out hout => ?_
  obtain ⟨hpath, hkey, hv⟩ := hbody a ha
  exact hes.assign hpath hkey hv hout

theorem Written.addSection (h : es.Written text) {s : Section} (hs : s.Written text)
    (hout : es.addSection s = some out) : out.Written text := by
  refine h.updateAt hs.path (fun {_ inner out} hinner hchange => ?_) hout
  have hbody : ∀ {earlier body}, Entries.Written text earlier →
      Entries.assignAll earlier s.body = some body → (Node.table .header s.span body).Written text :=
    fun hearlier hassign => (hearlier.assignAll hs.body hassign).table hs.span .header
  -- the four ways in which a section can be new where it is added
  split at hchange
  · obtain ⟨body, hassign, hchange⟩ := Option.bind_eq_some_iff.1 hchange
    cases hchange
    exact hinner.insert hs.key (hbody written_nil hassign)
  · rename_i span earlier _ hfind
    obtain ⟨body, hassign, hchange⟩ := Option.bind_eq_some_iff.1 hchange
    cases hchange
    exact hinner.erase.insert hs.key (hbody (written_of_table (hinner.find? hfind)).2 hassign)
  · obtain ⟨body, hassign, hchange⟩ := Option.bind_eq_some_iff.1 hchange
    cases hchange
    refine hinner.insert hs.key (.tables hs.span ?_)
    exact List.forall_mem_singleton.2 (hbody written_nil hassign)
  · rename_i span elements _ hfind
    obtain ⟨body, hassign, hchange⟩ := Option.bind_eq_some_iff.1 hchange
    cases hchange
    cases hinner.find? hfind with
    | tables hspan hnodes =>
      refine hinner.replace (.tables hspan fun n hn => ?_)
      rcases List.mem_append.1 hn with hn | hn
      · exact hnodes n hn
      · rw [List.mem_singleton.1 hn]
        exact hbody written_nil hassign
  · cases hchange

end Entries

/-- Everything in a document has its place in the text of the document and is spelled there. -/
theorem written_document {entries : List (Key × Value)} (h : document? text = some entries) :
    (Value.table {} entries).Written text := by
  simp only [document?, Option.bind_eq_bind, Option.bind_eq_some_iff] at h
  obtain ⟨ts, hts, ls, hls, root, hroot, es, hes, h⟩ := h
  cases h
  obtain ⟨hspelled, hside⟩ := spelled_tokens hts
  obtain ⟨hbody, hrest⟩ := written_sections (written_lines hspelled hside hls)
  have hroot := Entries.written_nil.assignAll hbody hroot
  have hes := of_foldlM hes hroot fun es s hs hes _ hout => hes.addSection (hrest s hs) hout
  exact hes.toValues (Span.default_within _)

end Interconnect.Toml
