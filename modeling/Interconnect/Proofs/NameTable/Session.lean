/-
Histories of a name table. Whatever is done in a session, every id that was given out shows its text for
ever, two ids are the same exactly if their texts are, and a name is found exactly if an id was made for it
before. Looking up and comparing leave the table alone; so a question in between changes no later answer,
except that the ids behind it bear higher numbers.
-/
import Interconnect.NameTable.Session
import Interconnect.Proofs.NameTable

namespace Interconnect

namespace NameTable

/-- The texts for which a step that was answered has made an id. Looking up and comparing make none. -/
def Step.makes : Step → Answer → List String
  | .intern name, _ => [name]
  | .qualify _ _, .id _ name => [name]
  | _, _ => []

/-- The texts for which ids have been made. -/
def made (steps : List Step) (answers : List Answer) : List String :=
  (List.zipWith Step.makes steps answers).flatten

namespace Session

/-- The answers to a list of steps, and the session after them. -/
def run? (s : Session) : List Step → Option (List Answer × Session)
  | [] => some ([], s)
  | st :: rest => do
    let (a, s') ← s.step? st
    let (as, s'') ← s'.run? rest
    some (a :: as, s'')

/-- The id has been given out, and the text is shown for it. -/
def Knows (s : Session) (id : NameId) (text : String) : Prop :=
  id ∈ s.ids ∧ s.table.name? id = some text

variable {s s' : Session} {st : Step} {a : Answer}

/-! ## Steps -/

/-- The id of the text, in a table to which nothing but the text has been added. -/
structure Gives (s : Session) (id : NameId) (text : String) (table : NameTable) : Prop where
  grows : s.table.Grows table
  named : table.name? id = some text
  names : ∀ name, name ∈ table.names ↔ name ∈ s.table.names ∨ name = text

theorem gives_intern (s : Session) (text : String) :
    s.Gives (s.table.intern text).1 text (s.table.intern text).2 :=
  ⟨grows_intern .., name?_intern .., fun _ => mem_names_intern⟩

theorem gives_of_find? {id : NameId} {text : String} (h : s.table.find? text = some id) :
    s.Gives id text s.table := by
  have hid := find?_eq_some_iff.1 h
  have hmem := mem_names_iff.2 ⟨id, hid⟩
  refine ⟨.refl _, hid, fun name => ?_⟩
  constructor
  · exact .inl
  · rintro (hname | rfl)
    · exact hname
    · exact hmem

/-- The answer to what gives out an id is the number of the first equal one, with the text. -/
theorem give_eq {id : NameId} {text : String} {table : NameTable} (h : table.name? id = some text) :
    s.give id table = (.id (((s.ids ++ [id]).findIdx? (· = id)).getD 0) text, ⟨table, s.ids ++ [id]⟩) := by
  simp only [give, h, Option.getD_some]

/-- A step gives out an id, which it has made unless the table is as before; or it changes nothing. -/
theorem step?_cases (h : s.step? st = some (a, s')) :
    (∃ id text table, s.Gives id text table ∧ (a, s') = s.give id table ∧
      (st.makes a = [text] ∨ st.makes a = [] ∧ table = s.table)) ∨
    (s' = s ∧ st.makes a = []) := by
  cases st with
  | intern name =>
    cases h
    exact .inl ⟨_, name, _, gives_intern s name, rfl, .inl rfl⟩
  | lookup name =>
    simp only [step?] at h
    cases hf : s.table.find? name with
    | none =>
      simp only [hf] at h
      cases h
      exact .inr ⟨rfl, rfl⟩
    | some id =>
      simp only [hf] at h
      cases h
      exact .inl ⟨id, name, _, gives_of_find? hf, rfl, .inr ⟨rfl, rfl⟩⟩
  | qualify x y =>
    simp only [step?, Option.bind_eq_bind, Option.bind_eq_some_iff] at h
    obtain ⟨x', -, y', -, ⟨id, table⟩, hq, h⟩ := h
    obtain ⟨inst, port, -, -, hintern⟩ := qualify_eq_some hq
    have hgives := gives_intern s (PortRef.qualify inst port)
    rw [← hintern] at hgives
    refine .inl ⟨id, _, table, hgives, (Option.some.inj h).symm, .inl ?_⟩
    rw [give_eq hgives.named] at h
    cases h
    rfl
  | same x y =>
    simp only [step?, Option.bind_eq_bind, Option.bind_eq_some_iff] at h
    obtain ⟨_, -, _, -, h⟩ := h
    cases h
    exact .inr ⟨rfl, rfl⟩
  | named x name =>
    simp only [step?, Option.bind_eq_bind, Option.bind_eq_some_iff] at h
    obtain ⟨_, -, h⟩ := h
    cases h
    exact .inr ⟨rfl, rfl⟩

theorem mem_names_step {name : String} (h : s.step? st = some (a, s')) :
    name ∈ s'.table.names ↔ name ∈ s.table.names ∨ name ∈ st.makes a := by
  rcases step?_cases h with ⟨id, text, table, hgives, hgive, hmakes⟩ | ⟨rfl, hmakes⟩
  · have hs' : s'.table = table := congrArg (fun x => x.2.table) hgive
    rw [hs']
    rcases hmakes with hmakes | ⟨hmakes, rfl⟩
    · rw [hmakes, List.mem_singleton]
      exact hgives.names name
    · simp [hmakes]
  · simp [hmakes]

/-- A later session: no id was taken back, and no name has another id. -/
structure Extends (s s' : Session) : Prop where
  grows : s.table.Grows s'.table
  ids : s.ids <+: s'.ids

theorem Extends.refl (s : Session) : s.Extends s := ⟨.refl _, List.prefix_refl _⟩

theorem Extends.trans {s'' : Session} (h : s.Extends s') (h' : s'.Extends s'') : s.Extends s'' :=
  ⟨h.grows.trans h'.grows, h.ids.trans h'.ids⟩

theorem Knows.extends {id : NameId} {text : String} (hk : s.Knows id text) (h : s.Extends s') :
    s'.Knows id text :=
  ⟨h.ids.subset hk.1, h.grows.name?_eq hk.2⟩

theorem extends_step (h : s.step? st = some (a, s')) : s.Extends s' := by
  rcases step?_cases h with ⟨id, text, table, hgives, hgive, -⟩ | ⟨rfl, -⟩
  · cases hgive
    exact ⟨hgives.grows, List.prefix_append _ _⟩
  · exact .refl _

/-- Exactly the ids in the table have been given out. -/
structure Sound (s : Session) : Prop where
  named : ∀ id ∈ s.ids, ∃ text, s.table.name? id = some text
  given : ∀ id text, s.table.name? id = some text → id ∈ s.ids

theorem sound_empty : Session.empty.Sound := ⟨nofun, nofun⟩

theorem sound_step (hs : s.Sound) (h : s.step? st = some (a, s')) : s'.Sound := by
  rcases step?_cases h with ⟨id, text, table, ⟨hgrows, htext, hnames⟩, hgive, -⟩ | ⟨rfl, -⟩
  · cases hgive
    refine ⟨fun id' hid' => ?_, fun id' text' hid' => ?_⟩
    · rcases List.mem_append.1 hid' with hid' | hid'
      · obtain ⟨text', htext'⟩ := hs.named id' hid'
        exact ⟨text', hgrows.name?_eq htext'⟩
      · rw [List.mem_singleton.1 hid']
        exact ⟨text, htext⟩
    · rcases (hnames text').1 (mem_names_iff.2 ⟨id', hid'⟩) with hold | rfl
      · obtain ⟨id'', hid''⟩ := mem_names_iff.1 hold
        rw [name?_inj hid' (hgrows.name?_eq hid'')]
        exact List.mem_append_left _ (hs.given id'' text' hid'')
      · rw [name?_inj hid' htext]
        exact List.mem_append_right _ (List.mem_singleton_self id)
  · exact hs

/-! ## Runs -/

theorem run?_cons_eq_some {rest : List Step} {answers : List Answer}
    (h : s.run? (st :: rest) = some (answers, s')) :
    ∃ a s₁ as, s.step? st = some (a, s₁) ∧ s₁.run? rest = some (as, s') ∧ answers = a :: as := by
  simp only [run?, Option.bind_eq_bind, Option.bind_eq_some_iff] at h
  obtain ⟨⟨a, s₁⟩, hstep, ⟨as, s₂⟩, hrest, h⟩ := h
  cases h
  exact ⟨a, s₁, as, hstep, hrest, rfl⟩

theorem answers?_eq (s : Session) (steps : List Step) :
    s.answers? steps = (s.run? steps).map Prod.fst := by
  induction steps generalizing s with
  | nil => rfl
  | cons st rest ih =>
    rw [answers?, run?]
    cases s.step? st with
    | none => rfl
    | some x =>
      simp only [Option.bind_eq_bind, Option.bind_some, ih]
      cases x.2.run? rest <;> rfl

theorem run?_append {before after : List Step} {as bs : List Answer} {s'' : Session}
    (h : s.run? before = some (as, s')) (h' : s'.run? after = some (bs, s'')) :
    s.run? (before ++ after) = some (as ++ bs, s'') := by
  induction before generalizing s as with
  | nil =>
    cases h
    exact h'
  | cons st rest ih =>
    obtain ⟨a, s₁, as, hstep, hrest, rfl⟩ := run?_cons_eq_some h
    rw [List.cons_append, run?, hstep]
    simp [ih hrest]

section

variable {steps : List Step} {answers : List Answer} (h : s.run? steps = some (answers, s'))

include h

/-- What every step keeps is kept by a run. -/
theorem run?_keeps {P : Session → Prop}
    (hstep : ∀ {s st a s'}, P s → s.step? st = some (a, s') → P s') (hs : P s) : P s' := by
  induction steps generalizing s answers with
  | nil =>
    cases h
    exact hs
  | cons st rest ih =>
    obtain ⟨a, s₁, as, hfirst, hrest, rfl⟩ := run?_cons_eq_some h
    exact ih hrest (hstep hs hfirst)

theorem extends_run : s.Extends s' :=
  run?_keeps h (fun hs hstep => hs.trans (extends_step hstep)) (.refl s)

theorem sound_run (hs : s.Sound) : s'.Sound := run?_keeps h sound_step hs

/-- The names in the table are those for which ids have been made. -/
theorem mem_names_run {name : String} :
    name ∈ s'.table.names ↔ name ∈ s.table.names ∨ name ∈ made steps answers := by
  induction steps generalizing s answers with
  | nil =>
    cases h
    simp [made]
  | cons st rest ih =>
    obtain ⟨a, s₁, as, hstep, hrest, rfl⟩ := run?_cons_eq_some h
    rw [ih hrest, mem_names_step hstep, or_assoc]
    simp [made]

end

/-! ## Questions in between -/

end Session

def Step.isQuestion : Step → Bool
  | .lookup _ => true
  | .same _ _ => true
  | .named _ _ => true
  | _ => false

/-- The number of an id behind which `extra` more ids are given out from the number `first` on. -/
def raised (first extra n : Nat) : Nat := if n < first then n else n + extra

def Step.raised (first extra : Nat) : Step → Step
  | .qualify x y => .qualify (NameTable.raised first extra x) (NameTable.raised first extra y)
  | .same x y => .same (NameTable.raised first extra x) (NameTable.raised first extra y)
  | .named x name => .named (NameTable.raised first extra x) name
  | st => st

def Answer.raised (first extra : Nat) : Answer → Answer
  | .id n name => .id (NameTable.raised first extra n) name
  | a => a

namespace Session

/-- The one session has given out the same ids as the other, and from the number `first` on `extra` more,
which are among those before. -/
structure Repeats (first extra : Nat) (s t : Session) : Prop where
  table : t.table = s.table
  ids : ∃ front again back, front.length = first ∧ again.length = extra ∧
    s.ids = front ++ back ∧ t.ids = front ++ again ++ back ∧ again ⊆ front

namespace Repeats

variable {first extra : Nat} {t : Session}

theorem getElem?_eq (h : Repeats first extra s t) {n : Nat} {id : NameId} (hn : s.ids[n]? = some id) :
    t.ids[raised first extra n]? = some id := by
  obtain ⟨front, again, back, rfl, rfl, hs, ht, -⟩ := h.ids
  rw [hs] at hn
  rw [ht, raised]
  split
  · rename_i hlt
    rw [List.getElem?_append_left hlt] at hn
    rw [List.getElem?_append_left (by simp; omega), List.getElem?_append_left hlt, hn]
  · rename_i hge
    rw [List.getElem?_append_right (by omega)] at hn
    rw [List.getElem?_append_right (by simp; omega), ← hn]
    congr 1
    simp
    omega

theorem findIdx?_eq (h : Repeats first extra s t) (id : NameId) :
    (t.ids ++ [id]).findIdx? (· = id) = ((s.ids ++ [id]).findIdx? (· = id)).map (raised first extra) := by
  obtain ⟨front, again, back, rfl, rfl, hs, ht, hsub⟩ := h.ids
  rw [hs, ht, List.append_assoc, List.append_assoc, List.append_assoc]
  by_cases hfront : id ∈ front
  · -- the first equal id is in front of where more are given out
    obtain ⟨n, hn⟩ : ∃ n, front.findIdx? (· = id) = some n := by
      rw [← Option.isSome_iff_exists, List.findIdx?_isSome]
      simpa using hfront
    have hlt := (List.findIdx?_eq_some_iff_findIdx_eq.1 hn).1
    simp [List.findIdx?_append, hn, raised, hlt]
  · have hskip : ∀ xs ⊆ front, ∀ ys : List NameId, (xs ++ ys).findIdx? (· = id) =
        (ys.findIdx? (· = id)).map (· + xs.length) := by
      intro xs hxs ys
      have hnone : xs.findIdx? (· = id) = none := by
        rw [List.findIdx?_eq_none_iff]
        intro x hx
        exact decide_eq_false fun hid => hfront (hid ▸ hxs hx)
      rw [List.findIdx?_append, hnone, Option.none_or]
    rw [hskip front (List.Subset.refl _), hskip again hsub, hskip front (List.Subset.refl _),
      Option.map_map, Option.map_map]
    congr 1
    funext n
    simp only [Function.comp_apply, raised]
    rw [if_neg (by omega)]
    omega

theorem give (h : Repeats first extra s t) {id : NameId} {table : NameTable}
    (hgive : s.give id table = (a, s')) :
    ∃ t', t.give id table = (a.raised first extra, t') ∧ Repeats first extra s' t' := by
  obtain ⟨front, again, back, hfirst, hextra, hs, ht, hsub⟩ := h.ids
  have hsome : (s.ids ++ [id]).findIdx? (· = id) ≠ none := by simp
  obtain ⟨n, hn⟩ := Option.ne_none_iff_exists'.1 hsome
  cases hgive
  refine ⟨⟨table, t.ids ++ [id]⟩, ?_, rfl, front, again, back ++ [id], hfirst, hextra, ?_, ?_, hsub⟩
  · simp only [Session.give, h.findIdx?_eq, hn, Answer.raised, Option.map_some, Option.getD_some]
  · simp [hs]
  · simp [ht]

theorem step (h : Repeats first extra s t) (hstep : s.step? st = some (a, s')) :
    ∃ t', t.step? (st.raised first extra) = some (a.raised first extra, t') ∧
      Repeats first extra s' t' := by
  cases st with
  | intern name =>
    obtain ⟨t', ht, hrepeats⟩ := h.give (Option.some.inj hstep)
    exact ⟨t', by simp only [Step.raised, step?, h.table, ht], hrepeats⟩
  | lookup name =>
    simp only [step?] at hstep
    cases hf : s.table.find? name with
    | none =>
      simp only [hf] at hstep
      cases hstep
      exact ⟨t, by simp [Step.raised, step?, h.table, hf, Answer.raised], h⟩
    | some id =>
      simp only [hf] at hstep
      obtain ⟨t', ht, hrepeats⟩ := h.give (Option.some.inj hstep)
      exact ⟨t', by simp only [Step.raised, step?, h.table, hf, ht], hrepeats⟩
  | qualify x y =>
    simp only [step?, Option.bind_eq_bind, Option.bind_eq_some_iff] at hstep
    obtain ⟨x', hx, y', hy, ⟨id, table⟩, hq, hstep⟩ := hstep
    obtain ⟨t', ht, hrepeats⟩ := h.give (Option.some.inj hstep)
    refine ⟨t', ?_, hrepeats⟩
    simp [Step.raised, step?, h.getElem?_eq hx, h.getElem?_eq hy, h.table, hq, ht]
  | same x y =>
    simp only [step?, Option.bind_eq_bind, Option.bind_eq_some_iff] at hstep
    obtain ⟨x', hx, y', hy, hstep⟩ := hstep
    cases hstep
    exact ⟨t, by simp [Step.raised, step?, h.getElem?_eq hx, h.getElem?_eq hy, Answer.raised], h⟩
  | named x name =>
    simp only [step?, Option.bind_eq_bind, Option.bind_eq_some_iff] at hstep
    obtain ⟨x', hx, hstep⟩ := hstep
    cases hstep
    exact ⟨t, by simp [Step.raised, step?, h.getElem?_eq hx, h.table, Answer.raised], h⟩

theorem run (h : Repeats first extra s t) {steps : List Step} {answers : List Answer}
    (hrun : s.run? steps = some (answers, s')) :
    ∃ t', t.run? (steps.map (·.raised first extra)) =
      some (answers.map (·.raised first extra), t') := by
  induction steps generalizing s t answers with
  | nil =>
    cases hrun
    exact ⟨t, rfl⟩
  | cons st rest ih =>
    obtain ⟨a, s₁, as, hstep, hrest, rfl⟩ := run?_cons_eq_some hrun
    obtain ⟨t₁, hstep', h₁⟩ := h.step hstep
    obtain ⟨t', hrest'⟩ := ih h₁ hrest
    refine ⟨t', ?_⟩
    rw [List.map_cons, run?, hstep']
    simp [hrest']

end Repeats

/-- A question leaves the table alone, and gives out an id again at most. -/
theorem repeats_of_question (hs : s.Sound) (hst : st.isQuestion = true)
    (h : s.step? st = some (a, s')) :
    Repeats s.ids.length (s'.ids.length - s.ids.length) s s' := by
  rcases step?_cases h with ⟨id, text, table, hgives, hgive, hmakes⟩ | ⟨rfl, -⟩
  · have htable : table = s.table := by
      rcases hmakes with hmakes | ⟨-, htable⟩
      · cases st <;> cases hst <;> cases hmakes
      · exact htable
    subst htable
    cases hgive
    have hgiven := hs.given id text hgives.named
    exact ⟨rfl, s.ids, [id], [], rfl, by simp, by simp, by simp, by simpa using hgiven⟩
  · exact ⟨rfl, s'.ids, [], [], rfl, by simp, by simp, by simp, by simp⟩

end Session

end NameTable

end Interconnect
