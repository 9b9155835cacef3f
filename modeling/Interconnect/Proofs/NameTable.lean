/-
Name tables. Names only come in at the end, and no name comes in twice: so an id keeps its name for ever,
and two ids are the same exactly if their names are.
-/
import Interconnect.NameTable
import Mathlib.Data.List.Nodup

namespace Interconnect

namespace NameTable

/-- All names of the one table are in the other, with the same ids. -/
def Grows (t t' : NameTable) : Prop := t.names <+: t'.names

variable {t t' : NameTable}

theorem Grows.refl (t : NameTable) : t.Grows t := List.prefix_refl _

theorem Grows.trans {t'' : NameTable} (h : t.Grows t') (h' : t'.Grows t'') : t.Grows t'' :=
  List.IsPrefix.trans h h'

theorem Grows.name?_eq {id : NameId} {name : String} (h : t.Grows t') (hid : t.name? id = some name) :
    t'.name? id = some name := by
  obtain ⟨rest, hrest⟩ := h
  unfold name? at hid ⊢
  rw [← hrest, List.getElem?_append_left (List.getElem?_eq_some_iff.1 hid).1]
  exact hid

theorem mem_names_iff {name : String} : name ∈ t.names ↔ ∃ id, t.name? id = some name := by
  rw [List.mem_iff_getElem?]
  constructor
  · rintro ⟨index, h⟩
    exact ⟨⟨index⟩, h⟩
  · rintro ⟨id, h⟩
    exact ⟨id.index, h⟩

/-- No two ids have one name. -/
theorem name?_inj {id id' : NameId} {name : String} (h : t.name? id = some name)
    (h' : t.name? id' = some name) : id = id' := by
  cases id
  cases id'
  rw [NameId.mk.injEq]
  exact (List.getElem?_inj (List.getElem?_eq_some_iff.1 h).1 t.nodup).1 (h.trans h'.symm)

/-- Looking up a name gives the id that has it. -/
theorem find?_eq_some_iff {id : NameId} {name : String} :
    t.find? name = some id ↔ t.name? id = some name := by
  have hfound : ∀ {id : NameId}, t.find? name = some id → t.name? id = some name := by
    intro id h
    obtain ⟨index, hindex, rfl⟩ := Option.map_eq_some_iff.1 h
    obtain ⟨hlt, hname, -⟩ := List.findIdx?_eq_some_iff_getElem.1 hindex
    rw [name?, List.getElem?_eq_getElem hlt, of_decide_eq_true hname]
  constructor
  · exact hfound
  · intro h
    cases hf : t.find? name with
    | none => exact absurd (mem_names_iff.2 ⟨id, h⟩) ((t.find?_eq_none_iff name).1 hf)
    | some id' => rw [name?_inj (hfound hf) h]

/-! ## Entering names -/

/-- A name that is there is left alone, and any other one is put at the end. -/
theorem intern_cases (t : NameTable) (name : String) :
    (t.find? name = some (t.intern name).1 ∧ (t.intern name).2 = t) ∨
    (t.find? name = none ∧ (t.intern name).1 = ⟨t.names.length⟩ ∧
      (t.intern name).2.names = t.names ++ [name]) := by
  unfold intern
  split
  · rename_i id h
    exact .inl ⟨h, rfl⟩
  · rename_i h
    exact .inr ⟨h, rfl, rfl⟩

theorem grows_intern (t : NameTable) (name : String) : t.Grows (t.intern name).2 := by
  rcases intern_cases t name with ⟨-, h⟩ | ⟨-, -, h⟩
  · rw [h]
    exact .refl t
  · rw [Grows, h]
    exact List.prefix_append _ _

theorem name?_intern (t : NameTable) (name : String) :
    (t.intern name).2.name? (t.intern name).1 = some name := by
  rcases intern_cases t name with ⟨hf, h⟩ | ⟨-, hid, h⟩
  · rw [h]
    exact find?_eq_some_iff.1 hf
  · rw [name?, hid, h]
    simp

theorem mem_names_intern {t : NameTable} {name other : String} :
    other ∈ (t.intern name).2.names ↔ other ∈ t.names ∨ other = name := by
  rcases intern_cases t name with ⟨hf, h⟩ | ⟨-, -, h⟩
  · have hmem : name ∈ t.names := mem_names_iff.2 ⟨_, find?_eq_some_iff.1 hf⟩
    rw [h]
    constructor
    · exact .inl
    · rintro (hother | rfl)
      · exact hother
      · exact hmem
  · rw [h, List.mem_append, List.mem_singleton]

/-- The id of two names joined is that of the joined name. -/
theorem qualify_eq {a b : NameId} {inst port : String} (ha : t.name? a = some inst)
    (hb : t.name? b = some port) : t.qualify a b = some (t.intern (PortRef.qualify inst port)) := by
  rw [qualify, ha, hb]

theorem qualify_eq_some {a b id : NameId} (h : t.qualify a b = some (id, t')) :
    ∃ inst port, t.name? a = some inst ∧ t.name? b = some port ∧
      (id, t') = t.intern (PortRef.qualify inst port) := by
  unfold qualify at h
  split at h
  · rename_i inst port ha hb
    exact ⟨inst, port, ha, hb, (Option.some.inj h).symm⟩
  · cases h

end NameTable

end Interconnect
