/-
A table of names that only grows. Each name has one id, its position, so two ids are equal exactly
when their names are.
-/
import Interconnect.PortRef

namespace Interconnect

/-- The position of a name in a table. -/
structure NameId where
  index : Nat
  deriving DecidableEq, Repr, Inhabited

/-- Names in the order in which they were first entered. -/
structure NameTable where
  names : List String
  /-- No name is entered twice. -/
  nodup : names.Nodup
  deriving Repr

namespace NameTable

def empty : NameTable := ⟨[], List.nodup_nil⟩

instance : Inhabited NameTable := ⟨empty⟩

/-- The id of a name that is in the table. Looking up enters nothing. -/
def find? (t : NameTable) (name : String) : Option NameId :=
  (t.names.findIdx? (· = name)).map NameId.mk

theorem find?_eq_none_iff (t : NameTable) (name : String) : t.find? name = none ↔ name ∉ t.names := by
  simp only [find?, Option.map_eq_none_iff, List.findIdx?_eq_none_iff, decide_eq_false_iff_not]
  exact ⟨fun h hm => h name hm rfl, fun h x hx e => h (e ▸ hx)⟩

/-- Enters a name that is new. -/
def push (t : NameTable) (name : String) (new : name ∉ t.names) : NameTable where
  names := t.names ++ [name]
  nodup := by
    rw [List.nodup_append]
    refine ⟨t.nodup, by simp, fun a ha b hb => ?_⟩
    rw [List.mem_singleton.1 hb]
    exact fun e => new (e ▸ ha)

/-- The id of a name, which is entered if it is new. -/
def intern (t : NameTable) (name : String) : NameId × NameTable :=
  match h : t.find? name with
  | some id => (id, t)
  | none => (⟨t.names.length⟩, t.push name ((t.find?_eq_none_iff name).1 h))

def name? (t : NameTable) (id : NameId) : Option String := t.names[id.index]?

/-- The id of two names joined by a dot. -/
def qualify (t : NameTable) (a b : NameId) : Option (NameId × NameTable) :=
  match t.name? a, t.name? b with
  | some inst, some port => some (t.intern (PortRef.qualify inst port))
  | _, _ => none

end NameTable

end Interconnect
