/-
Reading lists and records from values. A record is a table, or an array of its fields in their
order. Entries of a table are read in the order of their keys, and the first mismatch ends it.
-/
import Interconnect.Toml.Mismatch

namespace Interconnect.Toml

/-- A value together with the place where it is written. -/
structure Placed (α : Type) where
  value : α
  span : Span
  deriving DecidableEq, Repr

/-- The place of a value, with its ends in order. -/
def Placed.place {α : Type} (p : Placed α) : Span := p.span.inOrder

instance {α : Type} [Inhabited α] : Inhabited (Placed α) := ⟨⟨default, {}⟩⟩

/-- The form of a record. -/
structure Shape where
  name : String
  /-- All fields, in the order in which an array lists them. -/
  fields : List String
  /-- The fields that a table must have. -/
  required : List String
  /-- How many fields an array must have. -/
  least : Nat

/-- The one field that a date or time shows to a record. -/
def momentField : String := "$__toml_private_datetime"

namespace Value

/-- The values directly inside an array or table. -/
def parts : Value → List Value
  | array _ items => items
  | table _ entries => entries.map Prod.snd
  | _ => []

theorem sizeOf_lt_of_mem_parts {v w : Value} (h : w ∈ v.parts) : sizeOf w < sizeOf v := by
  cases v with
  | array span items =>
    have hm : w ∈ items := h
    have := List.sizeOf_lt_of_mem hm
    simp only [array.sizeOf_spec]; omega
  | table span entries =>
    obtain ⟨e, he, rfl⟩ := List.mem_map.1 h
    have := List.sizeOf_lt_of_mem he
    cases e
    simp only [table.sizeOf_spec, Prod.mk.sizeOf_spec] at *; omega
  | _ => cases h

/-- Reads the items of an array. -/
def list {α : Type} (v : Value) (item : (w : Value) → w ∈ v.parts → Reading α) : Reading (List α) :=
  match v with
  | array _ items => items.attach.mapM fun ⟨w, h⟩ => item w h
  | v => v.unexpected "a sequence"

/-- Reads a record field by field, from `start` on. Required fields that are missing are reported
after all that are there. -/
def record {ρ : Type} (v : Value) (shape : Shape) (start : ρ)
    (set : String → (w : Value) → w ∈ v.parts → ρ → Reading ρ) : Reading ρ :=
  match v with
  | table span entries => do
    let r ← entries.attach.foldlM (fun r ⟨(key, w), h⟩ =>
      if shape.fields.contains key.text then
        set key.text w (List.mem_map.2 ⟨(key, w), h, rfl⟩) r
      else .error ⟨.unknownField key.text shape.fields, key.span⟩) start
    match shape.required.find? fun field => !(entries.any (·.1.text = field)) with
    | some field => .error ⟨.missingField field, span⟩
    | none => pure r
  | array span items => do
    let r ← (items.attach.zip shape.fields).foldlM (fun r (⟨w, h⟩, field) => set field w h r) start
    if items.length < shape.least then
      .error ⟨.wrongLength items.length shape.name shape.fields.length, span⟩
    else pure r
  | moment span => .error ⟨.unknownField momentField shape.fields, span⟩
  | v => v.unexpected ("struct " ++ shape.name)

/-- Reads a string, with its place. -/
def placedString : Value → Reading (Placed String)
  | string span s => .ok ⟨s, span⟩
  | v => v.unexpected "a string"

/-- The first number inside a value that is beyond all forms, or too wide for a value of any kind. -/
def numberFault? (v : Value) : Option Misfit :=
  match v with
  | integer span n =>
    match v.found? with
    | .error cause => some ⟨cause, span⟩
    | .ok found => if hasForm 64 n then none else some ⟨.wrongType found "any value", span⟩
  | float span x => if x.value?.isNone then some ⟨.floatOverflow, span⟩ else none
  | array _ items => items.attach.findSome? fun ⟨w, _⟩ => w.numberFault?
  | table _ entries => entries.attach.findSome? fun ⟨(_, w), _⟩ => w.numberFault?
  | _ => none
termination_by sizeOf v
decreasing_by
  · apply sizeOf_lt_of_mem_parts; assumption
  · apply sizeOf_lt_of_mem_parts; apply List.mem_map.2; exact ⟨_, by assumption, rfl⟩

end Value

end Interconnect.Toml
