/-
The flat form of expansion trees. Every node belongs to its own position: its connectors are attached
there, and its parent stands before it. So following the parents from any node ends at a root, and
every node has a full name.
-/
import Interconnect.Model
import Interconnect.Proofs.Connector

namespace Interconnect

/-- A node at `index`, whose parent is the given one or stands at `first` or behind it. -/
structure Expanded.PlacedAt (parent : Option Nat) (first index : Nat) (e : Expanded) : Prop where
  attached : ∀ k ∈ e.connectors, k.Attached (.expanded index)
  parent : e.parent = parent ∨ ∃ p, e.parent = some p ∧ first ≤ p ∧ p < index

/-- Nodes that stand at their places, the first of them at `first`. -/
def Expanded.Placed (parent : Option Nat) (first : Nat) (es : List Expanded) : Prop :=
  ∀ (j : Nat) (e : Expanded), es[j]? = some e → e.PlacedAt parent first (first + j)

namespace Expansion

theorem placed_nil (parent : Option Nat) (first : Nat) : Expanded.Placed parent first [] := nofun

/-- Siblings come one after another. -/
theorem placed_append {parent : Option Nat} {first : Nat} {es fs : List Expanded}
    (he : Expanded.Placed parent first es) (hf : Expanded.Placed parent (first + es.length) fs) :
    Expanded.Placed parent first (es ++ fs) := by
  intro j e h
  rcases Nat.lt_or_ge j es.length with hj | hj
  · rw [List.getElem?_append_left hj] at h
    exact he j e h
  · rw [List.getElem?_append_right hj] at h
    obtain ⟨hk, hp⟩ := hf _ e h
    have hpos : first + es.length + (j - es.length) = first + j := by omega
    rw [hpos] at hk hp
    refine ⟨hk, hp.imp id ?_⟩
    rintro ⟨p, hp, hle, hlt⟩
    exact ⟨p, hp, by omega, hlt⟩

/-- A root comes before the nodes below it. -/
theorem placed_cons {parent : Option Nat} {first : Nat} {e : Expanded} {es : List Expanded}
    (he : e.PlacedAt parent first first) (hs : Expanded.Placed (some first) (first + 1) es) :
    Expanded.Placed parent first (e :: es) := by
  intro j f h
  cases j with
  | zero => cases h; exact he
  | succ j =>
    obtain ⟨hk, hp⟩ := hs j f h
    rw [show first + 1 + j = first + (j + 1) by omega] at hk hp
    refine ⟨hk, .inr ?_⟩
    rcases hp with hp | ⟨p, hp, hle, hlt⟩
    · exact ⟨first, hp, Nat.le_refl _, by omega⟩
    · exact ⟨p, hp, by omega, hlt⟩

mutual

theorem placed_flatten (portsOf : String → List Port) (parent : Option Nat) (index used : Nat) :
    ∀ t : Expansion, Expanded.Placed parent index (t.flatten portsOf parent index used)
  | node _ _ _ _ children =>
    placed_cons ⟨Connector.attached_attachAll, .inl rfl⟩
      (placed_flattenAll portsOf (some index) (index + 1) _ children)

theorem placed_flattenAll (portsOf : String → List Port) (parent : Option Nat) (index used : Nat) :
    ∀ ts : List Expansion, Expanded.Placed parent index (flattenAll portsOf parent index used ts)
  | [] => placed_nil parent index
  | t :: rest => by
    refine placed_append (placed_flatten portsOf parent index used t) ?_
    rw [length_flatten]
    exact placed_flattenAll portsOf parent (index + t.size) _ rest

end

end Expansion

/-! ## Full names -/

/-- Where every parent stands before its child, every node has a full name. -/
theorem Model.fullName?_isSome {m : Model} (h : Expanded.Placed none 0 m.expanded) (index : Nat)
    (hi : index < m.expanded.length) : (m.fullName? index).isSome = true := by
  induction index using Nat.strongRecOn with
  | ind index ih =>
    obtain ⟨e, he⟩ : ∃ e, m.expanded[index]? = some e := ⟨_, List.getElem?_eq_getElem hi⟩
    rw [fullName?, he]
    dsimp only
    rcases (h index e he).parent with hp | ⟨p, hp, -, hlt⟩
    · rw [hp]
      rfl
    · rw [Nat.zero_add] at hlt
      simp only [hp, if_pos hlt, Option.isSome_map]
      exact ih p hlt (by omega)

end Interconnect
