/-
Connectors that are part of a model. Attaching gives every connector the scope that declares it, and
every constant one the name of a constant port with a number.
-/
import Interconnect.Connector

namespace Interconnect

/-- What becomes of a connector that is declared in `scope`. -/
structure Connector.Attached (scope : Scope) (k : Connector) : Prop where
  scope : k.scope = some scope
  numbered : k.isConstant = true → ∃ n : Nat, k.source = PortRef.constantStem ++ toString n

namespace Connector

theorem attached_number {k : Connector} (h : k.isConstant = true) (scope : Scope) (n : Nat) :
    ((k.attach scope).number n).Attached scope := by
  have hk : (k.attach scope).number n =
      { k.attach scope with source := PortRef.constantStem ++ toString n, remembered := none } :=
    if_pos h
  rw [hk]
  exact ⟨rfl, fun _ => ⟨n, rfl⟩⟩

theorem attached_attachAll {scope : Scope} {used : Nat} {ks : List Connector} :
    ∀ k ∈ attachAll scope used ks, k.Attached scope := by
  induction ks generalizing used with
  | nil => nofun
  | cons k₀ rest ih =>
    intro k hk
    unfold attachAll at hk
    split at hk
    · rename_i hc
      rcases List.mem_cons.1 hk with rfl | hk
      · exact attached_number hc scope _
      · exact ih k hk
    · rename_i hc
      rcases List.mem_cons.1 hk with rfl | hk
      · exact ⟨rfl, fun h => absurd h hc⟩
      · exact ih k hk

end Connector

end Interconnect
