/-
The subtrees of expansion trees, each before those inside it. Trees are sound exactly when each of
their subtrees has a declared type and keeps its children apart; and the nodes of the flat form are
the roots of the subtrees, one for each, in the same order.
-/
import Interconnect.Proofs.Expansion.Children

namespace Interconnect

namespace Expansion

mutual

/-- A tree and all trees below its root. -/
def subtrees : Expansion → List Expansion
  | node name type span connectors children =>
    node name type span connectors children :: subtreesAll children

def subtreesAll : List Expansion → List Expansion
  | [] => []
  | t :: rest => t.subtrees ++ subtreesAll rest

end

theorem subtrees_eq (t : Expansion) : t.subtrees = t :: subtreesAll t.children := by
  cases t; rfl

/-! ## Defects -/

variable {declared : String → Bool}

mutual

/-- A tree has no defect exactly when none of its nodes has one: its type is declared, and its
children have names of their own. -/
theorem treeDefects_eq_nil_iff : ∀ t : Expansion, Design.treeDefects declared t = [] ↔
    ∀ s ∈ t.subtrees, declared s.type = true ∧ (s.children.map name).Nodup
  | node name type span connectors children => by
    have htype : (if declared type then [] else [Defect.undeclaredType name type span]) = [] ↔
        declared type = true := by
      cases declared type <;> simp
    rw [Design.treeDefects, List.append_eq_nil_iff, htype,
      childDefects_eq_nil_iff name [] children List.nodup_nil, treeDefects_eq_nil_iff_all children,
      subtrees, List.forall_mem_cons, and_assoc]
    rfl

theorem treeDefects_eq_nil_iff_all : ∀ ts : List Expansion,
    (∀ t ∈ ts, Design.treeDefects declared t = []) ↔
      ∀ s ∈ subtreesAll ts, declared s.type = true ∧ (s.children.map name).Nodup
  | [] => by simp [subtreesAll]
  | t :: rest => by
    rw [List.forall_mem_cons, treeDefects_eq_nil_iff t, treeDefects_eq_nil_iff_all rest, subtreesAll,
      List.forall_mem_append]

end

/-! ## Nodes -/

/-- The node that the root of a tree becomes where it stands. -/
def rootAt (portsOf : String → List Port) (parent : Option Nat) (index used : Nat) (t : Expansion) :
    Expanded where
  name := t.name
  type := t.type
  span := t.span
  parent := parent
  ports := portsOf t.type
  connectors := Connector.attachAll (.expanded index) used t.connectors
  children := positions (index + 1) t.children

theorem flatten_eq (portsOf : String → List Port) (parent : Option Nat) (index used : Nat)
    (t : Expansion) : t.flatten portsOf parent index used = t.rootAt portsOf parent index used ::
      flattenAll portsOf (some index) (index + 1) (used + Connector.constants t.connectors)
        t.children := by
  cases t; rfl

section

variable {α : Type} {f : Expanded → α} {g : Expansion → α} {portsOf : String → List Port}

mutual

/-- What does not depend on where a node stands is the same of the node and of its subtree. -/
theorem map_flatten (hfg : ∀ parent index used t, f (rootAt portsOf parent index used t) = g t)
    (parent : Option Nat) (index used : Nat) : ∀ t : Expansion,
    (t.flatten portsOf parent index used).map f = t.subtrees.map g
  | node name type span connectors children => by
    rw [flatten_eq, subtrees_eq, List.map_cons, List.map_cons, hfg]
    exact congrArg _ (map_flattenAll hfg _ _ _ children)

theorem map_flattenAll (hfg : ∀ parent index used t, f (rootAt portsOf parent index used t) = g t)
    (parent : Option Nat) (index used : Nat) : ∀ ts : List Expansion,
    (flattenAll portsOf parent index used ts).map f = (subtreesAll ts).map g
  | [] => rfl
  | t :: rest => by
    rw [flattenAll, subtreesAll, List.map_append, List.map_append, map_flatten hfg _ _ _ t,
      map_flattenAll hfg _ _ _ rest]

end

end

/-- A tree has as many subtrees as nodes. -/
theorem length_subtrees (t : Expansion) : t.subtrees.length = t.size := by
  have hnames : (t.flatten (fun _ => []) none 0 0).map Expanded.name = t.subtrees.map name :=
    map_flatten (fun _ _ _ _ => rfl) none 0 0 t
  have hlength := congrArg List.length hnames
  rw [List.length_map, List.length_map, length_flatten] at hlength
  exact hlength.symm

end Expansion

end Interconnect
