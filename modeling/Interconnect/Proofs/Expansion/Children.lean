/-
Children in the flat form of expansion trees. The positions that a node lists for its children are
those of the roots of its subtrees, and siblings of a sound tree have names of their own; so among the
children of a node a name is found at most once.
-/
import Interconnect.Proofs.Design.Distinct

namespace Interconnect

/-- Nodes that stand in the arena one after another, the first of them at `index`. -/
def Expanded.StandsAt (arena : List Expanded) (index : Nat) (es : List Expanded) : Prop :=
  ∀ (j : Nat) (e : Expanded), es[j]? = some e → arena[index + j]? = some e

/-- Names tell the ports of a node apart, and its children. -/
structure Expanded.Distinct (arena : List Expanded) (e : Expanded) : Prop where
  ports : (e.ports.map fun p => (p.name, p.direction)).Nodup
  children : ((e.children.filterMap fun index => (arena[index]?).map (index, ·)).map
    fun found => found.2.name).Nodup

namespace Expansion

variable {arena : List Expanded} {portsOf : String → List Port} {declared : String → Bool}

theorem standsAt_self (arena : List Expanded) : Expanded.StandsAt arena 0 arena := fun j e h => by
  rwa [Nat.zero_add]

theorem standsAt_cons {index : Nat} {e : Expanded} {es : List Expanded}
    (h : Expanded.StandsAt arena index (e :: es)) :
    arena[index]? = some e ∧ Expanded.StandsAt arena (index + 1) es := by
  refine ⟨h 0 e rfl, fun j f hf => ?_⟩
  rw [show index + 1 + j = index + (j + 1) by omega]
  exact h (j + 1) f hf

theorem standsAt_append {index : Nat} {es fs : List Expanded}
    (h : Expanded.StandsAt arena index (es ++ fs)) :
    Expanded.StandsAt arena index es ∧ Expanded.StandsAt arena (index + es.length) fs := by
  refine ⟨fun j e he => h j e ?_, fun j f hf => ?_⟩
  · rw [List.getElem?_append_left (List.getElem?_eq_some_iff.1 he).1, he]
  · rw [Nat.add_assoc]
    refine h _ f ?_
    rw [List.getElem?_append_right (Nat.le_add_right ..), Nat.add_sub_cancel_left, hf]

/-! ## Siblings -/

/-- Children have no defect exactly when their names differ, from one another and from the names of
the earlier ones, and none of them has a defect in it. -/
theorem childDefects_eq_nil_iff (parent : String) (before : List (String × Span))
    (ts : List Expansion) (h : (before.map Prod.fst).Nodup) :
    Design.childDefects declared parent before ts = [] ↔
      (before.map Prod.fst ++ ts.map name).Nodup ∧ ∀ t ∈ ts, Design.treeDefects declared t = [] := by
  induction ts generalizing before with
  | nil => simp [Design.childDefects, h]
  | cons t rest ih =>
    rw [Design.childDefects, List.append_eq_nil_iff, List.append_eq_nil_iff]
    have hclash : ((before.find? (·.1 = t.name)).map fun first =>
        Defect.duplicateChild parent t.name t.span first.2).toList = [] ↔
          (((before ++ [(t.name, t.span)]).map Prod.fst)).Nodup := by
      rw [← Design.clashes_eq_nil_iff Prod.fst before [(t.name, t.span)] h]
      cases hf : before.find? (·.1 = t.name) <;> simp [Design.clashes, hf]
    rw [hclash]
    constructor
    · rintro ⟨⟨hb, ht⟩, hrest⟩
      obtain ⟨hn, hd⟩ := (ih _ hb).1 hrest
      rw [List.map_append, List.append_assoc] at hn
      exact ⟨hn, List.forall_mem_cons.2 ⟨ht, hd⟩⟩
    · rintro ⟨hn, hd⟩
      obtain ⟨ht, hd⟩ := List.forall_mem_cons.1 hd
      have hb : ((before ++ [(t.name, t.span)]).map Prod.fst).Nodup := by
        rw [List.map_append]
        exact hn.sublist ((List.singleton_sublist.2 (List.mem_cons_self ..)).append_left _)
      refine ⟨⟨hb, ht⟩, (ih _ hb).2 ⟨?_, hd⟩⟩
      rwa [List.map_append, List.append_assoc]

/-- The positions of siblings are those of their roots. -/
theorem names_positions {parent : Option Nat} {index used : Nat} {ts : List Expansion}
    (h : Expanded.StandsAt arena index (flattenAll portsOf parent index used ts)) :
    ((positions index ts).filterMap fun j => (arena[j]?).map (j, ·)).map (fun found => found.2.name) =
      ts.map name := by
  induction ts generalizing index used with
  | nil => rfl
  | cons t rest ih =>
    obtain ⟨ht, hrest⟩ := standsAt_append h
    rw [length_flatten] at hrest
    obtain ⟨e, he, hname⟩ : ∃ e, arena[index]? = some e ∧ e.name = t.name := by
      cases t
      exact ⟨_, (standsAt_cons ht).1, rfl⟩
    rw [positions, List.filterMap_cons_some (by rw [he, Option.map_some]), List.map_cons, List.map_cons,
      hname, ih hrest]

mutual

/-- Below a node without defects every node keeps its children apart. -/
theorem nodup_children_flatten {parent : Option Nat} {index used : Nat} : ∀ t : Expansion,
    Expanded.StandsAt arena index (t.flatten portsOf parent index used) →
    Design.treeDefects declared t = [] → ∀ e ∈ t.flatten portsOf parent index used,
      ((e.children.filterMap fun j => (arena[j]?).map (j, ·)).map fun found => found.2.name).Nodup
  | node name type span connectors children, hs, hd, e, he => by
    obtain ⟨-, hs⟩ := standsAt_cons hs
    rw [Design.treeDefects, List.append_eq_nil_iff,
      childDefects_eq_nil_iff name [] children List.nodup_nil] at hd
    obtain ⟨-, hn, hd⟩ := hd
    rcases List.mem_cons.1 he with rfl | he
    · rw [names_positions hs]
      exact hn
    · exact nodup_children_flattenAll children hs hd e he

theorem nodup_children_flattenAll {parent : Option Nat} {index used : Nat} : ∀ ts : List Expansion,
    Expanded.StandsAt arena index (flattenAll portsOf parent index used ts) →
    (∀ t ∈ ts, Design.treeDefects declared t = []) →
    ∀ e ∈ flattenAll portsOf parent index used ts,
      ((e.children.filterMap fun j => (arena[j]?).map (j, ·)).map fun found => found.2.name).Nodup
  | [], _, _, _, he => nomatch he
  | t :: rest, hs, hd, e, he => by
    obtain ⟨ht, hrest⟩ := standsAt_append hs
    rw [length_flatten] at hrest
    obtain ⟨hdt, hd⟩ := List.forall_mem_cons.1 hd
    rcases List.mem_append.1 he with he | he
    · exact nodup_children_flatten t ht hdt e he
    · exact nodup_children_flattenAll rest hrest hd e he

end

/-! ## Ports -/

mutual

/-- Every node has the ports of its type. -/
theorem ports_flatten {parent : Option Nat} {index used : Nat} : ∀ t : Expansion,
    ∀ e ∈ t.flatten portsOf parent index used, e.ports = portsOf e.type
  | node _ _ _ _ children, e, he => by
    rcases List.mem_cons.1 he with rfl | he
    · rfl
    · exact ports_flattenAll children e he

theorem ports_flattenAll {parent : Option Nat} {index used : Nat} : ∀ ts : List Expansion,
    ∀ e ∈ flattenAll portsOf parent index used ts, e.ports = portsOf e.type
  | t :: rest, e, he => by
    rcases List.mem_append.1 he with he | he
    · exact ports_flatten t e he
    · exact ports_flattenAll rest e he

end

end Expansion

/-- In whatever is built, names tell the ports and the children of every node apart. -/
theorem Design.distinct_expanded {d : Design} {m : Model} (h : d.build = .ok m) :
    ∀ e ∈ m.expanded, e.Distinct m.expanded := by
  obtain ⟨-, hdistinct⟩ := distinct_of_build h
  obtain ⟨hd, rfl⟩ := build_eq_ok_iff.1 h
  rw [defects, List.append_eq_nil_iff, List.flatMap_eq_nil_iff] at hd
  refine fun e he => ⟨?_, ?_⟩
  · rw [Expansion.ports_flattenAll d.expansions e he, portsOf]
    cases hf : d.components.find? (·.name = e.type) with
    | none => exact List.nodup_nil
    | some c => exact (hdistinct c (List.mem_of_find?_eq_some hf)).ports
  · exact Expansion.nodup_children_flattenAll d.expansions (Expansion.standsAt_self _) hd.2 e he

end Interconnect
