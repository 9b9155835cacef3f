/-
The flat form of expansion trees as a whole. The nodes are the roots of the subtrees in preorder: a
subtree takes up the places from that of its root on, and a node is listed once by its parent and by
nobody else. So the lists of children, followed from the nodes without parents, give the trees back,
but for the scopes of connectors and the numbers of constants.
-/
import Mathlib.Data.List.Sort
import Mathlib.Logic.Relation
import Interconnect.Proofs.Design.Numbering
import Interconnect.Proofs.Resolution.Template

namespace Interconnect

namespace Expansion

mutual

/-- The tree without what a model gives to its connectors. -/
def detached : Expansion → Expansion
  | node name type span connectors children =>
    node name type span (connectors.map Connector.detached) (detachedAll children)

def detachedAll : List Expansion → List Expansion
  | [] => []
  | t :: rest => t.detached :: detachedAll rest

end

end Expansion

namespace Model

/-- The tree that the lists of children spell out from a node on. A child stands behind its parent, so
the walk down ends. -/
def tree? (m : Model) (index : Nat) : Option Expansion :=
  if h : index < m.expanded.length then
    let e := m.expanded[index]
    (e.children.mapM fun child => if index < child then m.tree? child else none).map
      (.node e.name e.type e.span e.connectors)
  else none
termination_by m.expanded.length - index

/-- The nodes without a parent. -/
def roots (m : Model) : List Nat :=
  (List.range m.expanded.length).filter fun index => (m.expanded[index]?).any (·.parent = none)

/-- The one node has the other among its children. -/
def Lists (m : Model) (parent child : Nat) : Prop :=
  ∃ e, m.expanded[parent]? = some e ∧ child ∈ e.children

/-- The one node is reached from the other by the lists of children. -/
def Below (m : Model) : Nat → Nat → Prop := Relation.ReflTransGen m.Lists

/-- The model holds the trees in preorder. A place is that of a node and of the subtree that it stands
for. -/
structure Flattens (m : Model) (ts : List Expansion) : Prop where
  preorder : m.expanded.map (fun e => (e.name, e.type, e.span, e.connectors.map Connector.detached)) =
    (Expansion.subtreesAll ts).map fun t =>
      (t.name, t.type, t.span, t.connectors.map Connector.detached)
  /-- A parent stands before its children and lists each of them once. -/
  parent : ∀ (j p : Nat) (e : Expanded), m.expanded[j]? = some e → e.parent = some p →
    p < j ∧ ∃ f, m.expanded[p]? = some f ∧ f.children.count j = 1
  /-- Only the parent lists a node. -/
  listed : ∀ (j p : Nat), m.Lists p j → ∃ e, m.expanded[j]? = some e ∧ e.parent = some p
  increasing : ∀ e ∈ m.expanded, e.children.Pairwise (· < ·)
  /-- The children are those of the subtree, in the order in which it declares them. -/
  children : ∀ (j : Nat) (e : Expanded) (t : Expansion), m.expanded[j]? = some e →
    (Expansion.subtreesAll ts)[j]? = some t →
    (e.children.mapM m.tree?).map Expansion.detachedAll = some (Expansion.detachedAll t.children)
  /-- A subtree takes up the places from that of its root on. -/
  contiguous : ∀ (j : Nat) (t : Expansion), (Expansion.subtreesAll ts)[j]? = some t →
    ∀ k, m.Below j k ↔ j ≤ k ∧ k < j + t.size
  ports : ∀ e ∈ m.expanded, ∃ c, m.find? e.type = some c ∧ e.ports = c.ports
  /-- The nodes without a parent stand where the trees begin. -/
  roots : m.roots = Expansion.positions 0 ts
  rebuilt : (m.roots.mapM m.tree?).map Expansion.detachedAll = some (Expansion.detachedAll ts)

theorem lists_iff {m : Model} {p c : Nat} {e : Expanded} (he : m.expanded[p]? = some e) :
    m.Lists p c ↔ c ∈ e.children := by
  constructor
  · rintro ⟨f, hf, hc⟩
    cases he.symm.trans hf
    exact hc
  · intro hc
    exact ⟨e, he, hc⟩

/-- Below a node are the node itself and what is below its children. -/
theorem below_iff_head {m : Model} {j k : Nat} :
    m.Below j k ↔ j = k ∨ ∃ c, m.Lists j c ∧ m.Below c k :=
  Relation.ReflTransGen.cases_head_iff

theorem tree?_eq {m : Model} {index : Nat} {e : Expanded} (he : m.expanded[index]? = some e) :
    m.tree? index =
      (e.children.mapM fun child => if index < child then m.tree? child else none).map
        (.node e.name e.type e.span e.connectors) := by
  obtain ⟨h, rfl⟩ := List.getElem?_eq_some_iff.1 he
  rw [tree?, dif_pos h]

end Model

namespace Expansion

variable {m : Model} {portsOf : String → List Port}

/-! ## Positions -/

theorem le_of_mem_positions {first i : Nat} {ts : List Expansion} (h : i ∈ positions first ts) :
    first ≤ i := by
  induction ts generalizing first with
  | nil => cases h
  | cons t rest ih =>
    rcases List.mem_cons.1 h with rfl | h
    · exact Nat.le_refl _
    · have := ih h
      omega

theorem size_pos (t : Expansion) : 0 < t.size := by
  cases t
  rw [size]
  omega

theorem pairwise_positions (first : Nat) (ts : List Expansion) :
    (positions first ts).Pairwise (· < ·) := by
  induction ts generalizing first with
  | nil => exact .nil
  | cons t rest ih =>
    refine .cons (fun i hi => ?_) (ih _)
    have := le_of_mem_positions hi
    have := t.size_pos
    omega

/-- The roots of trees that stand in the arena have the parent of the trees. -/
theorem parent_of_mem_positions {arena : List Expanded} {parent : Option Nat} {index used i : Nat}
    {ts : List Expansion} (h : Expanded.StandsAt arena index (flattenAll portsOf parent index used ts))
    (hi : i ∈ positions index ts) : ∃ e, arena[i]? = some e ∧ e.parent = parent := by
  induction ts generalizing index used with
  | nil => cases hi
  | cons t rest ih =>
    obtain ⟨ht, hrest⟩ := standsAt_append h
    rw [length_flatten] at hrest
    rcases List.mem_cons.1 hi with rfl | hi
    · rw [flatten_eq] at ht
      exact ⟨_, (standsAt_cons ht).1, rfl⟩
    · exact ih hrest hi

/-! ## Subtrees in their places -/

mutual

/-- The subtrees of a tree in the arena are there themselves. -/
theorem standsAt_subtree {arena : List Expanded} {parent : Option Nat} {index used j : Nat}
    {u : Expansion} : ∀ t : Expansion,
    Expanded.StandsAt arena index (t.flatten portsOf parent index used) → t.subtrees[j]? = some u →
      ∃ parent used, Expanded.StandsAt arena (index + j) (u.flatten portsOf parent (index + j) used)
  | node name type span connectors children, h, hu => by
    cases j with
    | zero => cases hu; exact ⟨parent, used, h⟩
    | succ j =>
      rw [show index + (j + 1) = index + 1 + j by omega]
      exact standsAt_subtreeAll children (standsAt_cons h).2 hu

theorem standsAt_subtreeAll {arena : List Expanded} {parent : Option Nat} {index used j : Nat}
    {u : Expansion} : ∀ ts : List Expansion,
    Expanded.StandsAt arena index (flattenAll portsOf parent index used ts) →
      (subtreesAll ts)[j]? = some u →
      ∃ parent used, Expanded.StandsAt arena (index + j) (u.flatten portsOf parent (index + j) used)
  | t :: rest, h, hu => by
    obtain ⟨ht, hrest⟩ := standsAt_append h
    rw [length_flatten] at hrest
    rcases Nat.lt_or_ge j t.subtrees.length with hj | hj
    · rw [subtreesAll, List.getElem?_append_left hj] at hu
      exact standsAt_subtree t ht hu
    · rw [subtreesAll, List.getElem?_append_right hj, length_subtrees] at hu
      rw [length_subtrees] at hj
      have := standsAt_subtreeAll rest hrest hu
      rwa [show index + t.size + (j - t.size) = index + j by omega] at this

end

mutual

/-- A tree takes up as many places as it has nodes. -/
theorem below_iff {parent : Option Nat} {index used k : Nat} : ∀ t : Expansion,
    Expanded.StandsAt m.expanded index (t.flatten portsOf parent index used) →
      (m.Below index k ↔ index ≤ k ∧ k < index + t.size)
  | node name type span connectors children, h => by
    obtain ⟨he, hs⟩ := standsAt_cons h
    have hall := below_iff_all (k := k) children hs
    rw [Model.below_iff_head, size]
    simp only [Model.lists_iff he]
    rw [hall]
    omega

theorem below_iff_all {parent : Option Nat} {index used k : Nat} : ∀ ts : List Expansion,
    Expanded.StandsAt m.expanded index (flattenAll portsOf parent index used ts) →
      ((∃ c, c ∈ positions index ts ∧ m.Below c k) ↔ index ≤ k ∧ k < index + sizeAll ts)
  | [], _ => by
    simp [positions, sizeAll]
  | t :: rest, h => by
    obtain ⟨ht, hrest⟩ := standsAt_append h
    rw [length_flatten] at hrest
    have hall := below_iff_all (k := k) rest hrest
    simp only [positions, List.mem_cons, or_and_right, exists_or, exists_eq_left]
    rw [below_iff t ht, hall, sizeAll]
    omega

end

/-- Every node is a root or is listed. -/
theorem mem_positions_or_lists {parent : Option Nat} {index used k : Nat} {ts : List Expansion}
    (h : Expanded.StandsAt m.expanded index (flattenAll portsOf parent index used ts))
    (hk : index ≤ k ∧ k < index + sizeAll ts) : k ∈ positions index ts ∨ ∃ p, m.Lists p k := by
  obtain ⟨c, hc, hbelow⟩ := (below_iff_all ts h).2 hk
  rcases Relation.ReflTransGen.cases_tail hbelow with rfl | ⟨p, -, hp⟩
  · exact .inl hc
  · exact .inr ⟨p, hp⟩

/-! ## Rebuilding -/

-- the trees of a row are looked up behind a parent, and at the roots without regard to any; `look`
-- stands for both

mutual

/-- A tree in the arena is what the lists of children spell out. -/
theorem tree?_of_standsAt {parent : Option Nat} {index used : Nat} : ∀ t : Expansion,
    Expanded.StandsAt m.expanded index (t.flatten portsOf parent index used) →
      (m.tree? index).map detached = some t.detached
  | node name type span connectors children, h => by
    obtain ⟨he, hs⟩ := standsAt_cons h
    obtain ⟨us, hus, hd⟩ := Option.map_eq_some_iff.1
      (trees?_of_standsAt (fun child => if index < child then m.tree? child else none) children
        (fun _ hi => if_pos hi) hs)
    rw [Model.tree?_eq he, hus, Option.map_some, Option.map_some, detached, detached, hd,
      Connector.map_detached_attachAll]

theorem trees?_of_standsAt {parent : Option Nat} {index used : Nat}
    (look : Nat → Option Expansion) : ∀ ts : List Expansion,
    (∀ i, index ≤ i → look i = m.tree? i) →
      Expanded.StandsAt m.expanded index (flattenAll portsOf parent index used ts) →
      ((positions index ts).mapM look).map detachedAll = some (detachedAll ts)
  | [], _, _ => rfl
  | t :: rest, hlook, h => by
    obtain ⟨ht, hrest⟩ := standsAt_append h
    rw [length_flatten] at hrest
    obtain ⟨u, hu, hud⟩ := Option.map_eq_some_iff.1 (tree?_of_standsAt t ht)
    obtain ⟨us, hus, husd⟩ := Option.map_eq_some_iff.1
      (trees?_of_standsAt look rest (fun i hi => hlook i (by omega)) hrest)
    rw [positions, List.mapM_cons, hlook index (Nat.le_refl _), hu, hus]
    simp only [Option.bind_eq_bind, Option.bind_some, Option.pure_def, Option.map_some, detachedAll,
      hud, husd]

end

/-! ## Nodes -/

section

variable {used : Nat} {ts : List Expansion} (hm : m.expanded = flattenAll portsOf none 0 used ts)

include hm

theorem standsAt_expanded :
    Expanded.StandsAt m.expanded 0 (flattenAll portsOf none 0 used ts) := by
  rw [← hm]
  exact standsAt_self _

/-- Each node is the root of the subtree in its place, with the children of that behind it. -/
theorem exists_subtree {j : Nat} {e : Expanded} (he : m.expanded[j]? = some e) :
    ∃ t used, (subtreesAll ts)[j]? = some t ∧ e.children = positions (j + 1) t.children ∧
      Expanded.StandsAt m.expanded (j + 1)
        (flattenAll portsOf (some j) (j + 1) used t.children) := by
  obtain ⟨t, ht, -⟩ : ∃ t, (subtreesAll ts)[j]? = some t ∧ t.name = e.name := by
    have hnames : m.expanded.map Expanded.name = (subtreesAll ts).map name := by
      rw [hm]
      exact map_flattenAll (fun _ _ _ _ => rfl) none 0 used ts
    have hname := congrArg (·[j]?) hnames
    rw [List.getElem?_map, List.getElem?_map, he] at hname
    exact Option.map_eq_some_iff.1 hname.symm
  obtain ⟨parent, used', hs⟩ := standsAt_subtreeAll ts (standsAt_expanded hm) ht
  rw [Nat.zero_add, flatten_eq] at hs
  obtain ⟨he', hs⟩ := standsAt_cons hs
  cases he.symm.trans he'
  exact ⟨t, _, ht, rfl, hs⟩

/-- What a node lists has the node for its parent, and stands behind it. -/
theorem parent_of_lists {p j : Nat} (h : m.Lists p j) :
    p < j ∧ ∃ e, m.expanded[j]? = some e ∧ e.parent = some p := by
  obtain ⟨f, hf, hj⟩ := h
  obtain ⟨t, used', -, hchildren, hs⟩ := exists_subtree hm hf
  rw [hchildren] at hj
  exact ⟨le_of_mem_positions hj, parent_of_mem_positions hs hj⟩

/-- A node is the root of a tree or is listed by its parent. -/
theorem root_or_child {j : Nat} {e : Expanded} (he : m.expanded[j]? = some e) :
    j ∈ positions 0 ts ∧ e.parent = none ∨ ∃ p, m.Lists p j ∧ e.parent = some p := by
  have hj : j < sizeAll ts := by
    rw [← length_flattenAll portsOf none 0 used, ← hm]
    exact (List.getElem?_eq_some_iff.1 he).1
  rcases mem_positions_or_lists (standsAt_expanded hm) ⟨Nat.zero_le j, by omega⟩ with hroot | ⟨p, hp⟩
  · obtain ⟨e', he', hparent⟩ := parent_of_mem_positions (standsAt_expanded hm) hroot
    cases he.symm.trans he'
    exact .inl ⟨hroot, hparent⟩
  · obtain ⟨-, e', he', hparent⟩ := parent_of_lists hm hp
    cases he.symm.trans he'
    exact .inr ⟨p, hp, hparent⟩

/-- The nodes without a parent are the roots of the trees. -/
theorem roots_eq : m.roots = positions 0 ts := by
  refine (List.pairwise_lt_range.filter _).eq_of_mem_iff (pairwise_positions 0 ts) fun j => ?_
  rw [List.mem_filter, List.mem_range, Option.any_eq_true]
  constructor
  · rintro ⟨-, e, he, hroot⟩
    rcases root_or_child hm he with ⟨hj, -⟩ | ⟨p, -, hparent⟩
    · exact hj
    · rw [hparent] at hroot
      cases of_decide_eq_true hroot
  · intro hj
    obtain ⟨e, he, hparent⟩ := parent_of_mem_positions (standsAt_expanded hm) hj
    exact ⟨(List.getElem?_eq_some_iff.1 he).1, e, he, decide_eq_true hparent⟩

end

end Expansion

namespace Design

/-- The model of whatever is built holds the trees of the design in preorder. -/
theorem flattens_of_build {d : Design} {m : Model} (h : d.build = .ok m) : m.Flattens d.expansions := by
  have hports : ∀ e ∈ m.expanded, ∃ c, m.find? e.type = some c ∧ e.ports = c.ports := by
    intro e he
    obtain ⟨c, hc, hp⟩ := Model.find?_type_of_build h he
    exact ⟨c, hc, hp.symm⟩
  obtain ⟨-, rfl⟩ := build_eq_ok_iff.1 h
  have hm : d.assemble.expanded =
    Expansion.flattenAll d.portsOf none 0 d.componentConstants d.expansions := rfl
  have hs := Expansion.standsAt_expanded hm
  have hincreasing : ∀ e ∈ d.assemble.expanded, e.children.Pairwise (· < ·) := by
    intro e he
    obtain ⟨j, he⟩ := List.mem_iff_getElem?.1 he
    obtain ⟨t, -, -, hchildren, -⟩ := Expansion.exists_subtree hm he
    rw [hchildren]
    exact Expansion.pairwise_positions ..
  refine ⟨?_, ?_, fun j p hp => (Expansion.parent_of_lists hm hp).2, hincreasing, ?_, ?_, hports,
    Expansion.roots_eq hm, ?_⟩
  · refine Expansion.map_flattenAll (fun parent index used t => ?_) none 0 _ d.expansions
    rw [Expansion.rootAt, Connector.map_detached_attachAll]
  · intro j p e he hparent
    rcases Expansion.root_or_child hm he with ⟨-, hnone⟩ | ⟨q, hq, hsome⟩
    · cases hparent.symm.trans hnone
    · cases hparent.symm.trans hsome
      obtain ⟨hlt, -⟩ := Expansion.parent_of_lists hm hq
      obtain ⟨f, hf, hj⟩ := hq
      exact ⟨hlt, f, hf,
        List.count_eq_one_of_mem (hincreasing f (List.mem_of_getElem? hf)).nodup hj⟩
  · intro j e t he ht
    obtain ⟨t', used', ht', hchildren, hs'⟩ := Expansion.exists_subtree hm he
    cases ht.symm.trans ht'
    rw [hchildren]
    exact Expansion.trees?_of_standsAt d.assemble.tree? t.children (fun _ _ => rfl) hs'
  · intro j t ht k
    obtain ⟨parent, used', hs'⟩ := Expansion.standsAt_subtreeAll d.expansions hs ht
    rw [Nat.zero_add] at hs'
    exact Expansion.below_iff t hs'
  · rw [Expansion.roots_eq hm]
    exact Expansion.trees?_of_standsAt d.assemble.tree? d.expansions (fun _ _ => rfl) hs

/-- Two trees, one of them with a tree of its own among the children of its root. -/
def nestedDesign : Design where
  components := [
    { name := "Gain", ports := [.incoming "x" {}, .outgoing "y" {}] },
    { name := "Stage", ports := [.outgoing "b" {}] }]
  expansions := [
    .node "top" "Stage" {} [.wired "t.y" "b" {}] [
      .node "s" "Stage" {} [.ofConstant "0" "g.x" {}, .wired "g.y" "b" {}]
        [.node "g" "Gain" {} [.ofConstant "1" "y" {}] []],
      .node "t" "Gain" {} [] []],
    .node "side" "Gain" {} [.wired "x" "y" {}] []]

theorem flattens_of_build_nested :
    nestedDesign.build = .ok nestedDesign.assemble ∧
    nestedDesign.assemble.Flattens nestedDesign.expansions ∧
    nestedDesign.assemble.roots = [0, 4] ∧
    nestedDesign.assemble.expanded.map (fun e => (e.name, e.parent, e.children)) = [
      ("top", none, [1, 3]), ("s", some 0, [2]), ("g", some 1, []), ("t", some 0, []),
      ("side", none, [])] :=
  ⟨rfl, flattens_of_build rfl, by decide, by decide⟩

end Design

end Interconnect
