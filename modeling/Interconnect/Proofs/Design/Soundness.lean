/-
Sound designs. A design builds exactly when its components have names of their own, and so have the
ports of one direction and the instances in each of them, and when every node of its trees has a
declared type and keeps its children apart. Nothing else matters: a design builds exactly when its
outline does, which has no connectors, no types of instances and no names of roots.
-/
import Interconnect.Proofs.Expansion.Subtrees

namespace Interconnect

namespace Design

/-- What a design needs to have a model. -/
structure Sound (d : Design) : Prop where
  components : (d.components.map Component.name).Nodup
  ports : ∀ c ∈ d.components, (c.ports.map fun p => (p.name, p.direction)).Nodup
  instances : ∀ c ∈ d.components, (c.instances.map Instance.name).Nodup
  types : ∀ t ∈ Expansion.subtreesAll d.expansions, ∃ c ∈ d.components, c.name = t.type
  children : ∀ t ∈ Expansion.subtreesAll d.expansions, (t.children.map Expansion.name).Nodup

theorem declares_iff {d : Design} {type : String} :
    d.declares type = true ↔ ∃ c ∈ d.components, c.name = type := by
  simp [declares]

/-- The defects are all that can be wrong. -/
theorem defects_eq_nil_iff (d : Design) : d.defects = [] ↔ d.Sound := by
  rw [defects, List.append_eq_nil_iff, componentDefects_eq_nil_iff [] _ List.nodup_nil,
    List.flatMap_eq_nil_iff, Expansion.treeDefects_eq_nil_iff_all]
  simp only [declares_iff]
  constructor
  · rintro ⟨⟨hnames, hdistinct⟩, htrees⟩
    exact ⟨hnames, fun c hc => (hdistinct c hc).ports, fun c hc => (hdistinct c hc).instances,
      fun t ht => (htrees t ht).1, fun t ht => (htrees t ht).2⟩
  · intro h
    exact ⟨⟨h.components, fun c hc => ⟨h.ports c hc, h.instances c hc⟩⟩,
      fun t ht => ⟨h.types t ht, h.children t ht⟩⟩

theorem exists_build_iff (d : Design) : (∃ m, d.build = .ok m) ↔ d.Sound := by
  simp only [build_eq_ok_iff, exists_and_left, exists_eq', and_true, defects_eq_nil_iff]

end Design

/-! ## Outlines -/

namespace Expansion

mutual

def unwired : Expansion → Expansion
  | node name type span _ children => node name type span [] (unwiredAll children)

def unwiredAll : List Expansion → List Expansion
  | [] => []
  | t :: rest => t.unwired :: unwiredAll rest

end

def unnamed (t : Expansion) : Expansion := node "" t.type t.span t.connectors t.children

/-- What matters to soundness at the root of a tree. -/
def shape (t : Expansion) : String × List String := (t.type, t.children.map name)

theorem map_name_unwiredAll (ts : List Expansion) : (unwiredAll ts).map name = ts.map name := by
  induction ts with
  | nil => rfl
  | cons t rest ih =>
    rw [unwiredAll, List.map_cons, List.map_cons, ih]
    cases t
    rfl

mutual

theorem map_shape_unwired : ∀ t : Expansion, t.unwired.subtrees.map shape = t.subtrees.map shape
  | node name type span connectors children => by
    rw [unwired, subtrees, subtrees, List.map_cons, List.map_cons, map_shape_unwiredAll children]
    exact congrArg (fun names => (type, names) :: _) (map_name_unwiredAll children)

theorem map_shape_unwiredAll : ∀ ts : List Expansion,
    (subtreesAll (unwiredAll ts)).map shape = (subtreesAll ts).map shape
  | [] => rfl
  | t :: rest => by
    rw [unwiredAll, subtreesAll, subtreesAll, List.map_append, List.map_append, map_shape_unwired t,
      map_shape_unwiredAll rest]

end

/-- The name of a root is not looked at. -/
theorem map_shape_unnamed (ts : List Expansion) :
    (subtreesAll (ts.map unnamed)).map shape = (subtreesAll ts).map shape := by
  induction ts with
  | nil => rfl
  | cons t rest ih =>
    rw [List.map_cons, subtreesAll, subtreesAll, List.map_append, List.map_append, ih, subtrees_eq,
      subtrees_eq]
    rfl

end Expansion

namespace Component

/-- The component without connectors and without the types of its instances. -/
def outline (c : Component) : Component :=
  { c with
    connectors := []
    instances := c.instances.map fun i => { i with type := "", connectors := [] } }

/-- What matters to soundness in a component. -/
def shape (c : Component) : String × List (String × Direction) × List String :=
  (c.name, c.ports.map (fun p => (p.name, p.direction)), c.instances.map Instance.name)

theorem shape_outline (c : Component) : c.outline.shape = c.shape := by
  simp [shape, outline]

end Component

namespace Design

def outline (d : Design) : Design where
  components := d.components.map Component.outline
  expansions := (Expansion.unwiredAll d.expansions).map Expansion.unnamed

/-- Soundness is decided by the shapes of components and trees. -/
theorem Sound.of_shapes {d d' : Design} (h : d.Sound)
    (hc : d'.components.map Component.shape = d.components.map Component.shape)
    (ht : (Expansion.subtreesAll d'.expansions).map Expansion.shape =
      (Expansion.subtreesAll d.expansions).map Expansion.shape) : d'.Sound := by
  have hnames : d'.components.map Component.name = d.components.map Component.name := by
    have := congrArg (List.map Prod.fst) hc
    rwa [List.map_map, List.map_map] at this
  have hmember : ∀ c ∈ d'.components, ∃ c₀ ∈ d.components, c₀.shape = c.shape := fun c hcm =>
    List.mem_map.1 (hc ▸ List.mem_map_of_mem hcm)
  have hsubtree : ∀ t ∈ Expansion.subtreesAll d'.expansions,
      ∃ t₀ ∈ Expansion.subtreesAll d.expansions, t₀.shape = t.shape := fun t htm =>
    List.mem_map.1 (ht ▸ List.mem_map_of_mem htm)
  simp only [Component.shape, Prod.mk.injEq] at hmember
  simp only [Expansion.shape, Prod.mk.injEq] at hsubtree
  refine ⟨hnames ▸ h.components, fun c hcm => ?_, fun c hcm => ?_, fun t htm => ?_, fun t htm => ?_⟩
  · obtain ⟨c₀, hc₀, -, hports, -⟩ := hmember c hcm
    exact hports ▸ h.ports c₀ hc₀
  · obtain ⟨c₀, hc₀, -, -, hinstances⟩ := hmember c hcm
    exact hinstances ▸ h.instances c₀ hc₀
  · obtain ⟨t₀, ht₀, htype, -⟩ := hsubtree t htm
    obtain ⟨c, hcm, hname⟩ := h.types t₀ ht₀
    have hmem : t.type ∈ d'.components.map Component.name := by
      rw [hnames, ← htype, ← hname]
      exact List.mem_map_of_mem hcm
    exact List.mem_map.1 hmem
  · obtain ⟨t₀, ht₀, -, hchildren⟩ := hsubtree t htm
    exact hchildren ▸ h.children t₀ ht₀

theorem sound_outline_iff (d : Design) : d.outline.Sound ↔ d.Sound := by
  have hc : d.outline.components.map Component.shape = d.components.map Component.shape := by
    rw [outline, List.map_map]
    exact List.map_congr_left fun c _ => c.shape_outline
  have ht : (Expansion.subtreesAll d.outline.expansions).map Expansion.shape =
      (Expansion.subtreesAll d.expansions).map Expansion.shape := by
    rw [outline, Expansion.map_shape_unnamed, Expansion.map_shape_unwiredAll]
  exact ⟨fun h => h.of_shapes hc.symm ht.symm, fun h => h.of_shapes hc ht⟩

end Design

end Interconnect
