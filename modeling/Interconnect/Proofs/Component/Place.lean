/-
Places for connectors. A connector stands among those of a component or among those of one of its
instances. To put one more there adds it to the connectors of the component, in the order in which
these are walked, behind those that come before the place; nothing else of the component changes.
-/
import Interconnect.Component
import Interconnect.Proofs.Resolution.Bare
import Mathlib.Data.List.InsertIdx

namespace Interconnect

/-! ## Lists -/

theorem insertIdx_append_right {α : Type} (l r : List α) (n : Nat) (a : α) :
    (l ++ r).insertIdx (l.length + n) a = l ++ r.insertIdx n a := by
  induction l with
  | nil => rw [List.length_nil, Nat.zero_add, List.nil_append, List.nil_append]
  | cons b rest ih =>
    rw [List.cons_append, List.length_cons, Nat.add_right_comm, List.insertIdx_succ_cons, ih,
      List.cons_append]

theorem insertIdx_append_left {α : Type} {l : List α} {n : Nat} (h : n ≤ l.length) (r : List α)
    (a : α) : (l ++ r).insertIdx n a = l.insertIdx n a ++ r := by
  induction l generalizing n with
  | nil =>
    rw [Nat.le_zero.1 h, List.insertIdx_zero, List.insertIdx_zero]
    rfl
  | cons b rest ih =>
    cases n with
    | zero => rfl
    | succ n =>
      rw [List.cons_append, List.insertIdx_succ_cons, List.insertIdx_succ_cons,
        ih (Nat.le_of_succ_le_succ h), List.cons_append]

/-- What does not see the change of one member is the same along the list. -/
theorem map_modify_eq {α β : Type} {f : α → α} {g : α → β} (h : ∀ a, g (f a) = g a) (l : List α)
    (k : Nat) : (l.modify k f).map g = l.map g := by
  refine List.ext_getElem? fun j => ?_
  rw [List.getElem?_map, List.getElem?_map, List.getElem?_modify]
  cases l[j]? with
  | none => rfl
  | some a =>
    by_cases hj : k = j
    · simp [hj, h]
    · simp [hj]

theorem eq_append_of_getElem? {α : Type} {l : List α} {k : Nat} {a : α} (h : l[k]? = some a) :
    l = l.take k ++ a :: l.drop (k + 1) := by
  obtain ⟨hk, rfl⟩ := List.getElem?_eq_some_iff.1 h
  rw [← List.drop_eq_getElem_cons hk, List.take_append_drop]

/-- A list that is changed at one position is its parts before and after with the changed member. -/
theorem modify_eq_append {α : Type} {l : List α} {k : Nat} {a : α} (h : l[k]? = some a) (f : α → α) :
    l.modify k f = l.take k ++ f a :: l.drop (k + 1) := by
  obtain ⟨hk, rfl⟩ := List.getElem?_eq_some_iff.1 h
  exact List.modify_eq_take_cons_drop hk

/-! ## Places -/

/-- A place among the connectors of a component, or among those of the instance at a position. -/
structure Place where
  inst? : Option Nat := none
  position : Nat
  deriving DecidableEq, Repr

def Instance.rewire (f : List Connector → List Connector) (i : Instance) : Instance :=
  { i with connectors := f i.connectors }

namespace Component

/-- The connectors of the component itself, or of the instance at a position. -/
def connectorsOn? (c : Component) : Option Nat → Option (List Connector)
  | none => some c.connectors
  | some k => c.instances[k]?.map Instance.connectors

/-- Changes the connectors of the component itself, or of the instance at a position. -/
def rewire (c : Component) (f : List Connector → List Connector) : Option Nat → Component
  | none => { c with connectors := f c.connectors }
  | some k => { c with instances := c.instances.modify k (Instance.rewire f) }

/-- Puts a connector at a place. Those from there on move up. -/
def insert (c : Component) (p : Place) (w : Connector) : Component :=
  c.rewire (·.insertIdx p.position w) p.inst?

/-- Takes away the connector at a place. -/
def erase (c : Component) (p : Place) : Component := c.rewire (·.eraseIdx p.position) p.inst?

/-- The instance on which these connectors stand, if they stand on one. -/
def standingOn (c : Component) (on : Option Nat) : Option Instance :=
  on.bind fun k => c.instances[k]?.map Instance.bare

/-- How many connectors of the component come before these. -/
def countBefore (c : Component) : Option Nat → Nat
  | none => 0
  | some k => c.connectors.length + ((c.instances.take k).flatMap Instance.connectors).length

/-- The connectors of the component, each with the instance on which it stands, if it stands on one. -/
def standing (c : Component) : List (Option Instance × Connector) :=
  c.connectors.map (none, ·) ++ c.instances.flatMap fun i => i.connectors.map (some i.bare, ·)

end Component

namespace Place

/-- The place is behind some of the connectors that there are, or behind all of them. -/
def Fits (p : Place) (c : Component) : Prop :=
  ∃ ks, c.connectorsOn? p.inst? = some ks ∧ p.position ≤ ks.length

/-- The connector stands at the place. -/
def Holds (p : Place) (c : Component) (w : Connector) : Prop :=
  ∃ ks, c.connectorsOn? p.inst? = some ks ∧ ks[p.position]? = some w

/-- How many connectors of the component come before the place. -/
def offset (p : Place) (c : Component) : Nat := c.countBefore p.inst? + p.position

end Place

namespace Component

variable {c : Component} {p : Place} {w : Connector}

/-! ## Putting in and taking away -/

theorem bare_rewire (c : Component) (f : List Connector → List Connector) (on : Option Nat) :
    (c.rewire f on).bare = c.bare := by
  cases on with
  | none => rfl
  | some k =>
    have hinstances : (c.instances.modify k (Instance.rewire f)).map Instance.bare =
        c.instances.map Instance.bare := map_modify_eq (f := Instance.rewire f) (fun _ => rfl) _ k
    rw [rewire, bare, hinstances, bare]

theorem bare_insert (c : Component) (p : Place) (w : Connector) : (c.insert p w).bare = c.bare :=
  bare_rewire c _ p.inst?

theorem bare_erase (c : Component) (p : Place) : (c.erase p).bare = c.bare :=
  bare_rewire c _ p.inst?

theorem rewire_rewire (c : Component) (f g : List Connector → List Connector) (on : Option Nat) :
    (c.rewire f on).rewire g on = c.rewire (g ∘ f) on := by
  cases on with
  | none => rfl
  | some k =>
    rw [rewire, rewire, rewire, List.modify_modify_eq]
    rfl

/-- A change that leaves the connectors as they are changes nothing. -/
theorem rewire_eq_self {f : List Connector → List Connector} {on : Option Nat} {ks : List Connector}
    (h : c.connectorsOn? on = some ks) (hf : f ks = ks) : c.rewire f on = c := by
  cases on with
  | none =>
    cases h
    rw [rewire, hf]
  | some k =>
    obtain ⟨i, hi, rfl⟩ := Option.map_eq_some_iff.1 h
    have hself : i.rewire f = i := by rw [Instance.rewire, hf]
    rw [rewire, modify_eq_append hi, hself, ← eq_append_of_getElem? hi]

theorem connectorsOn?_rewire (c : Component) (f : List Connector → List Connector) (on : Option Nat) :
    (c.rewire f on).connectorsOn? on = (c.connectorsOn? on).map f := by
  cases on with
  | none => rfl
  | some k =>
    simp only [rewire, connectorsOn?, List.getElem?_modify_eq, Option.map_map, Option.map_eq_map]
    rfl

/-- What is taken away can be put back. -/
theorem insert_erase (h : p.Holds c w) : (c.erase p).insert p w = c := by
  obtain ⟨ks, hks, hw⟩ := h
  obtain ⟨hp, rfl⟩ := List.getElem?_eq_some_iff.1 hw
  rw [erase, insert, rewire_rewire]
  exact rewire_eq_self hks (List.insertIdx_eraseIdx_getElem hp)

theorem fits_erase (h : p.Holds c w) : p.Fits (c.erase p) := by
  obtain ⟨ks, hks, hw⟩ := h
  obtain ⟨hp, -⟩ := List.getElem?_eq_some_iff.1 hw
  refine ⟨ks.eraseIdx p.position, by rw [erase, connectorsOn?_rewire, hks, Option.map_some], ?_⟩
  rw [List.length_eraseIdx_of_lt hp]
  exact Nat.le_sub_one_of_lt hp

/-! ## Where connectors stand -/

/-- What connectors stand on is not theirs to change. -/
theorem standingOn_bare (c : Component) (on : Option Nat) : c.bare.standingOn on = c.standingOn on := by
  cases on with
  | none => rfl
  | some k =>
    simp only [standingOn, bare, List.getElem?_map, Option.map_map, Option.bind_some]
    rfl

theorem countBefore_rewire (c : Component) (f : List Connector → List Connector) (on : Option Nat) :
    (c.rewire f on).countBefore on = c.countBefore on := by
  cases on with
  | none => rfl
  | some k =>
    rw [rewire, countBefore, countBefore, List.take_modify,
      List.modify_eq_self (List.length_take_le k c.instances)]

theorem offset_erase (c : Component) (p : Place) : p.offset (c.erase p) = p.offset c :=
  congrArg (· + p.position) (countBefore_rewire c _ p.inst?)

/-- A change touches only one stretch of the connectors. -/
theorem exists_standing_rewire {on : Option Nat} {ks : List Connector}
    (h : c.connectorsOn? on = some ks) :
    ∃ before after, before.length = c.countBefore on ∧ ∀ f, (c.rewire f on).standing =
      before ++ ((f ks).map (c.standingOn on, ·) ++ after) := by
  cases on with
  | none =>
    cases h
    exact ⟨[], c.instances.flatMap fun i => i.connectors.map (some i.bare, ·), rfl, fun f => rfl⟩
  | some k =>
    obtain ⟨i, hi, rfl⟩ := Option.map_eq_some_iff.1 h
    refine ⟨c.connectors.map (none, ·) ++
        (c.instances.take k).flatMap fun i => i.connectors.map (some i.bare, ·),
      (c.instances.drop (k + 1)).flatMap fun i => i.connectors.map (some i.bare, ·), ?_, fun f => ?_⟩
    · simp only [countBefore, List.length_append, List.length_flatMap, List.length_map]
    · rw [rewire, standing, modify_eq_append hi, List.flatMap_append, List.flatMap_cons,
        List.append_assoc, standingOn, Option.bind_some, hi]
      rfl

/-- The connectors of a component with one more: it comes behind those before its place. -/
theorem standing_insert (h : p.Fits c) (w : Connector) :
    p.offset c ≤ c.standing.length ∧
      (c.insert p w).standing = c.standing.insertIdx (p.offset c) (c.standingOn p.inst?, w) := by
  obtain ⟨ks, hks, hp⟩ := h
  obtain ⟨before, after, hlen, hrewire⟩ := exists_standing_rewire hks
  have hpos : p.position ≤ (ks.map (c.standingOn p.inst?, ·)).length := by
    rw [List.length_map]
    exact hp
  have hself : c.standing = before ++ (ks.map (c.standingOn p.inst?, ·) ++ after) := by
    have := hrewire id
    rwa [rewire_eq_self hks rfl] at this
  rw [hself, Place.offset, ← hlen]
  constructor
  · rw [List.length_append, List.length_append]
    exact Nat.add_le_add_left (Nat.le_trans hpos (Nat.le_add_right _ _)) _
  · rw [insert, hrewire, List.map_insertIdx, insertIdx_append_right, insertIdx_append_left hpos]

end Component

end Interconnect
