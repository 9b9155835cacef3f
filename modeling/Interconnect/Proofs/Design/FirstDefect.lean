/-
The defect that is told. A design is walked declaration after declaration: the components, each before
its ports and these before its instances, and then the nodes of the trees, each before its children,
where a child takes its name before its type is looked at. A declaration is at fault when an earlier
one has its key, and a node when its type is not declared; and a design that does not build is refused
for the first fault of this walk.
-/
import Interconnect.Proofs.Design.Soundness

namespace Interconnect

namespace Design

/-! ## The walk -/

/-- What a declaration has for itself: no other may have the same. Components and nodes are told apart
by their positions. -/
inductive Key where
  | component (name : String)
  | port (component : Nat) (name : String) (direction : Direction)
  | inst (component : Nat) (name : String)
  | child (parent : Nat) (name : String)
  deriving DecidableEq, Repr

/-- The defect of a declaration that has the key of the one at `first`. `owner` is the name of what it
is declared in. -/
def Key.taken (owner : String) (span first : Span) : Key → Defect
  | component name => .duplicateComponent name span first
  | port _ name direction => .duplicatePort owner name direction span first
  | inst _ name => .duplicateInstance owner name span first
  | child _ name => .duplicateChild owner name span first

/-- A step of the walk: a declaration takes its key, or a node needs its type. -/
inductive Step where
  | takes (key : Key) (owner : String) (span : Span)
  | needs (inst type : String) (span : Span)
  deriving DecidableEq, Repr

/-- The steps through the component at a position. -/
def componentSteps (index : Nat) (c : Component) : List Step :=
  [.takes (.component c.name) "" c.span] ++
    c.ports.map (fun p => .takes (.port index p.name p.direction) c.name p.span) ++
    c.instances.map fun i => .takes (.inst index i.name) c.name i.span

mutual

/-- The steps through the tree whose root is at `index`. -/
def treeSteps (index : Nat) : Expansion → List Step
  | .node name type span _ children =>
    .needs name type span :: childSteps index name (index + 1) children

/-- The steps through the children of the node at `parent`. -/
def childSteps (parent : Nat) (owner : String) (index : Nat) : List Expansion → List Step
  | [] => []
  | t :: rest =>
    .takes (.child parent t.name) owner t.span ::
      (treeSteps index t ++ childSteps parent owner (index + t.size) rest)

end

/-- The steps through the components from a position on. -/
def componentsSteps (index : Nat) : List Component → List Step
  | [] => []
  | c :: rest => componentSteps index c ++ componentsSteps (index + 1) rest

/-- The steps through the trees from a position on. -/
def treesSteps (index : Nat) : List Expansion → List Step
  | [] => []
  | t :: rest => treeSteps index t ++ treesSteps (index + t.size) rest

def walk (d : Design) : List Step := componentsSteps 0 d.components ++ treesSteps 0 d.expansions

/-- A step that comes after the steps `before` is at fault. Of those that have its key the earliest
counts. -/
inductive Faulty (d : Design) (before : List Step) : Step → Defect → Prop
  | taken {key : Key} {owner owner' : String} {span first : Span} {earlier later : List Step}
    (hfirst : before = earlier ++ .takes key owner' first :: later)
    (hfree : ∀ owner span, .takes key owner span ∉ earlier) :
    Faulty d before (.takes key owner span) (key.taken owner span first)
  | undeclared {inst type : String} {span : Span} (h : ∀ c ∈ d.components, c.name ≠ type) :
    Faulty d before (.needs inst type span) (.undeclaredType inst type span)

/-- The fault of the first step that is at fault. -/
def FirstDefect (d : Design) (e : Defect) : Prop :=
  ∃ k s, d.walk[k]? = some s ∧ d.Faulty (d.walk.take k) s e ∧
    ∀ j s', j < k → d.walk[j]? = some s' → ∀ e', ¬ d.Faulty (d.walk.take j) s' e'

/-! ## Faults -/

/-- The place of a declaration that has the key. -/
def Step.taker? (key : Key) : Step → Option Span
  | takes key' _ span => if key' = key then some span else none
  | needs .. => none

/-- The place of the earliest declaration that has the key. -/
def taker? (key : Key) (steps : List Step) : Option Span := steps.findSome? (Step.taker? key)

theorem Step.taker?_eq_some_iff {key : Key} {s : Step} {span : Span} :
    s.taker? key = some span ↔ ∃ owner, s = takes key owner span := by
  cases s with
  | takes key' owner span' =>
    simp only [taker?, Option.ite_none_right_eq_some, Option.some.injEq, takes.injEq]
    constructor
    · rintro ⟨rfl, rfl⟩
      exact ⟨owner, rfl, rfl, rfl⟩
    · rintro ⟨-, rfl, -, rfl⟩
      exact ⟨rfl, rfl⟩
  | needs => simp [taker?]

theorem taker?_append (key : Key) (before after : List Step) :
    taker? key (before ++ after) = (taker? key before).or (taker? key after) :=
  List.findSome?_append

theorem taker?_eq_none_iff {key : Key} {steps : List Step} :
    taker? key steps = none ↔ ∀ owner span, .takes key owner span ∉ steps := by
  rw [taker?, List.findSome?_eq_none_iff]
  constructor
  · intro h owner span hm
    simpa [Step.taker?] using h _ hm
  · intro h s hs
    refine Option.eq_none_iff_forall_ne_some.2 fun span hspan => ?_
    obtain ⟨owner, rfl⟩ := Step.taker?_eq_some_iff.1 hspan
    exact h owner span hs

/-- The fault of a step that comes after the steps `before`. -/
def fault? (d : Design) (before : List Step) : Step → Option Defect
  | .takes key owner span => (taker? key before).map (key.taken owner span)
  | .needs inst type span =>
    if d.declares type then none else some (.undeclaredType inst type span)

theorem fault?_eq_some_iff {d : Design} {before : List Step} {s : Step} {e : Defect} :
    d.fault? before s = some e ↔ d.Faulty before s e := by
  constructor
  · intro h
    cases s with
    | takes key owner span =>
      obtain ⟨first, hfirst, rfl⟩ := Option.map_eq_some_iff.1 h
      obtain ⟨earlier, s, later, rfl, hs, hfree⟩ := List.findSome?_eq_some_iff.1 hfirst
      obtain ⟨owner', rfl⟩ := Step.taker?_eq_some_iff.1 hs
      exact .taken rfl (taker?_eq_none_iff.1 (List.findSome?_eq_none_iff.2 hfree))
    | needs inst type span =>
      simp only [fault?] at h
      split at h
      · cases h
      · rename_i hd
        cases h
        exact .undeclared fun c hc hname => hd (declares_iff.2 ⟨c, hc, hname⟩)
  · rintro (⟨rfl, hfree⟩ | h)
    · rename_i key owner owner' span first earlier later
      have hself : taker? key (.takes key owner' first :: later) = some first := by
        simp [taker?, Step.taker?]
      simp only [fault?, taker?_append, taker?_eq_none_iff.2 hfree, Option.none_or, hself,
        Option.map_some]
    · rename_i inst type span
      have hd : ¬ d.declares type = true := by
        rw [declares_iff]
        rintro ⟨c, hc, hname⟩
        exact h c hc hname
      exact if_neg hd

theorem fault?_eq_none_iff {d : Design} {before : List Step} {s : Step} :
    d.fault? before s = none ↔ ∀ e, ¬ d.Faulty before s e := by
  simp only [Option.eq_none_iff_forall_ne_some, ne_eq, fault?_eq_some_iff]

/-- The faults of steps that come after the steps `before`. -/
def faults (d : Design) (before : List Step) : List Step → List Defect
  | [] => []
  | s :: rest => (d.fault? before s).toList ++ d.faults (before ++ [s]) rest

theorem faults_append (d : Design) (before steps more : List Step) :
    d.faults before (steps ++ more) = d.faults before steps ++ d.faults (before ++ steps) more := by
  induction steps generalizing before with
  | nil => simp [faults]
  | cons s rest ih => simp [faults, ih]

/-- The first of the faults is that of the first step at fault. -/
theorem head?_faults {d : Design} {before steps : List Step} {e : Defect} :
    (d.faults before steps).head? = some e ↔
      ∃ k s, steps[k]? = some s ∧ d.fault? (before ++ steps.take k) s = some e ∧
        ∀ j s', j < k → steps[j]? = some s' → d.fault? (before ++ steps.take j) s' = none := by
  induction steps generalizing before with
  | nil => simp [faults]
  | cons s rest ih =>
    cases hs : d.fault? before s with
    | some e' =>
      simp only [faults, hs, Option.toList_some, List.singleton_append, List.head?_cons,
        Option.some.injEq]
      constructor
      · rintro rfl
        exact ⟨0, s, rfl, by simpa using hs, fun j s' hj => absurd hj (Nat.not_lt_zero j)⟩
      · rintro ⟨k, s', hk, hf, hfree⟩
        cases k with
        | zero =>
          cases hk
          simpa [hs] using hf
        | succ k =>
          have hnone := hfree 0 s (Nat.succ_pos k) rfl
          simp [hs] at hnone
    | none =>
      simp only [faults, hs, Option.toList_none, List.nil_append, ih]
      constructor
      · rintro ⟨k, s', hk, hf, hfree⟩
        refine ⟨k + 1, s', hk, by simpa using hf, fun j s'' hj hget => ?_⟩
        cases j with
        | zero =>
          cases hget
          simpa using hs
        | succ j => simpa using hfree j s'' (by omega) hget
      · rintro ⟨k, s', hk, hf, hfree⟩
        cases k with
        | zero =>
          cases hk
          simp [hs] at hf
        | succ k =>
          refine ⟨k, s', hk, by simpa using hf, fun j s'' hj hget => ?_⟩
          simpa using hfree (j + 1) s'' (by omega) hget

/-! ## Keys that are taken -/

theorem taker?_singleton (key key' : Key) (owner : String) (span : Span) :
    taker? key [.takes key' owner span] = if key' = key then some span else none := by
  simp [taker?, Step.taker?]

theorem taker?_map_eq_none {α : Type} {l : List α} {key : Key} {keyOf : α → Key} (owner : String)
    (span : α → Span) (h : ∀ a, keyOf a ≠ key) :
    taker? key (l.map fun a => .takes (keyOf a) owner (span a)) = none := by
  rw [taker?_eq_none_iff]
  intro owner' span' hm
  obtain ⟨a, -, ha⟩ := List.mem_map.1 hm
  cases ha
  exact h a rfl

/-- Of the keys of one kind exactly those of `passed` are taken, each by its first member. -/
def Taken {α κ : Type} [DecidableEq κ] (toKey : κ → Key) (key : α → κ) (span : α → Span)
    (passed : List α) (before : List Step) : Prop :=
  ∀ x, taker? (toKey x) before = (passed.find? (key · = x)).map span

section

variable {α κ : Type} [DecidableEq κ] {toKey : κ → Key} {key : α → κ} {span : α → Span}
  {passed : List α} {before : List Step}

/-- One more member is passed. -/
theorem Taken.snoc (h : Taken toKey key span passed before) (a : α) {steps : List Step}
    (hs : ∀ x, taker? (toKey x) steps = if key a = x then some (span a) else none) :
    Taken toKey key span (passed ++ [a]) (before ++ steps) := by
  intro x
  rw [taker?_append, h, hs, List.find?_append]
  cases passed.find? (key · = x) with
  | some first => rfl
  | none => by_cases hx : key a = x <;> simp [hx]

/-- Declarations that only take keys of one kind are at fault where these clash. -/
theorem faults_takes (d : Design) (h : Taken toKey key span passed before)
    (hinj : Function.Injective toKey) (owner : String) (l : List α) :
    d.faults before (l.map fun a => .takes (toKey (key a)) owner (span a)) =
      (clashes key passed l).map fun x => (toKey (key x.1)).taken owner (span x.1) (span x.2) := by
  induction l generalizing passed before with
  | nil => rfl
  | cons a rest ih =>
    have hself : ∀ x, taker? (toKey x) [.takes (toKey (key a)) owner (span a)] =
        if key a = x then some (span a) else none := fun x => by
      simp only [taker?_singleton, hinj.eq_iff]
    rw [List.map_cons, faults, ih (h.snoc a hself), fault?, h, clashes]
    cases passed.find? (key · = key a) <;> rfl

end

/-! ## Components -/

theorem inst_injective (index : Nat) : Function.Injective (Key.inst index) := fun _ _ h => by
  cases h; rfl

theorem child_injective (parent : Nat) : Function.Injective (Key.child parent) := fun _ _ h => by
  cases h; rfl

theorem port_injective (index : Nat) :
    Function.Injective fun x : String × Direction => Key.port index x.1 x.2 := by
  intro x y h
  cases x; cases y; cases h
  rfl

theorem taker?_component (name : String) (index : Nat) (c : Component) :
    taker? (.component name) (componentSteps index c) = if c.name = name then some c.span else none := by
  rw [componentSteps, taker?_append, taker?_append, taker?_singleton,
    taker?_map_eq_none _ _ nofun, taker?_map_eq_none _ _ nofun]
  simp

/-- A component takes its own name and the keys of its members only. -/
theorem taker?_foreign {key : Key} {index : Nat} {c : Component} (hname : Key.component c.name ≠ key)
    (hports : ∀ name direction, Key.port index name direction ≠ key)
    (hinsts : ∀ name, Key.inst index name ≠ key) : taker? key (componentSteps index c) = none := by
  have hp : taker? key (c.ports.map fun p => .takes (.port index p.name p.direction) c.name p.span) =
      none := taker?_map_eq_none _ _ fun p => hports p.name p.direction
  have hi : taker? key (c.instances.map fun i => .takes (.inst index i.name) c.name i.span) = none :=
    taker?_map_eq_none _ _ fun i => hinsts i.name
  rw [componentSteps, taker?_append, taker?_append, taker?_singleton, if_neg hname, hp, hi]
  rfl

theorem taker?_child_componentsSteps (parent : Nat) (name : String) (index : Nat)
    (cs : List Component) : taker? (.child parent name) (componentsSteps index cs) = none := by
  induction cs generalizing index with
  | nil => rfl
  | cons c rest ih =>
    have hc : taker? (.child parent name) (componentSteps index c) = none :=
      taker?_foreign (by simp) (by simp) (by simp)
    rw [componentsSteps, taker?_append, ih, hc]
    rfl

/-- The faults of a component are the clash of its name and those of its members. -/
theorem faults_componentSteps (d : Design) {passed : List Component} {before : List Step} {index : Nat}
    (hnames : Taken Key.component Component.name Component.span passed before)
    (hports : ∀ name direction, taker? (.port index name direction) before = none)
    (hinsts : ∀ name, taker? (.inst index name) before = none) (c : Component) :
    d.faults before (componentSteps index c) =
      ((passed.find? (·.name = c.name)).map fun first =>
        Defect.duplicateComponent c.name c.span first.span).toList ++ memberDefects c := by
  have hp : Taken (fun x : String × Direction => Key.port index x.1 x.2)
      (fun p : Port => (p.name, p.direction)) Port.span []
      (before ++ [.takes (.component c.name) "" c.span]) := fun x => by
    rw [taker?_append, hports, taker?_singleton, if_neg nofun]
    rfl
  have hi : Taken (Key.inst index) Instance.name Instance.span []
      (before ++ ([.takes (.component c.name) "" c.span] ++
        c.ports.map fun p => .takes (.port index p.name p.direction) c.name p.span)) := fun x => by
    rw [taker?_append, taker?_append, hinsts, taker?_singleton, if_neg nofun,
      taker?_map_eq_none _ _ nofun]
    rfl
  rw [componentSteps, faults_append, faults_append, faults_takes d hp (port_injective index) c.name,
    faults_takes d hi (inst_injective index) c.name]
  simp only [faults, fault?, hnames c.name, Option.map_map, List.append_nil, List.append_assoc]
  rfl

/-- The faults of components that follow the components `passed`. -/
theorem faults_componentsSteps (d : Design) {passed : List Component} {before : List Step}
    {index : Nat} (hnames : Taken Key.component Component.name Component.span passed before)
    (hports : ∀ j name direction, index ≤ j → taker? (.port j name direction) before = none)
    (hinsts : ∀ j name, index ≤ j → taker? (.inst j name) before = none) (cs : List Component) :
    d.faults before (componentsSteps index cs) = componentDefects passed cs := by
  induction cs generalizing passed before index with
  | nil => rfl
  | cons c rest ih =>
    rw [componentsSteps, faults_append, faults_componentSteps d hnames
      (fun name direction => hports index name direction (Nat.le_refl _))
      (fun name => hinsts index name (Nat.le_refl _)), componentDefects, ih]
    · exact hnames.snoc c fun name => taker?_component name index c
    · intro j name direction hj
      have hne : index ≠ j := by omega
      have hother : taker? (.port j name direction) (componentSteps index c) = none :=
        taker?_foreign (by simp) (by simp [hne]) (by simp)
      rw [taker?_append, hports j name direction (by omega), hother]
      rfl
    · intro j name hj
      have hne : index ≠ j := by omega
      have hother : taker? (.inst j name) (componentSteps index c) = none :=
        taker?_foreign (by simp) (by simp) (by simp [hne])
      rw [taker?_append, hinsts j name (by omega), hother]
      rfl

/-! ## Trees -/

mutual

/-- The nodes of a tree take names below themselves only. -/
theorem taker?_treeSteps {parent : Nat} (name : String) : ∀ {index : Nat} (t : Expansion),
    parent < index ∨ index + t.size ≤ parent → taker? (.child parent name) (treeSteps index t) = none
  | index, .node name' type span connectors children, h => by
    rw [Expansion.size] at h
    rw [treeSteps, ← List.singleton_append, taker?_append,
      taker?_childSteps name name' children (by omega) (by omega)]
    rfl

theorem taker?_childSteps {parent : Nat} (name : String) : ∀ {parent' index : Nat} (owner : String)
    (ts : List Expansion), parent ≠ parent' → parent < index ∨ index + Expansion.sizeAll ts ≤ parent →
    taker? (.child parent name) (childSteps parent' owner index ts) = none
  | _, _, _, [], _, _ => rfl
  | parent', index, owner, t :: rest, hne, h => by
    rw [Expansion.sizeAll] at h
    have hself : Key.child parent' t.name ≠ .child parent name := fun e => by cases e; exact hne rfl
    rw [childSteps, ← List.singleton_append, taker?_append, taker?_append, taker?_singleton,
      if_neg hself, taker?_treeSteps name t (by omega), taker?_childSteps name owner rest hne (by omega)]
    rfl

end

mutual

/-- The faults of a tree are its defects, where no name is taken below the nodes to come. -/
theorem faults_treeSteps (d : Design) : ∀ {before : List Step} {index : Nat} (t : Expansion),
    (∀ p name, index ≤ p → taker? (.child p name) before = none) →
    d.faults before (treeSteps index t) = treeDefects d.declares t
  | before, index, .node name type span connectors children, hfree => by
    have hbelow : ∀ p name', index ≤ p →
        taker? (.child p name') (before ++ [.needs name type span]) = none := fun p name' hp => by
      rw [taker?_append, hfree p name' hp]
      rfl
    have hnames : Taken (Key.child index) Prod.fst Prod.snd ([] : List (String × Span))
        (before ++ [.needs name type span]) := fun x => hbelow index x (Nat.le_refl _)
    rw [treeSteps, faults, treeDefects, faults_childSteps d name children (Nat.lt_succ_self _) hnames
      (fun p x hp => hbelow p x (by omega)), fault?]
    cases d.declares type <;> rfl

/-- The faults of the children of a node, after those that have the names and places `passed`. -/
theorem faults_childSteps (d : Design) (owner : String) : ∀ {before : List Step} {parent index : Nat}
    {passed : List (String × Span)} (ts : List Expansion), parent < index →
    Taken (Key.child parent) Prod.fst Prod.snd passed before →
    (∀ p name, index ≤ p → taker? (.child p name) before = none) →
    d.faults before (childSteps parent owner index ts) = childDefects d.declares owner passed ts
  | _, _, _, _, [], _, _, _ => rfl
  | before, parent, index, passed, t :: rest, hlt, hnames, hfree => by
    have hself : ∀ x, taker? (.child parent x) ([.takes (.child parent t.name) owner t.span] ++
        treeSteps index t) = if t.name = x then some t.span else none := fun x => by
      rw [taker?_append, taker?_singleton, taker?_treeSteps x t (.inl hlt), Option.or_none]
      simp only [(child_injective parent).eq_iff]
    have hother : ∀ p x, index ≤ p →
        taker? (.child p x) (before ++ [.takes (.child parent t.name) owner t.span]) = none :=
      fun p x hp => by
        rw [taker?_append, hfree p x hp, taker?_singleton, if_neg fun e => by cases e; omega]
        rfl
    have hbehind : ∀ p x, index + t.size ≤ p →
        taker? (.child p x) (before ++ ([.takes (.child parent t.name) owner t.span] ++
          treeSteps index t)) = none := fun p x hp => by
      rw [← List.append_assoc, taker?_append, hother p x (by omega), taker?_treeSteps x t (.inr hp)]
      rfl
    rw [childSteps, faults, faults_append, childDefects, faults_treeSteps d t hother,
      List.append_assoc before, faults_childSteps d owner rest (by omega)
      (hnames.snoc (t.name, t.span) hself) hbehind, fault?, hnames, Option.map_map, List.append_assoc]
    rfl

end

theorem faults_treesSteps (d : Design) {before : List Step} {index : Nat} (ts : List Expansion)
    (hfree : ∀ p name, index ≤ p → taker? (.child p name) before = none) :
    d.faults before (treesSteps index ts) = ts.flatMap (treeDefects d.declares) := by
  induction ts generalizing before index with
  | nil => rfl
  | cons t rest ih =>
    rw [treesSteps, faults_append, faults_treeSteps d t hfree, ih fun p name hp => ?_,
      List.flatMap_cons]
    rw [taker?_append, hfree p name (by omega), taker?_treeSteps name t (.inr hp)]
    rfl

/-! ## The first defect -/

/-- The defects of a design are the faults of its walk. -/
theorem defects_eq_faults (d : Design) : d.defects = d.faults [] d.walk := by
  have hnames : Taken Key.component Component.name Component.span [] [] := fun _ => rfl
  rw [walk, faults_append, faults_componentsSteps d hnames (fun _ _ _ _ => rfl) (fun _ _ _ => rfl),
    faults_treesSteps d d.expansions fun p name _ => ?_, defects]
  exact taker?_child_componentsSteps p name 0 d.components

theorem firstDefect_iff {d : Design} {e : Defect} : d.defects.head? = some e ↔ d.FirstDefect e := by
  rw [defects_eq_faults, head?_faults, FirstDefect]
  simp only [List.nil_append, fault?_eq_none_iff, fault?_eq_some_iff]

theorem build_eq_error_iff {d : Design} {e : Defect} : d.build = .error e ↔ d.FirstDefect e := by
  rw [← firstDefect_iff, build]
  cases d.defects with
  | nil => simp
  | cons defect rest => simp

/-- A design has a model exactly when it is sound, whatever its connectors, the types of its instances
and the names of its roots; otherwise its first defect is told. -/
theorem build_outcome (d : Design) :
    ((∃ m, d.build = .ok m) ↔ d.Sound) ∧ ((∃ m, d.outline.build = .ok m) ↔ ∃ m, d.build = .ok m) ∧
      ∀ e, d.build = .error e ↔ d.FirstDefect e := by
  refine ⟨exists_build_iff d, ?_, fun e => build_eq_error_iff⟩
  rw [exists_build_iff, exists_build_iff, sound_outline_iff]

/-- The type of `x`, inside the first `a`, is missed before the second `a` clashes, whose own type is
not declared either. -/
example : build {
    components := [{ name := "Gain" }]
    expansions := [.node "r" "Gain" {} [] [
      .node "a" "Gain" { start := 1 } [] [.node "x" "None" {} [] []],
      .node "a" "None" { start := 2 } [] []]] } = .error (.undeclaredType "x" "None" {}) := rfl

end Design

end Interconnect
