/-
Full names. From any node the parents lead up to the root of its tree, and each of them stands before its
child, so the way up ends; the names on it, from the root down, are the full name of the node. In a loaded
model no name holds a dot, so that a full name can be taken apart again, and siblings have names of their
own; so two nodes of one full name can only be in trees whose roots share a name.
-/
import Interconnect.Proofs.Expansion.Preorder
import Interconnect.Proofs.Manifest.Described

namespace Interconnect

namespace Model

/-- The names on the way from the root of a tree down to a node. -/
inductive Path (m : Model) (root : Nat) : Nat → List String → Prop where
  | root {e : Expanded} (he : m.expanded[root]? = some e) (hp : e.parent = none) :
    m.Path root root [e.name]
  | child {p j : Nat} {names : List String} {e : Expanded} (h : m.Path root p names)
    (he : m.expanded[j]? = some e) (hp : e.parent = some p) : m.Path root j (names ++ [e.name])

variable {m : Model}

/-! ## The way up -/

theorem fullName?_eq_none_iff (hplaced : Expanded.Placed none 0 m.expanded) (index : Nat) :
    m.fullName? index = none ↔ m.expanded.length ≤ index := by
  constructor
  · intro hnone
    by_contra hlt
    have hsome := fullName?_isSome hplaced index (by omega)
    rw [hnone] at hsome
    cases hsome
  · intro hle
    rw [fullName?, List.getElem?_eq_none hle]

/-- The parent of a node stands before it. -/
theorem parent_lt (hplaced : Expanded.Placed none 0 m.expanded) {j p : Nat} {e : Expanded}
    (he : m.expanded[j]? = some e) (hp : e.parent = some p) : p < j := by
  rcases (hplaced j e he).parent with hnone | ⟨q, hq, -, hlt⟩
  · cases hp.symm.trans hnone
  · cases hp.symm.trans hq
    omega

theorem fullName?_of_root {j : Nat} {e : Expanded} (he : m.expanded[j]? = some e)
    (hp : e.parent = none) : m.fullName? j = some e.name := by
  rw [fullName?, he]
  simp [hp]

theorem fullName?_of_child {j p : Nat} {e : Expanded} (he : m.expanded[j]? = some e)
    (hp : e.parent = some p) (hlt : p < j) :
    m.fullName? j = (m.fullName? p).map (PortRef.qualify · e.name) := by
  rw [fullName?, he]
  simp [hp, hlt]

/-- The way up from a node ends at a root. -/
theorem exists_path (hplaced : Expanded.Placed none 0 m.expanded) (index : Nat)
    (hi : index < m.expanded.length) : ∃ root names, m.Path root index names := by
  induction index using Nat.strong_induction_on with
  | _ index ih =>
    obtain ⟨e, he⟩ : ∃ e, m.expanded[index]? = some e := ⟨_, List.getElem?_eq_getElem hi⟩
    cases hp : e.parent with
    | none => exact ⟨index, _, .root he hp⟩
    | some p =>
      have hlt := parent_lt hplaced he hp
      obtain ⟨root, names, hpath⟩ := ih p hlt (by omega)
      exact ⟨root, _, .child hpath he hp⟩

namespace Path

variable {root root' j : Nat} {names names' : List String}

theorem ne_nil (h : m.Path root j names) : names ≠ [] := by
  cases h <;> simp

/-- There is one way up only. -/
theorem unique (h : m.Path root j names) (h' : m.Path root' j names') :
    root = root' ∧ names = names' := by
  induction h generalizing names' with
  | root he hp =>
    cases h' with
    | root he' hp' =>
      cases he.symm.trans he'
      exact ⟨rfl, rfl⟩
    | child _ he' hp' =>
      cases he.symm.trans he'
      cases hp.symm.trans hp'
  | child _ he hp ih =>
    cases h' with
    | root he' hp' =>
      cases he.symm.trans he'
      cases hp.symm.trans hp'
    | child h' he' hp' =>
      cases he.symm.trans he'
      cases hp.symm.trans hp'
      obtain ⟨hroot, hnames⟩ := ih h'
      exact ⟨hroot, by rw [hnames]⟩

/-- The names on the way, joined by dots, are the full name. -/
theorem fullName? (hplaced : Expanded.Placed none 0 m.expanded) (h : m.Path root j names) :
    m.fullName? j = some (".".intercalate names) := by
  induction h with
  | root he hp => rw [fullName?_of_root he hp, String.intercalate_singleton]
  | child h he hp ih =>
    rw [fullName?_of_child he hp (parent_lt hplaced he hp), ih, Option.map_some,
      String.intercalate_append_of_ne_nil h.ne_nil (List.cons_ne_nil _ _),
      String.intercalate_singleton, PortRef.qualify]

/-- The way starts with the name of the root. -/
theorem exists_root (h : m.Path root j names) :
    ∃ e, m.expanded[root]? = some e ∧ names.head? = some e.name := by
  induction h with
  | root he hp => exact ⟨_, he, rfl⟩
  | child h he hp ih =>
    obtain ⟨e, hroot, hhead⟩ := ih
    exact ⟨e, hroot, by simp [List.head?_append, hhead]⟩

theorem segments (hnamed : ∀ e ∈ m.expanded, IsSegment e.name) (h : m.Path root j names) :
    ∀ name ∈ names, IsSegment name := by
  induction h with
  | root he hp =>
    intro name hname
    rw [List.mem_singleton.1 hname]
    exact hnamed _ (List.mem_of_getElem? he)
  | child h he hp ih =>
    intro name hname
    rcases List.mem_append.1 hname with hname | hname
    · exact ih name hname
    · rw [List.mem_singleton.1 hname]
      exact hnamed _ (List.mem_of_getElem? he)

end Path

/-! ## Taking names apart -/

/-- Names without dots can be told from what they are joined to. -/
theorem intercalate_injective {names names' : List String} (h : ∀ name ∈ names, IsSegment name)
    (h' : ∀ name ∈ names', IsSegment name) (hne : names ≠ []) (hne' : names' ≠ [])
    (heq : ".".intercalate names = ".".intercalate names') : names = names' := by
  have hsplit : ∀ ns : List String, (∀ n ∈ ns, IsSegment n) → ns ≠ [] →
      (".".intercalate ns).toList.splitOn '.' = ns.map String.toList := by
    intro ns hseg hnil
    rw [String.toList_intercalate]
    refine List.splitOn_intercalate '.' (fun l hl => ?_) (by simpa using hnil)
    obtain ⟨n, hn, rfl⟩ := List.mem_map.1 hl
    exact (hseg n hn).dotless
  have hmap : names.map String.toList = names'.map String.toList := by
    rw [← hsplit names h hne, heq, hsplit names' h' hne']
  exact List.map_injective_iff.2 (fun _ _ => String.toList_inj.1) hmap

/-! ## Siblings -/

/-- A node keeps its children apart by their names. -/
theorem eq_of_listed (hdistinct : ∀ e ∈ m.expanded, e.Distinct m.expanded) {p j k : Nat}
    {e f : Expanded} (hj : m.Lists p j) (hk : m.Lists p k) (he : m.expanded[j]? = some e)
    (hf : m.expanded[k]? = some f) (hname : e.name = f.name) : j = k := by
  obtain ⟨g, hg, hj⟩ := hj
  rw [lists_iff hg] at hk
  have hmem : ∀ {i : Nat} {x : Expanded}, i ∈ g.children → m.expanded[i]? = some x →
      (i, x) ∈ g.children.filterMap fun index => (m.expanded[index]?).map (index, ·) :=
    fun hi hx => List.mem_filterMap.2 ⟨_, hi, by rw [hx, Option.map_some]⟩
  have hnodup := (hdistinct g (List.mem_of_getElem? hg)).children
  exact congrArg Prod.fst
    (List.inj_on_of_nodup_map hnodup (hmem hj he) (hmem hk hf) hname)

/-- From a given root the same names lead to the same node. -/
theorem Path.node_unique (hdistinct : ∀ e ∈ m.expanded, e.Distinct m.expanded)
    (hlisted : ∀ j p e, m.expanded[j]? = some e → e.parent = some p → m.Lists p j) {root j k : Nat}
    {names : List String} (h : m.Path root j names) (h' : m.Path root k names) : j = k := by
  induction h generalizing k with
  | root he hp =>
    generalize hnames : [_] = names' at h'
    cases h' with
    | root he' hp' => rfl
    | child h' he' hp' =>
      have hlength := congrArg List.length hnames
      have hpos := List.length_pos_iff.2 h'.ne_nil
      simp only [List.length_append, List.length_singleton] at hlength
      omega
  | child h he hp ih =>
    generalize hnames : _ ++ [_] = names' at h'
    cases h' with
    | root he' hp' =>
      have hlength := congrArg List.length hnames
      have hpos := List.length_pos_iff.2 h.ne_nil
      simp only [List.length_append, List.length_singleton] at hlength
      omega
    | child h' he' hp' =>
      obtain ⟨hinit, hlast⟩ := List.append_inj' hnames rfl
      subst hinit
      cases ih h'
      exact eq_of_listed hdistinct (hlisted _ _ _ he hp) (hlisted _ _ _ he' hp') he he'
        (List.cons.inj hlast).1

end Model

/-! ## Built and loaded models -/

namespace Design

/-- A node is among the children of its parent. -/
theorem lists_of_parent {d : Design} {m : Model} (h : d.build = .ok m) {j p : Nat} {e : Expanded}
    (he : m.expanded[j]? = some e) (hp : e.parent = some p) : m.Lists p j := by
  obtain ⟨-, rfl⟩ := build_eq_ok_iff.1 h
  have hm : d.assemble.expanded =
    Expansion.flattenAll d.portsOf none 0 d.componentConstants d.expansions := rfl
  rcases Expansion.root_or_child hm he with ⟨-, hnone⟩ | ⟨q, hq, hsome⟩
  · cases hp.symm.trans hnone
  · cases hp.symm.trans hsome
    exact hq

end Design

theorem Manifest.segments_of_load {text : String} {m : Model} (h : load text = .ok m) :
    ∀ e ∈ m.expanded, IsSegment e.name := by
  obtain ⟨d, hf, hb⟩ := load_eq_ok h
  obtain ⟨-, rfl⟩ := Design.build_eq_ok_iff.1 hb
  exact fun e he => (d.wellNamed_nodes hf e he).name

namespace Design

/-- Every node has a full name, which the one way up to the root of its tree gives: it steps to an earlier
node each time. In a loaded model two nodes of one full name are in different trees, whose roots have the
same name. -/
theorem fullName_of_build {d : Design} {m : Model} (h : d.build = .ok m) :
    (∀ index, m.fullName? index = none ↔ m.expanded.length ≤ index) ∧
    (∀ (index p : Nat) (e : Expanded), m.expanded[index]? = some e → e.parent = some p →
      p < index ∧ m.fullName? index = (m.fullName? p).map (PortRef.qualify · e.name)) ∧
    (∀ index, index < m.expanded.length →
      ∃! path : Nat × List String, m.Path path.1 index path.2) ∧
    (∀ (index root : Nat) (names : List String), m.Path root index names →
      m.fullName? index = some (".".intercalate names)) ∧
    ∀ text, Manifest.load text = .ok m → ∀ (j k : Nat) (name : String), j ≠ k →
      m.fullName? j = some name → m.fullName? k = some name →
        ∃ r s e f names, m.Path r j names ∧ m.Path s k names ∧ r ≠ s ∧
          m.expanded[r]? = some e ∧ m.expanded[s]? = some f ∧ e.name = f.name := by
  have hplaced := (wellFormed_of_build h).placed
  refine ⟨Model.fullName?_eq_none_iff hplaced, fun index p e he hp => ?_, fun index hi => ?_,
    fun index root names hpath => hpath.fullName? hplaced, ?_⟩
  · have hlt := Model.parent_lt hplaced he hp
    exact ⟨hlt, Model.fullName?_of_child he hp hlt⟩
  · obtain ⟨root, names, hpath⟩ := Model.exists_path hplaced index hi
    refine ⟨(root, names), hpath, fun path hpath' => ?_⟩
    obtain ⟨hroot, hnames⟩ := hpath'.unique hpath
    exact Prod.ext hroot hnames
  · intro text hload j k name hjk hj hk
    have hinside : ∀ index, m.fullName? index = some name → index < m.expanded.length := by
      intro index hindex
      by_contra hout
      cases hindex.symm.trans ((Model.fullName?_eq_none_iff hplaced index).2 (by omega))
    obtain ⟨r, names, hr⟩ := Model.exists_path hplaced j (hinside j hj)
    obtain ⟨s, names', hs⟩ := Model.exists_path hplaced k (hinside k hk)
    have hnamed := Manifest.segments_of_load hload
    have hjoined : ".".intercalate names = ".".intercalate names' := by
      have := (hr.fullName? hplaced).symm.trans (hj.trans (hk.symm.trans (hs.fullName? hplaced)))
      exact Option.some.inj this
    have hnames := Model.intercalate_injective (hr.segments hnamed) (hs.segments hnamed) hr.ne_nil
      hs.ne_nil hjoined
    subst hnames
    obtain ⟨e, he, hehead⟩ := hr.exists_root
    obtain ⟨f, hf, hfhead⟩ := hs.exists_root
    refine ⟨r, s, e, f, names, hr, hs, fun hrs => hjk ?_, he, hf, ?_⟩
    · subst hrs
      exact hr.node_unique (distinct_expanded h) (fun _ _ _ => lists_of_parent h) hs
    · exact Option.some.inj (hehead.symm.trans hfhead)

/-- Two expanded instances of one name, each with an instance of one name inside. -/
def twinManifest : String :=
  "component=[\x7bname='a'\x7d,\x7bname='b'\x7d]\n" ++
    "expansion=[\x7bname='e',type='b',instance=[\x7bname='s',type='a'\x7d]\x7d," ++
    "\x7bname='e',type='b',instance=[\x7bname='s',type='a'\x7d]\x7d]"

theorem fullName_of_build_twins : ∃ (d : Design) (m : Model), d.build = .ok m ∧
    Manifest.load twinManifest = .ok m ∧ m.fullName? 1 = some "e.s" ∧ m.fullName? 3 = some "e.s" ∧
    (m.fullName? 4 = none ↔ m.expanded.length ≤ 4) ∧
    ∃ r s e f names, m.Path r 1 names ∧ m.Path s 3 names ∧ r ≠ s ∧
      m.expanded[r]? = some e ∧ m.expanded[s]? = some f ∧ e.name = f.name := by
  have hloaded : (Manifest.load twinManifest).toOption.map
      (fun m => (m.fullName? 1, m.fullName? 3)) = some (some "e.s", some "e.s") := by decide +kernel
  obtain ⟨m, hm, hnames⟩ := Manifest.exists_ok hloaded
  obtain ⟨hone, hthree⟩ := Prod.mk.inj hnames
  obtain ⟨d, -, hb⟩ := Manifest.load_eq_ok hm
  obtain ⟨hnone, -, -, -, htwins⟩ := fullName_of_build hb
  exact ⟨d.design, m, hb, hm, hone, hthree, hnone 4, htwins _ hm 1 3 "e.s" (by decide) hone hthree⟩

end Design

end Interconnect
