/-
What references denote. A reference is to the boundary of what its scope belongs to, if it is bare or
qualified with the name of that, and has a port there; or else to a port of the instance or the child
that the qualifier names. In a model that is built a reference is resolved to a port exactly when it
denotes that port, and it fails for its form or for its scope exactly when these are at fault.
-/
import Interconnect.Proofs.Design.WellFormed
import Interconnect.Proofs.Expansion.Children
import Interconnect.Proofs.Resolution

namespace Interconnect

/-- The port that a name stands for: the one of the given direction, or, where none is given, the
incoming one before the outgoing one. -/
inductive Port.Named (ports : List Port) (name : String) : Option Direction → Port → Prop
  | directed {direction : Direction} {p : Port} (hp : p ∈ ports) (hn : p.name = name)
    (hd : p.direction = direction) : Named ports name (some direction) p
  | incoming {p : Port} (hp : p ∈ ports) (hn : p.name = name) (hd : p.direction = .incoming) :
    Named ports name none p
  | outgoing {p : Port} (hp : p ∈ ports) (hn : p.name = name) (hd : p.direction = .outgoing)
    (hfree : ∀ q ∈ ports, q.name = name → q.direction ≠ .incoming) : Named ports name none p

/-- The reference may be to the boundary: it is bare, or qualified with the name of the symbol. -/
def Spanning.Owns (s : Spanning) (r : PortRef) : Prop := r.instance? = none ∨ r.instance? = some s.name

instance (s : Spanning) (r : PortRef) : Decidable (s.Owns r) := inferInstanceAs (Decidable (_ ∨ _))

namespace Model

/-- The ports of what a qualifier names inside a symbol: in a component an instance, which has the ports
of its type, if that is declared; in an expanded instance one of its children. -/
inductive Inside (m : Model) : Spanning → String → List Port → Prop
  | declared {c type : Component} {i : Instance} {inst : String} (hi : i ∈ c.instances)
    (hn : i.name = inst) (ht : type ∈ m.components) (htype : type.name = i.type) :
    Inside m (.component c) inst type.ports
  | child {e f : Expanded} {index : Nat} {inst : String} (hi : index ∈ e.children)
    (hf : m.expanded[index]? = some f) (hn : f.name = inst) : Inside m (.expanded e) inst f.ports

/-- What a reference denotes where `s` is what its scope belongs to. -/
inductive Denotes (m : Model) (s : Spanning) (r : PortRef) (mode : Option Endpoint) (p : Port) : Prop
  | boundary (own : s.Owns r) (hp : Port.Named s.ports r.port (mode.map Endpoint.boundary) p)
  | subcomponent {inst : String} {ports : List Port}
    (hfree : ¬ ∃ q, s.Owns r ∧ Port.Named s.ports r.port (mode.map Endpoint.boundary) q)
    (hr : r.instance? = some inst) (hin : m.Inside s inst ports)
    (hp : Port.Named ports r.port (mode.map Endpoint.subcomponent) p)

end Model

/-! ## Ports of a name -/

namespace Port

variable {ports : List Port} {name : String} {p : Port}

theorem findDirected_eq_some_iff (h : (ports.map fun p => (p.name, p.direction)).Nodup)
    {direction : Direction} : findDirected ports name direction = some p ↔
      p ∈ ports ∧ p.name = name ∧ p.direction = direction := by
  refine ⟨findDirected_eq_some, ?_⟩
  rintro ⟨hp, rfl, rfl⟩
  exact findDirected_eq h hp

/-- Looking for a name finds the port that it stands for. -/
theorem find_eq_some_iff (h : (ports.map fun p => (p.name, p.direction)).Nodup)
    {direction : Option Direction} : find ports name direction = some p ↔
      Named ports name direction p := by
  cases direction with
  | some direction =>
    rw [find, findDirected_eq_some_iff h]
    constructor
    · rintro ⟨hp, hn, hd⟩
      exact .directed hp hn hd
    · rintro ⟨hp, hn, hd⟩
      exact ⟨hp, hn, hd⟩
  | none =>
    have hfree : findDirected ports name .incoming = none ↔
        ∀ q ∈ ports, q.name = name → q.direction ≠ .incoming := by
      simp [findDirected]
    rw [find, findNamed, Option.or_eq_some_iff, findDirected_eq_some_iff h, hfree,
      findDirected_eq_some_iff h]
    constructor
    · rintro (⟨hp, hn, hd⟩ | ⟨hfree, hp, hn, hd⟩)
      · exact .incoming hp hn hd
      · exact .outgoing hp hn hd hfree
    · rintro (_ | ⟨hp, hn, hd⟩ | ⟨hp, hn, hd, hfree⟩)
      · exact .inl ⟨hp, hn, hd⟩
      · exact .inr ⟨hfree, hp, hn, hd⟩

end Port

/-! ## Places to look -/

namespace Model

/-- The port of the boundary, where a reference may be to it. -/
def onBoundary? (s : Spanning) (r : PortRef) (mode : Option Endpoint) : Option Port :=
  if r.instance?.all (· = s.name) then Port.find s.ports r.port (mode.map Endpoint.boundary) else none

/-- The ports of what a qualifier names. -/
def inside? (m : Model) (s : Spanning) (inst : String) : Option (List Port) :=
  match s with
  | .component c => (c.findInstance inst).bind fun i => (m.find? i.type).map Component.ports
  | .expanded e => (m.findChild? e inst).map fun found => found.2.ports

/-- The port of an instance or a child, where a reference is qualified. -/
def onSubcomponent? (m : Model) (s : Spanning) (r : PortRef) (mode : Option Endpoint) : Option Port :=
  r.instance?.bind fun inst => (m.inside? s inst).bind fun ports =>
    Port.find ports r.port (mode.map Endpoint.subcomponent)

theorem toOption_portIn (ports : List Port) (raw name : String) (direction : Option Direction)
    (owner : String) :
    (portIn ports raw name direction owner).toOption = Port.find ports name direction := by
  cases hf : Port.find ports name direction with
  | some p => rw [portIn_eq_ok_iff.2 hf]; rfl
  | none =>
    obtain ⟨e, he⟩ : ∃ e, portIn ports raw name direction owner = .error e :=
      portIn_of_find_eq_none hf
    rw [he]
    rfl

theorem toOption_boundaryPort (s : Spanning) (raw : String) (r : PortRef) (mode : Option Endpoint) :
    (boundaryPort s raw r mode).bind Except.toOption = onBoundary? s r mode := by
  unfold boundaryPort onBoundary?
  split
  · exact toOption_portIn ..
  · rfl

theorem toOption_declaredPort (m : Model) (c : Component) (raw : String) (r : PortRef)
    (mode : Option Endpoint) :
    (m.declaredPort (.component c) raw r mode).bind Except.toOption =
      m.onSubcomponent? (.component c) r mode := by
  simp only [declaredPort, onSubcomponent?, inside?]
  cases r.instance? with
  | none => rfl
  | some inst =>
    dsimp only [Option.bind_some]
    cases c.findInstance inst with
    | none => rfl
    | some i =>
      dsimp only [Option.bind_some]
      cases m.find? i.type with
      | none => rfl
      | some type => exact toOption_portIn ..

/-- In an expanded instance a bare reference is looked for on the boundary once more. -/
theorem toOption_expandedPort (m : Model) (e : Expanded) (raw : String) (r : PortRef)
    (mode : Option Endpoint) :
    (onBoundary? (.expanded e) r mode).or
        ((m.expandedPort (.expanded e) raw r mode).bind Except.toOption) =
      (onBoundary? (.expanded e) r mode).or (m.onSubcomponent? (.expanded e) r mode) := by
  simp only [expandedPort, onSubcomponent?, inside?, onBoundary?]
  cases r.instance? with
  | none =>
    have hagain : (some (portIn e.ports raw r.port (mode.map Endpoint.boundary) e.name)).bind
        Except.toOption = Port.find e.ports r.port (mode.map Endpoint.boundary) := toOption_portIn ..
    exact (congrArg _ hagain).trans (Option.or_self.trans Option.or_none.symm)
  | some inst =>
    congr 1
    dsimp only [Option.bind_some]
    cases m.findChild? e inst with
    | none => rfl
    | some found => exact toOption_portIn ..

/-! ## Resolving -/

/-- Of the places that apply, the first success is what they come to. -/
theorem toOption_settle {ε α : Type} (places : List (Option (Except ε α))) :
    (settle (places.filterMap id)).bind Except.toOption =
      places.findSome? fun x => x.bind Except.toOption := by
  induction places with
  | nil => rfl
  | cons x rest ih =>
    rcases x with _ | (e | a)
    · rw [List.filterMap_cons_none rfl, ih]
      rfl
    · show (settle (.error e :: rest.filterMap id)).bind Except.toOption = rest.findSome? _
      rw [settle, ← ih]
      rcases settle (rest.filterMap id) with _ | (e' | a) <;> rfl
    · rfl

/-- A well-formed reference is resolved to the port of the boundary, if there is one, and else to that
of an instance or a child. -/
theorem toOption_lookup {m : Model} {raw : String} {scope : Scope} {s : Spanning} {r : PortRef}
    (hs : m.spanning? scope = some s) (hr : PortRef.parse raw = .ok r) (mode : Option Endpoint) :
    (m.lookup raw scope mode).toOption = (onBoundary? s r mode).or (m.onSubcomponent? s r mode) := by
  have hgetD : ∀ (x : Option (Except ResolutionError Port)) (e : ResolutionError),
      (x.getD (.error e)).toOption = x.bind Except.toOption := fun x e => by cases x <;> rfl
  have hor : ∀ (x y z : Option (Except ResolutionError Port)),
      [x, y, z].findSome? (fun x => x.bind Except.toOption) = (x.bind Except.toOption).or
        ((y.bind Except.toOption).or (z.bind Except.toOption)) := fun x y z => by
    rcases x with _ | (_ | _) <;> rcases y with _ | (_ | _) <;> rcases z with _ | (_ | _) <;> rfl
  simp only [lookup, hs, hr]
  rw [hgetD, toOption_settle, hor, toOption_boundaryPort]
  cases s with
  | component c => exact congrArg _ (toOption_declaredPort m c raw r mode)
  | expanded e => exact (congrArg _ Option.or_none).trans (toOption_expandedPort m e raw r mode)

/-! ## Denotation -/

/-- Names tell the ports of the symbol apart, and what qualifiers name inside it. -/
structure Separates (m : Model) (s : Spanning) : Prop where
  ports : (s.ports.map fun p => (p.name, p.direction)).Nodup
  inside : ∀ inst ports, m.inside? s inst = some ports ↔ m.Inside s inst ports
  insidePorts : ∀ inst ports, m.Inside s inst ports →
    (ports.map fun p => (p.name, p.direction)).Nodup

/-- What is built keeps the names of every scope apart. -/
theorem separates_of_build {d : Design} {m : Model} (h : d.build = .ok m) {scope : Scope}
    {s : Spanning} (hs : m.spanning? scope = some s) : m.Separates s := by
  have hm := Design.wellFormed_of_build h
  have he := Design.distinct_expanded h
  cases scope with
  | component index =>
    obtain ⟨c, hc, rfl⟩ := Option.map_eq_some_iff.1 hs
    have hcd := hm.distinct c (List.mem_of_getElem? hc)
    refine ⟨hcd.ports, fun inst ports => ?_, ?_⟩
    · simp only [inside?, Option.bind_eq_some_iff, Option.map_eq_some_iff]
      constructor
      · rintro ⟨i, hi, type, ht, rfl⟩
        have hn : i.name = inst := by simpa using List.find?_some hi
        have htn : type.name = i.type := by simpa using List.find?_some ht
        exact .declared (List.mem_of_find?_eq_some hi) hn (List.mem_of_find?_eq_some ht) htn
      · rintro ⟨hi, rfl, ht, htype⟩
        exact ⟨_, hcd.findInstance_eq hi, _, htype ▸ find?_key_eq hm.names ht, rfl⟩
    · rintro inst ports ⟨-, -, ht, -⟩
      exact (hm.distinct _ ht).ports
  | expanded index =>
    obtain ⟨e, hi, rfl⟩ := Option.map_eq_some_iff.1 hs
    have hed := he e (List.mem_of_getElem? hi)
    refine ⟨hed.ports, fun inst ports => ?_, ?_⟩
    · simp only [inside?, Option.map_eq_some_iff]
      constructor
      · rintro ⟨⟨j, f⟩, hf, rfl⟩
        have hn : f.name = inst := by simpa using List.find?_some hf
        obtain ⟨k, hk, hkf⟩ := List.mem_filterMap.1 (List.mem_of_find?_eq_some hf)
        obtain ⟨f', hf', hpair⟩ := Option.map_eq_some_iff.1 hkf
        cases hpair
        exact .child hk hf' hn
      · intro hin
        cases hin with
        | @child _ f j _ hj hf hn =>
          have hmem : (j, f) ∈ e.children.filterMap fun j => (m.expanded[j]?).map (j, ·) :=
            List.mem_filterMap.2 ⟨j, hj, by rw [hf]; rfl⟩
          rw [← hn]
          exact ⟨_, find?_key_eq hed.children hmem, rfl⟩
    · rintro inst ports (_ | ⟨hj, hf⟩)
      exact (he _ (List.mem_of_getElem? hf)).ports

theorem owns_iff {s : Spanning} {r : PortRef} :
    r.instance?.all (· = s.name) = true ↔ s.Owns r := by
  unfold Spanning.Owns
  cases r.instance? <;> simp

namespace Separates

variable {m : Model} {s : Spanning} (h : m.Separates s) {r : PortRef} {mode : Option Endpoint}
  {p : Port}

include h

theorem onBoundary?_eq_some_iff : onBoundary? s r mode = some p ↔
    s.Owns r ∧ Port.Named s.ports r.port (mode.map Endpoint.boundary) p := by
  rw [onBoundary?, ← owns_iff, ← Port.find_eq_some_iff h.ports]
  split
  · rename_i hown
    exact ⟨fun hp => ⟨hown, hp⟩, fun hp => hp.2⟩
  · rename_i hown
    exact ⟨nofun, fun hp => absurd hp.1 hown⟩

theorem onSubcomponent?_eq_some_iff : m.onSubcomponent? s r mode = some p ↔
    ∃ inst ports, r.instance? = some inst ∧ m.Inside s inst ports ∧
      Port.Named ports r.port (mode.map Endpoint.subcomponent) p := by
  simp only [onSubcomponent?, Option.bind_eq_some_iff]
  constructor
  · rintro ⟨inst, hr, ports, hin, hp⟩
    have hin := (h.inside inst ports).1 hin
    exact ⟨inst, ports, hr, hin, (Port.find_eq_some_iff (h.insidePorts inst ports hin)).1 hp⟩
  · rintro ⟨inst, ports, hr, hin, hp⟩
    exact ⟨inst, hr, ports, (h.inside inst ports).2 hin,
      (Port.find_eq_some_iff (h.insidePorts inst ports hin)).2 hp⟩

theorem denotes_iff :
    (onBoundary? s r mode).or (m.onSubcomponent? s r mode) = some p ↔ m.Denotes s r mode p := by
  have hfree : onBoundary? s r mode = none ↔
      ¬ ∃ q, s.Owns r ∧ Port.Named s.ports r.port (mode.map Endpoint.boundary) q := by
    simp only [← h.onBoundary?_eq_some_iff, Option.eq_none_iff_forall_ne_some, not_exists]
  rw [Option.or_eq_some_iff, h.onBoundary?_eq_some_iff, h.onSubcomponent?_eq_some_iff, hfree]
  constructor
  · rintro (⟨own, hp⟩ | ⟨hfree, inst, ports, hr, hin, hp⟩)
    · exact .boundary own hp
    · exact .subcomponent hfree hr hin hp
  · rintro (⟨own, hp⟩ | ⟨hfree, hr, hin, hp⟩)
    · exact .inl ⟨own, hp⟩
    · exact .inr ⟨hfree, _, _, hr, hin, hp⟩

end Separates

/-! ## Failures -/

/-- Failures to find a port in a scope that is there, for a reference that is well formed. -/
def blamesPlace : ResolutionError → Bool
  | .missingScope .. => false
  | .malformedName .. => false
  | .detachedConnector .. => false
  | _ => true

theorem blamesPlace_portIn {ports : List Port} {raw name owner : String}
    {direction : Option Direction} {e : ResolutionError}
    (h : portIn ports raw name direction owner = .error e) : blamesPlace e = true := by
  unfold portIn at h
  split at h
  · cases h
  · split at h
    · cases h; rfl
    · split at h <;> cases h <;> rfl

/-- No place to look blames the scope or the form of the reference. -/
theorem blamesPlace_of_place {m : Model} {s : Spanning} {raw : String} {r : PortRef}
    {mode : Option Endpoint} {e : ResolutionError}
    (h : some (Except.error e) ∈ [boundaryPort s raw r mode, m.expandedPort s raw r mode,
      m.declaredPort s raw r mode]) : blamesPlace e = true := by
  simp only [List.mem_cons, List.not_mem_nil, or_false] at h
  rcases h with h | h | h
  · unfold boundaryPort at h
    split at h
    · exact blamesPlace_portIn (Option.some.inj h.symm)
    · cases h
  · unfold expandedPort at h
    split at h
    · cases h
    · split at h
      · exact blamesPlace_portIn (Option.some.inj h.symm)
      · split at h
        · cases h; rfl
        · exact blamesPlace_portIn (Option.some.inj h.symm)
  · unfold declaredPort at h
    split at h
    · cases h
    · split at h
      · cases h; rfl
      · split at h
        · cases h; rfl
        · split at h
          · cases h; rfl
          · exact blamesPlace_portIn (Option.some.inj h.symm)

theorem blamesPlace_lookup {m : Model} {raw : String} {scope : Scope} {s : Spanning} {r : PortRef}
    (hs : m.spanning? scope = some s) (hr : PortRef.parse raw = .ok r) {mode : Option Endpoint}
    {e : ResolutionError} (h : m.lookup raw scope mode = .error e) : blamesPlace e = true := by
  simp only [lookup, hs, hr] at h
  cases hst : settle ([boundaryPort s raw r mode, m.expandedPort s raw r mode,
      m.declaredPort s raw r mode].filterMap id) with
  | none =>
    rw [hst] at h
    cases h
    rfl
  | some result =>
    rw [hst] at h
    cases h
    obtain ⟨x, hx, he⟩ := List.mem_filterMap.1 (List.mem_of_head? (settle_eq_error_iff.1 hst).1)
    cases he
    exact blamesPlace_of_place hx

/-! ## Main statement -/

/-- In a model that is built, looking up fails for the scope exactly when there is none, and else for the
form of the reference exactly when it does not parse; and a reference that parses is resolved to a port
exactly when it denotes that port. -/
theorem lookup_denotes {d : Design} {m : Model} (h : d.build = .ok m) (raw : String) (scope : Scope)
    (mode : Option Endpoint) :
    (∀ raw' scope', m.lookup raw scope mode = .error (.missingScope raw' scope') ↔
      m.spanning? scope = none ∧ raw' = raw ∧ scope' = scope) ∧
    ∀ s, m.spanning? scope = some s →
      (∀ raw' fault, m.lookup raw scope mode = .error (.malformedName raw' fault) ↔
        PortRef.parse raw = .error fault ∧ raw' = raw) ∧
      ∀ r, PortRef.parse raw = .ok r → ∀ p, m.lookup raw scope mode = .ok p ↔ m.Denotes s r mode p := by
  refine ⟨fun raw' scope' => ?_, fun s hs => ⟨fun raw' fault => ?_, fun r hr p => ?_⟩⟩
  · cases hs : m.spanning? scope with
    | none =>
      simp only [lookup, hs, true_and]
      constructor
      · intro he
        cases he
        exact ⟨rfl, rfl⟩
      · rintro ⟨rfl, rfl⟩
        rfl
    | some s =>
      refine ⟨fun he => ?_, fun he => absurd he.1 (Option.some_ne_none s)⟩
      cases hr : PortRef.parse raw with
      | error fault =>
        simp only [lookup, hs, hr] at he
        cases he
      | ok r => cases blamesPlace_lookup hs hr he
  · cases hr : PortRef.parse raw with
    | error fault' =>
      simp only [lookup, hs, hr]
      constructor
      · intro he
        cases he
        exact ⟨rfl, rfl⟩
      · rintro ⟨hf, rfl⟩
        cases hf
        rfl
    | ok r =>
      constructor
      · intro he
        cases blamesPlace_lookup hs hr he
      · rintro ⟨hf, -⟩
        cases hf
  · rw [← (separates_of_build h hs).denotes_iff, ← toOption_lookup hs hr mode]
    cases m.lookup raw scope mode <;> simp [Except.toOption]

/-- A component that is called like its instance and has one port of the same name, where the type of
the instance has two. -/
def namesakesDesign : Design where
  components := [
    { name := "T", ports := [.outgoing "x" ⟨1, 2⟩, .incoming "x" ⟨3, 4⟩] },
    { name := "s", ports := [.incoming "x" ⟨5, 6⟩], instances := [{ name := "s", type := "T" }] }]
  expansions := [.node "top" "s" {} [] [.node "s" "T" {} [] []]]

/-- As a source the reference is to the boundary, as a target to the instance, whose type has an
incoming port for it; in the type itself the incoming port stands before the earlier outgoing one. -/
theorem lookup_denotes_namesakes :
    namesakesDesign.build = .ok namesakesDesign.assemble ∧
    namesakesDesign.assemble.lookup "s.x" (.component 1) (some .source) = .ok (.incoming "x" ⟨5, 6⟩) ∧
    namesakesDesign.assemble.lookup "s.x" (.component 1) (some .target) = .ok (.incoming "x" ⟨3, 4⟩) ∧
    namesakesDesign.assemble.lookup "x" (.component 0) none = .ok (.incoming "x" ⟨3, 4⟩) ∧
    namesakesDesign.assemble.lookup "s.x" (.expanded 0) (some .source) =
      .ok (.outgoing "x" ⟨1, 2⟩) := by
  have hb : namesakesDesign.build = .ok namesakesDesign.assemble := rfl
  have hparse : PortRef.parse "s.x" = .ok ⟨some "s", "x"⟩ := by decide
  have hbare : PortRef.parse "x" = .ok ⟨none, "x"⟩ := by decide
  refine ⟨hb, ?_, ?_, ?_, ?_⟩
  · refine (((lookup_denotes hb ..).2 (.component _) rfl).2 _ hparse _).2 (.boundary (.inr rfl) ?_)
    exact .directed (List.mem_cons_self ..) rfl rfl
  · refine (((lookup_denotes hb ..).2 (.component _) rfl).2 _ hparse _).2 (.subcomponent ?_ rfl
      (.declared (List.mem_cons_self ..) rfl (List.mem_cons_self ..) rfl) ?_)
    · rintro ⟨q, -, hq⟩
      cases (Port.find_eq_some_iff (by decide)).2 hq
    · exact .directed (List.mem_cons_of_mem _ (List.mem_cons_self ..)) rfl rfl
  · refine (((lookup_denotes hb ..).2 (.component _) rfl).2 _ hbare _).2 (.boundary (.inl rfl) ?_)
    exact .incoming (by decide) rfl rfl
  · refine (((lookup_denotes hb ..).2 (.expanded _) rfl).2 _ hparse _).2 (.subcomponent ?_ rfl
      (.child (List.mem_cons_self ..) rfl rfl) ?_)
    · rintro ⟨q, own, -⟩
      exact absurd own (by decide)
    · exact .directed (List.mem_cons_self ..) rfl rfl

end Model

end Interconnect
