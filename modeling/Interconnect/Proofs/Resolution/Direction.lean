/-
Resolution with a wanted direction, beside resolution by name alone. What is found in no direction is
not found in the wanted one, for the same reason; and what is only there in the other direction is
blamed on the direction. One failure hides the direction: a reference that is qualified with the name of
its own symbol is tried on the boundary first, and if no port there has the name, that is what is told.
-/
import Interconnect.Proofs.Resolution.Template

namespace Interconnect

namespace Port

theorem findDirected_of_findNamed_eq_none {ports : List Port} {name : String}
    (h : findNamed ports name = none) (direction : Direction) :
    findDirected ports name direction = none := by
  obtain ⟨hin, hout⟩ := Option.or_eq_none_iff.1 h
  cases direction with
  | incoming => exact hin
  | outgoing => exact hout

theorem findNamed_eq_none_iff {ports : List Port} {name : String} :
    findNamed ports name = none ↔ ∀ p ∈ ports, p.name ≠ name := by
  constructor
  · intro h p hp hname
    have hnone := List.find?_eq_none.1 (findDirected_of_findNamed_eq_none h p.direction) p hp
    simp [hname] at hnone
  · intro h
    cases hf : findNamed ports name with
    | none => rfl
    | some p => exact absurd (findNamed_eq_some hf).2 (h p (findNamed_eq_some hf).1)

end Port

/-- The reference is qualified with the name of the symbol itself, whose boundary has no port of that
name. -/
def Spanning.Lacks (s : Spanning) (raw : String) : Prop :=
  ∃ port, PortRef.parse raw = .ok ⟨some s.name, port⟩ ∧ ∀ p ∈ s.ports, p.name ≠ port

namespace Model

/-- What becomes of an attempt by name alone when a direction is wanted: a failure stays as it is, and
the port that was found is found, or another one is, or only the direction is at fault. -/
inductive Narrows (raw : String) : Except ResolutionError Port → Except ResolutionError Port → Prop
  | failed (err : ResolutionError) : Narrows raw (.error err) (.error err)
  | found (q p : Port) : Narrows raw (.ok q) (.ok p)
  | misdirected {q : Port} {expected : Direction} (h : q.direction ≠ expected) (owner : String) :
    Narrows raw (.ok q) (.error (.wrongDirection raw expected owner))

variable {raw : String}

/-! ## Single attempts -/

theorem narrows_portIn (ports : List Port) (raw name owner : String) (direction : Direction) :
    Narrows raw (portIn ports raw name none owner)
      (portIn ports raw name (some direction) owner) := by
  simp only [portIn, Port.find]
  cases hq : Port.findNamed ports name with
  | none =>
    rw [Port.findDirected_of_findNamed_eq_none hq]
    exact .failed _
  | some q =>
    cases hp : Port.findDirected ports name direction with
    | some p => exact .found q p
    | none =>
      refine .misdirected (fun hd => ?_) owner
      -- a port of that direction would have been found
      obtain ⟨hmem, hname⟩ := Port.findNamed_eq_some hq
      have hnone := List.find?_eq_none.1 hp q hmem
      simp [hname, hd] at hnone

theorem narrows_refl_error (err : ResolutionError) :
    Option.Rel (Narrows raw) (some (.error err)) (some (.error err)) :=
  .some (.failed err)

theorem narrows_expandedPort (m : Model) (s : Spanning) (raw : String) (r : PortRef) (e : Endpoint) :
    Option.Rel (Narrows raw) (m.expandedPort s raw r none) (m.expandedPort s raw r (some e)) := by
  unfold expandedPort
  cases s with
  | component c => exact .none
  | expanded node =>
    cases r.instance? with
    | none => exact .some (narrows_portIn ..)
    | some inst =>
      dsimp only
      cases m.findChild? node inst with
      | none => exact narrows_refl_error _
      | some found => exact .some (narrows_portIn ..)

theorem narrows_declaredPort (m : Model) (s : Spanning) (raw : String) (r : PortRef) (e : Endpoint) :
    Option.Rel (Narrows raw) (m.declaredPort s raw r none) (m.declaredPort s raw r (some e)) := by
  unfold declaredPort
  cases s with
  | expanded node => exact .none
  | component c =>
    cases r.instance? with
    | none => exact narrows_refl_error _
    | some inst =>
      dsimp only
      cases c.findInstance inst with
      | none => exact narrows_refl_error _
      | some i =>
        dsimp only
        cases m.find? i.type with
        | none => exact narrows_refl_error _
        | some type => exact .some (narrows_portIn ..)

/-! ## Inside a symbol -/

/-- The attempt that follows the one on the boundary: on the children of an expanded instance, or on the
declared instances of a component. -/
def innerPort (m : Model) (s : Spanning) (raw : String) (r : PortRef) (mode : Option Endpoint) :
    Except ResolutionError Port :=
  ((m.expandedPort s raw r mode).or (m.declaredPort s raw r mode)).getD
    (.error (.portNotFound raw s.name))

theorem narrows_or {x y x' y' : Option (Except ResolutionError Port)}
    (hx : Option.Rel (Narrows raw) x x') (hy : Option.Rel (Narrows raw) y y') (err : ResolutionError) :
    Narrows raw ((x.or y).getD (.error err)) ((x'.or y').getD (.error err)) := by
  cases hx with
  | some h => exact h
  | none =>
    cases hy with
    | some h => exact h
    | none => exact .failed err

theorem narrows_innerPort (m : Model) (s : Spanning) (raw : String) (r : PortRef) (e : Endpoint) :
    Narrows raw (m.innerPort s raw r none) (m.innerPort s raw r (some e)) :=
  narrows_or (narrows_expandedPort ..) (narrows_declaredPort ..) _

theorem exists_declaredPort (m : Model) (c : Component) (raw : String) (r : PortRef)
    (mode : Option Endpoint) : ∃ x, m.declaredPort (.component c) raw r mode = some x := by
  unfold declaredPort
  cases r.instance? with
  | none => exact ⟨_, rfl⟩
  | some inst =>
    dsimp only
    cases c.findInstance inst with
    | none => exact ⟨_, rfl⟩
    | some i =>
      dsimp only
      cases m.find? i.type <;> exact ⟨_, rfl⟩

theorem exists_expandedPort (m : Model) (e : Expanded) (raw : String) (r : PortRef)
    (mode : Option Endpoint) : ∃ x, m.expandedPort (.expanded e) raw r mode = some x := by
  unfold expandedPort
  cases r.instance? with
  | none => exact ⟨_, rfl⟩
  | some inst =>
    dsimp only
    cases m.findChild? e inst <;> exact ⟨_, rfl⟩

/-- Exactly one attempt follows the one on the boundary. -/
theorem attempts_eq (m : Model) (s : Spanning) (raw : String) (r : PortRef) (mode : Option Endpoint) :
    [boundaryPort s raw r mode, m.expandedPort s raw r mode, m.declaredPort s raw r mode].filterMap id =
      (boundaryPort s raw r mode).toList ++ [m.innerPort s raw r mode] := by
  unfold innerPort
  cases s with
  | component c =>
    obtain ⟨x, hx⟩ := exists_declaredPort m c raw r mode
    have hnone : m.expandedPort (.component c) raw r mode = none := rfl
    rw [hx, hnone]
    cases boundaryPort (.component c) raw r mode <;> rfl
  | expanded e =>
    obtain ⟨x, hx⟩ := exists_expandedPort m e raw r mode
    have hnone : m.declaredPort (.expanded e) raw r mode = none := rfl
    rw [hx, hnone]
    cases boundaryPort (.expanded e) raw r mode <;> rfl

/-! ## Looking up -/

/-- The port that the first of two attempts finds, or else the second; if neither does, the first says
why. -/
def firstOf : Except ResolutionError Port → Except ResolutionError Port → Except ResolutionError Port
  | .ok p, _ => .ok p
  | .error _, .ok p => .ok p
  | .error err, .error _ => .error err

/-- Where a port is found by name at first, a second attempt may find one in the direction, and takes
no blame otherwise. -/
theorem narrows_firstOf {q : Port} {x : Except ResolutionError Port} (h : Narrows raw (.ok q) x)
    (y : Except ResolutionError Port) : Narrows raw (.ok q) (firstOf x y) := by
  cases h with
  | found _ p => exact .found q p
  | misdirected hd owner =>
    cases y with
    | ok p => exact .found q p
    | error _ => exact .misdirected hd owner

section

variable {m : Model} {scope : Scope} {s : Spanning} (hs : m.spanning? scope = some s) {r : PortRef}
  (hr : PortRef.parse raw = .ok r)

include hs hr

theorem lookup_of_boundaryPort_eq_none {mode : Option Endpoint} (hb : boundaryPort s raw r mode = none) :
    m.lookup raw scope mode = m.innerPort s raw r mode := by
  simp only [lookup, hs, hr]
  rw [attempts_eq, hb, Option.toList_none, List.nil_append, settle_singleton, Option.getD_some]

theorem lookup_of_boundaryPort_eq_some {mode : Option Endpoint} {x : Except ResolutionError Port}
    (hb : boundaryPort s raw r mode = some x) :
    m.lookup raw scope mode = firstOf x (m.innerPort s raw r mode) := by
  simp only [lookup, hs, hr]
  rw [attempts_eq, hb, Option.toList_some, List.singleton_append]
  cases x with
  | ok p => rfl
  | error err =>
    rw [settle, settle_singleton]
    cases m.innerPort s raw r mode <;> rfl

/-- Where the reference names its own symbol, but no port of it, the failure on the boundary stays unless
the attempt behind it finds a port. -/
theorem lookup_of_lacks (hq : r.instance? = some s.name) (hfree : ∀ p ∈ s.ports, p.name ≠ r.port)
    (mode : Option Endpoint) :
    m.lookup raw scope mode =
      firstOf (.error (.portNotFound raw s.name)) (m.innerPort s raw r mode) := by
  have hnamed : Port.findNamed s.ports r.port = none := Port.findNamed_eq_none_iff.2 hfree
  have hport : portIn s.ports raw r.port (mode.map Endpoint.boundary) s.name =
      .error (.portNotFound raw s.name) := by
    cases mode with
    | none => simp [portIn, Port.find, hnamed]
    | some e => simp [portIn, Port.find, hnamed, Port.findDirected_of_findNamed_eq_none hnamed]
  refine lookup_of_boundaryPort_eq_some hs hr ?_
  rw [← hport, boundaryPort, if_pos]
  simp [hq]

/-- In any other case a lookup with a direction narrows the lookup by name. -/
theorem narrows_lookup (hl : ¬ s.Lacks raw) (e : Endpoint) :
    Narrows raw (m.lookup raw scope none) (m.lookup raw scope (some e)) := by
  cases hq : r.instance? with
  | none =>
    rw [lookup_of_bare hr none hs hq, lookup_of_bare hr (some e) hs hq]
    exact narrows_portIn ..
  | some inst =>
    by_cases hown : inst = s.name
    · have happly : ∀ mode, boundaryPort s raw r mode =
          some (portIn s.ports raw r.port (mode.map Endpoint.boundary) s.name) := fun mode => by
        simp [boundaryPort, hq, hown]
      -- the name is on the boundary, so it is found there when no direction is wanted
      obtain ⟨q, hf⟩ : ∃ q, Port.find s.ports r.port none = some q := by
        cases hf : Port.findNamed s.ports r.port with
        | some q => exact ⟨q, hf⟩
        | none => exact absurd ⟨r.port, by rw [hr, ← hown, ← hq], Port.findNamed_eq_none_iff.1 hf⟩ hl
      have hfound : portIn s.ports raw r.port none s.name = .ok q := portIn_eq_ok_iff.2 hf
      have hnarrows := narrows_portIn s.ports raw r.port s.name e.boundary
      rw [hfound] at hnarrows
      rw [lookup_of_boundaryPort_eq_some hs hr (happly none),
        lookup_of_boundaryPort_eq_some hs hr (happly (some e)), Option.map_none, hfound]
      exact narrows_firstOf hnarrows _
    · rw [lookup_of_boundaryPort_eq_none hs hr (boundaryPort_of_foreign hq hown raw none),
        lookup_of_boundaryPort_eq_none hs hr (boundaryPort_of_foreign hq hown raw (some e))]
      exact narrows_innerPort ..

end

/-! ## With and without a direction -/

/-- In a scope that is there, what fails by name fails in the same way at the end of a connector, and
what is found at the end of a connector is found by name. What is found by name and not at the end of a
connector has the other direction, and that is what is told; only where the reference names its own
symbol, and no port of it, it is told that the boundary has no such port. -/
theorem lookup_directed {m : Model} {scope : Scope} {s : Spanning} (hs : m.spanning? scope = some s)
    (raw : String) (e : Endpoint) :
    (∀ err, m.resolvePort raw scope = .error err → m.lookup raw scope (some e) = .error err) ∧
    (∀ p, m.lookup raw scope (some e) = .ok p → ∃ q, m.resolvePort raw scope = .ok q) ∧
    ∀ q err, m.resolvePort raw scope = .ok q → m.lookup raw scope (some e) = .error err →
      (¬ s.Lacks raw → ∃ expected owner,
        q.direction ≠ expected ∧ err = .wrongDirection raw expected owner) ∧
      (s.Lacks raw → err = .portNotFound raw s.name) := by
  unfold resolvePort
  cases hr : PortRef.parse raw with
  | error fault =>
    have hfails : ∀ mode, m.lookup raw scope mode = .error (.malformedName raw fault) := fun mode => by
      simp only [lookup, hs, hr]
    rw [hfails none, hfails (some e)]
    exact ⟨fun _ h => h, by rintro _ ⟨⟩, by rintro _ _ ⟨⟩⟩
  | ok r =>
    by_cases hl : s.Lacks raw
    · obtain ⟨port, hparse, hfree⟩ := hl
      cases hr.symm.trans hparse
      rw [lookup_of_lacks hs hr rfl hfree none, lookup_of_lacks hs hr rfl hfree (some e)]
      -- whatever comes second, the failure on the boundary is the one that is told
      have hinner := narrows_innerPort m s raw ⟨some s.name, port⟩ e
      generalize m.innerPort s raw ⟨some s.name, port⟩ none = x at hinner ⊢
      generalize m.innerPort s raw ⟨some s.name, port⟩ (some e) = y at hinner ⊢
      cases hinner with
      | failed _ => exact ⟨fun _ h => h, by rintro _ ⟨⟩, by rintro _ _ ⟨⟩⟩
      | found q _ => exact ⟨by rintro _ ⟨⟩, fun _ _ => ⟨q, rfl⟩, by rintro _ _ - ⟨⟩⟩
      | misdirected _ _ =>
        refine ⟨by rintro _ ⟨⟩, by rintro _ ⟨⟩, fun _ err _ herr => ?_⟩
        cases herr
        exact ⟨fun h => absurd ⟨port, hparse, hfree⟩ h, fun _ => rfl⟩
    · have hnarrows := narrows_lookup hs hr hl e
      generalize m.lookup raw scope none = x at hnarrows ⊢
      generalize m.lookup raw scope (some e) = y at hnarrows ⊢
      cases hnarrows with
      | failed err => exact ⟨fun _ h => h, by rintro _ ⟨⟩, by rintro _ _ ⟨⟩⟩
      | found q p => exact ⟨by rintro _ ⟨⟩, fun _ _ => ⟨q, rfl⟩, by rintro _ _ - ⟨⟩⟩
      | misdirected hd owner =>
        refine ⟨by rintro _ ⟨⟩, by rintro _ ⟨⟩, fun q err hq herr => ?_⟩
        cases hq
        cases herr
        exact ⟨fun _ => ⟨_, owner, hd, rfl⟩, fun h => absurd h hl⟩

/-- Two components with the same instance, of which one is called like it. -/
def crossedDesign : Design where
  components := [
    { name := "T", ports := [.incoming "x" {}] },
    { name := "s", instances := [{ name := "s", type := "T" }] },
    { name := "Outer", instances := [{ name := "s", type := "T" }] }]

/-- In one component the direction is blamed, and in the other its own boundary. -/
theorem lookup_directed_crossed :
    crossedDesign.build = .ok crossedDesign.assemble ∧
    ∃ s outer, crossedDesign.assemble.spanning? (.component 1) = some s ∧ s.Lacks "s.x" ∧
      crossedDesign.assemble.spanning? (.component 2) = some outer ∧ ¬ outer.Lacks "s.x" ∧
      crossedDesign.assemble.resolvePort "s.x" (.component 1) = .ok (.incoming "x" {}) ∧
      crossedDesign.assemble.resolvePort "s.x" (.component 2) = .ok (.incoming "x" {}) ∧
      (∃ err, crossedDesign.assemble.lookup "s.x" (.component 1) (some .source) = .error err ∧
        err = .portNotFound "s.x" s.name) ∧
      ∃ err, crossedDesign.assemble.lookup "s.x" (.component 2) (some .source) = .error err ∧
        ∃ expected owner, expected ≠ .incoming ∧ err = .wrongDirection "s.x" expected owner := by
  have hs : crossedDesign.assemble.spanning? (.component 1) = some _ := rfl
  have houter : crossedDesign.assemble.spanning? (.component 2) = some _ := rfl
  have hparse : PortRef.parse "s.x" = .ok ⟨some "s", "x"⟩ := by decide
  have hlacks : Spanning.Lacks (.component crossedDesign.assemble.components[1]) "s.x" :=
    ⟨"x", hparse, nofun⟩
  have hfree : ¬ Spanning.Lacks (.component crossedDesign.assemble.components[2]) "s.x" := by
    rintro ⟨port, h, -⟩
    have hname := (PortRef.mk.inj (Except.ok.inj (hparse.symm.trans h))).1
    exact absurd hname (by decide)
  obtain ⟨-, -, hown⟩ := lookup_directed hs "s.x" .source
  obtain ⟨-, -, hother⟩ := lookup_directed houter "s.x" .source
  obtain ⟨expected, owner, hne, herr⟩ := (hother (.incoming "x" {}) _ rfl rfl).1 hfree
  exact ⟨rfl, _, _, hs, hlacks, houter, hfree, rfl, rfl,
    ⟨_, rfl, (hown (.incoming "x" {}) _ rfl rfl).2 hlacks⟩,
    _, rfl, expected, owner, fun h => hne h.symm, herr⟩

/-- The name is there in the other direction only, and still the direction is not blamed. -/
theorem boundary_hides_direction :
    crossedDesign.build = .ok crossedDesign.assemble ∧
    (crossedDesign.assemble.spanning? (.component 1)).isSome = true ∧
    crossedDesign.assemble.resolvePort "s.x" (.component 1) = .ok (.incoming "x" {}) ∧
    ∃ err, crossedDesign.assemble.lookup "s.x" (.component 1) (some .source) = .error err ∧
      ∀ expected owner, err ≠ .wrongDirection "s.x" expected owner :=
  ⟨rfl, rfl, rfl, _, rfl, nofun⟩

end Model

end Interconnect
