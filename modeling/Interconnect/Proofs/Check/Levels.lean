/-
Levels. How bad each class of findings is decides how bad findings are and nothing else: under any two
settings a check finds the same in the same order, and what one of them finds is what the other finds
with other severities. A check passes exactly when all that it finds are warnings; so a model that passes
still does when a level is lowered.
-/
import Interconnect.Proofs.Check.Kinds
import Interconnect.Proofs.Check.Usage

namespace Interconnect

/-- The diagnostic with another severity. -/
def Diagnostic.rated (severity : Severity) (d : Diagnostic) : Diagnostic := { d with severity }

namespace Levels

/-- How bad the findings with a code are, and those without one. -/
def severity (levels : Levels) (code : Option Code) : Severity :=
  if code.any Code.isUnusedPort then levels.unusedPort else levels.unresolvedEndpoint

/-- The finding as these levels have it. -/
def rate (levels : Levels) (f : Diagnostic) : Diagnostic := f.rated (levels.severity f.code)

/-- Each level of `levels'` is that of `levels`, or a warning. -/
def Lowers (levels levels' : Levels) : Prop :=
  (levels'.unusedPort = levels.unusedPort ∨ levels'.unusedPort = .warning) ∧
    (levels'.unresolvedEndpoint = levels.unresolvedEndpoint ∨ levels'.unresolvedEndpoint = .warning)

variable (levels levels' : Levels)

theorem rate_unresolved (e : Endpoint) (k : Connector) (owner : String) (error : ResolutionError) :
    levels'.rate (Finding.unresolved levels e k owner error) =
      Finding.unresolved levels' e k owner error := by
  cases e <;> rfl

theorem rate_unused (c : Component) (i : Instance) (direction : Direction) (port : String) :
    levels'.rate (Finding.unused levels c i direction port) =
      Finding.unused levels' c i direction port := by
  cases direction <;> rfl

theorem rate_undeclared (c : Component) (i : Instance) :
    levels'.rate (Finding.undeclared levels c i) = Finding.undeclared levels' c i := rfl

/-- A warning stays one when levels are lowered. -/
theorem Lowers.severity_eq {levels levels' : Levels} (h : levels.Lowers levels') {code : Option Code}
    (hw : levels.severity code = .warning) : levels'.severity code = .warning := by
  unfold severity at hw ⊢
  by_cases hc : code.any Code.isUnusedPort = true
  · rw [if_pos hc] at hw ⊢
    exact h.1.elim (fun h => h.trans hw) id
  · rw [if_neg hc] at hw ⊢
    exact h.2.elim (fun h => h.trans hw) id

end Levels

namespace Model

variable (m : Model) (levels levels' : Levels)

/-! ## Two settings -/

theorem map_rate_connectorFindings (owner : String) (k : Connector)
    (source : Except ResolutionError Port) :
    (m.connectorFindings levels owner k source).map levels'.rate =
      m.connectorFindings levels' owner k source := by
  unfold connectorFindings
  rw [List.map_append]
  congr 1
  · cases source with
    | ok _ => rfl
    | error e => exact congrArg (List.cons · []) (levels.rate_unresolved levels' .source k owner e)
  · cases m.targetPort k with
    | ok _ => rfl
    | error e => exact congrArg (List.cons · []) (levels.rate_unresolved levels' .target k owner e)

theorem map_rate_endpointFindings (c : Component) :
    (m.endpointFindings levels c).map levels'.rate = m.endpointFindings levels' c := by
  simp only [endpointFindings, List.map_append, List.map_flatMap, map_rate_connectorFindings]

theorem map_rate_instanceFindings (c : Component) (w : Wiring) (i : Instance) :
    (m.instanceFindings levels c w i).map levels'.rate = m.instanceFindings levels' c w i := by
  have hunused : ∀ direction, levels'.rate ∘ Finding.unused levels c i direction =
      Finding.unused levels' c i direction := fun direction =>
    funext fun port => levels.rate_unused levels' c i direction port
  unfold instanceFindings
  cases m.find? i.type with
  | none => exact congrArg (List.cons · []) (levels.rate_undeclared levels' c i)
  | some type =>
    simp only [List.map_append, List.map_map, hunused]

theorem map_rate_checkComponent (index : Nat) :
    (m.checkComponent levels index).map levels'.rate = m.checkComponent levels' index := by
  unfold checkComponent
  cases m.components[index]? with
  | none => rfl
  | some c =>
    simp only [componentFindings, List.map_append, List.map_flatMap, map_rate_endpointFindings,
      map_rate_instanceFindings]

theorem map_rate_checkExpanded (index : Nat) :
    (m.checkExpanded levels index).map levels'.rate = m.checkExpanded levels' index := by
  unfold checkExpanded
  split
  · simp only [List.map_flatMap, map_rate_connectorFindings]
  · rfl

/-- What is found under one setting is what is found under another, with the severities of the one. -/
theorem map_rate_findings :
    (m.findings levels).map levels'.rate = m.findings levels' := by
  simp only [findings, List.map_append, List.map_flatMap, map_rate_checkComponent,
    map_rate_checkExpanded]

variable {m levels} in
/-- A finding has the severity of its code. -/
theorem severity_of_finds {f : Diagnostic} (h : m.Finds levels f) :
    f.severity = levels.severity f.code := by
  cases h with
  | unresolved hk e owner error => cases e <;> rfl
  | unused hc hi direction port => cases direction <;> rfl
  | undeclared hc hi ht => rfl

/-- A finding without a code is about an instance of a type that is not declared. -/
theorem undeclared_of_finds {m : Model} {levels : Levels} {f : Diagnostic} (h : m.Finds levels f)
    (hcode : f.code = none) : ∃ c ∈ m.components, ∃ i ∈ c.instances, m.find? i.type = none ∧
      f = Finding.undeclared levels c i := by
  cases h with
  | unresolved hk e owner error => cases hcode
  | unused hc hi direction port => cases hcode
  | undeclared hc hi ht => exact ⟨_, hc, _, hi, ht, rfl⟩

/-! ## The verdict -/

/-- A check passes exactly when there are only warnings; either way it tells all that is found. -/
theorem check_eq : m.check levels = if ∀ f ∈ m.findings levels, f.severity = .warning
    then .ok (m.findings levels) else .error (m.findings levels) := by
  rw [check_eq_verdict]
  by_cases h : ∀ f ∈ m.findings levels, f.severity = .warning
  · rw [if_pos h]
    exact Diagnostic.verdict_eq_ok_iff.2
      ⟨rfl, fun f hf => Diagnostic.isError_eq_false_iff.2 (h f hf)⟩
  · rw [if_neg h]
    push Not at h
    obtain ⟨f, hf, hs⟩ := h
    refine Diagnostic.verdict_eq_error_iff.2 ⟨rfl, f, hf, Diagnostic.isError_iff.2 ?_⟩
    cases he : f.severity with
    | error => rfl
    | warning => exact absurd he hs

/-- Lowering levels never makes a check fail. -/
theorem check_ok_of_lowers {levels levels' : Levels} (hl : levels.Lowers levels') {m : Model}
    (h : ∀ f ∈ m.findings levels, f.severity = .warning) :
    ∀ f ∈ m.findings levels', f.severity = .warning := by
  intro f hf
  rw [← map_rate_findings m levels levels'] at hf
  obtain ⟨g, hg, rfl⟩ := List.mem_map.1 hf
  have hw := h g hg
  rw [severity_of_finds (finds_findings hg)] at hw
  show levels'.severity g.code = .warning
  exact hl.severity_eq hw

/-- Levels never influence what is found. Two checks find the same but for severities; a finding about
an unused port has the one level, one about the end of a connector the other, and so has a finding
without a code, which tells of an instance that its type is not declared. The verdict is that all are
warnings, and a model that passes still does under lower levels. -/
theorem check_levels (m : Model) (levels levels' : Levels) :
    (m.findings levels).map (Diagnostic.rated .error) =
      (m.findings levels').map (Diagnostic.rated .error) ∧
    (∀ f ∈ m.findings levels,
      (f.code = some .unusedIncoming ∨ f.code = some .unusedOutgoing →
        f.severity = levels.unusedPort) ∧
      (f.code = some .unresolvedSource ∨ f.code = some .unresolvedTarget →
        f.severity = levels.unresolvedEndpoint) ∧
      (f.code = none → f.severity = levels.unresolvedEndpoint ∧ ∃ c ∈ m.components,
        ∃ i ∈ c.instances, m.find? i.type = none ∧ f = Finding.undeclared levels c i)) ∧
    (m.check levels = if ∀ f ∈ m.findings levels, f.severity = .warning
      then .ok (m.findings levels) else .error (m.findings levels)) ∧
    (levels.Lowers levels' → (∃ ws, m.check levels = .ok ws) → ∃ ws, m.check levels' = .ok ws) := by
  refine ⟨?_, fun f hf => ?_, check_eq m levels, fun hl ⟨ws, hws⟩ => ?_⟩
  · rw [← map_rate_findings m levels levels', List.map_map]
    rfl
  · have hfinds := finds_findings hf
    have hsev := severity_of_finds hfinds
    refine ⟨fun hc => ?_, fun hc => ?_, fun hc => ⟨?_, undeclared_of_finds hfinds hc⟩⟩
    · rcases hc with hc | hc <;> rw [hsev, hc] <;> rfl
    · rcases hc with hc | hc <;> rw [hsev, hc] <;> rfl
    · rw [hsev, hc]
      rfl
  · have hpass : ∀ f ∈ m.findings levels, f.severity = .warning := by
      by_contra hn
      rw [check_eq, if_neg hn] at hws
      cases hws
    exact ⟨_, (check_eq m levels').trans (if_pos (check_ok_of_lowers hl hpass))⟩

/-- An instance of no type, and a connector between nothing and nothing. -/
def lostDesign : Design where
  components := [
    { name := "Outer"
      instances := [{ name := "t", type := "Lost" }]
      connectors := [.wired "b" "t.x" {}] }]

theorem check_levels_lost :
    lostDesign.build = .ok lostDesign.assemble ∧
    (∃ f ∈ lostDesign.assemble.findings ⟨.error, .warning⟩,
      f.code = some .unresolvedTarget ∧ f.severity = .warning) ∧
    (∃ f ∈ lostDesign.assemble.findings ⟨.error, .warning⟩, f.code = none ∧ f.severity = .warning) ∧
    (∃ f ∈ looseModel.findings ⟨.error, .warning⟩,
      f.code = some .unusedIncoming ∧ f.severity = .error) ∧
    (∃ ws, lostDesign.assemble.check ⟨.error, .warning⟩ = .ok ws) ∧
    (∃ ws, lostDesign.assemble.check ⟨.warning, .warning⟩ = .ok ws) ∧
    looseModel.check ⟨.error, .warning⟩ = .error (looseModel.findings ⟨.error, .warning⟩) := by
  obtain ⟨-, hlost, -, hlower⟩ :=
    check_levels lostDesign.assemble ⟨.error, .warning⟩ ⟨.warning, .warning⟩
  obtain ⟨-, hloose, hcheck, -⟩ := check_levels looseModel ⟨.error, .warning⟩ ⟨.warning, .warning⟩
  have hpass : ∃ ws, lostDesign.assemble.check ⟨.error, .warning⟩ = .ok ws := ⟨_, by rfl⟩
  have hend : Finding.unresolved ⟨.error, .warning⟩ .target ((Connector.wired "b" "t.x" {}).attach
      (.component 0)) "Outer" (.unknownComponentType "t" "Lost") ∈
      lostDesign.assemble.findings ⟨.error, .warning⟩ := by decide
  have htype : Finding.undeclared ⟨.error, .warning⟩ { name := "Outer" }
      { name := "t", type := "Lost" } ∈ lostDesign.assemble.findings ⟨.error, .warning⟩ := by decide
  have hport : Finding.unused ⟨.error, .warning⟩ { name := "Outer", span := ⟨99, 106⟩ }
      { name := "s", type := "Inner", span := ⟨137, 155⟩ } .incoming "s.z" ∈
      looseModel.findings ⟨.error, .warning⟩ := by decide
  refine ⟨rfl, ⟨_, hend, rfl, (hlost _ hend).2.1 (.inr rfl)⟩, ⟨_, htype, rfl, ?_⟩,
    ⟨_, hport, rfl, (hloose _ hport).1 (.inl rfl)⟩, hpass, hlower ⟨.inr rfl, .inl rfl⟩ hpass, ?_⟩
  · exact ((hlost _ htype).2.2 rfl).1
  · rw [hcheck]
    rfl

end Model

end Interconnect
