/-
Resolution of port references. A reference is first tried on the boundary of what its scope belongs
to, then on the expanded children, then on the declared instances. The first port found is the
answer; if there is none, the first failure is.
-/
import Interconnect.Model

namespace Interconnect

/-- Why a reference denotes no port. -/
inductive ResolutionError where
  | portNotFound (raw owner : String)
  | wrongDirection (raw : String) (expected : Direction) (owner : String)
  | malformedName (raw : String) (fault : NameFault)
  | unknownInstance (inst owner : String)
  | unknownComponentType (inst type : String)
  | missingScope (raw : String) (scope : Scope)
  | detachedConnector (raw : String)
  deriving DecidableEq, Repr

namespace ResolutionError

def message : ResolutionError → String
  | portNotFound raw owner => "no port `" ++ raw ++ "` found in `" ++ owner ++ "`"
  | wrongDirection raw expected owner =>
    "no " ++ expected.text ++ " port `" ++ raw ++ "` found in `" ++ owner ++ "`"
  | malformedName raw fault => "malformed port reference `" ++ raw ++ "`: " ++ fault.message
  | unknownInstance inst owner => "no instance `" ++ inst ++ "` in `" ++ owner ++ "`"
  | unknownComponentType inst type =>
    "instance `" ++ inst ++ "` refers to undeclared component type `" ++ type ++ "`"
  | missingScope raw scope => "cannot resolve `" ++ raw ++ "`: scope " ++ scope.text ++ " does not exist"
  | detachedConnector raw =>
    "cannot resolve `" ++ raw ++ "`: connector does not belong to a component or expanded instance"

/-- The error behind this one. -/
def cause? : ResolutionError → Option String
  | malformedName _ fault => some fault.message
  | _ => none

end ResolutionError

/-- The end of a connector that a reference stands on. -/
inductive Endpoint where
  | source
  | target
  deriving DecidableEq, Repr

namespace Endpoint

/-- The direction of a port on the enclosing boundary: data enters there and is read inside. -/
def boundary : Endpoint → Direction
  | source => .incoming
  | target => .outgoing

/-- The direction of a port of a subcomponent. -/
def subcomponent : Endpoint → Direction
  | source => .outgoing
  | target => .incoming

def text : Endpoint → String
  | source => "source"
  | target => "target"

end Endpoint

namespace Model

/-! ## Places to look -/

/-- Looks for a port among those of `owner`. A name that is there in the other direction only fails
for its direction. -/
def portIn (ports : List Port) (raw name : String) (direction : Option Direction) (owner : String) :
    Except ResolutionError Port :=
  match Port.find ports name direction with
  | some port => .ok port
  | none =>
    match direction with
    | none => .error (.portNotFound raw owner)
    | some expected =>
      if (Port.findNamed ports name).isSome then .error (.wrongDirection raw expected owner)
      else .error (.portNotFound raw owner)

/-- The boundary, if the reference is bare or qualified with the owner's own name. -/
def boundaryPort (s : Spanning) (raw : String) (r : PortRef) (mode : Option Endpoint) :
    Option (Except ResolutionError Port) :=
  if r.instance?.all (· = s.name) then
    some (portIn s.ports raw r.port (mode.map Endpoint.boundary) s.name)
  else none

/-- The children of an expanded instance; a bare reference means its boundary again. -/
def expandedPort (m : Model) (s : Spanning) (raw : String) (r : PortRef) (mode : Option Endpoint) :
    Option (Except ResolutionError Port) :=
  match s with
  | .component _ => none
  | .expanded e =>
    match r.instance? with
    | none => some (portIn e.ports raw r.port (mode.map Endpoint.boundary) e.name)
    | some inst =>
      match m.findChild? e inst with
      | none => some (.error (.unknownInstance inst e.name))
      | some (_, child) =>
        some (portIn child.ports raw r.port (mode.map Endpoint.subcomponent) child.name)

/-- The types of the instances that a component declares. -/
def declaredPort (m : Model) (s : Spanning) (raw : String) (r : PortRef) (mode : Option Endpoint) :
    Option (Except ResolutionError Port) :=
  match s with
  | .expanded _ => none
  | .component c =>
    match r.instance? with
    | none => some (.error (.portNotFound raw c.name))
    | some inst =>
      match c.findInstance inst with
      | none => some (.error (.unknownInstance inst c.name))
      | some i =>
        match m.find? i.type with
        | none => some (.error (.unknownComponentType i.name i.type))
        | some type => some (portIn type.ports raw r.port (mode.map Endpoint.subcomponent) i.type)

/-! ## Resolving -/

/-- The first success among attempts, or else the first failure. -/
def settle {ε α : Type} : List (Except ε α) → Option (Except ε α)
  | [] => none
  | .ok a :: _ => some (.ok a)
  | .error e :: rest =>
    match settle rest with
    | some (.ok a) => some (.ok a)
    | _ => some (.error e)

/-- Attempts fail only if each of them does, and then with the first failure. -/
theorem settle_eq_error_iff {ε α : Type} {attempts : List (Except ε α)} {e : ε} :
    settle attempts = some (.error e) ↔
      attempts.head? = some (.error e) ∧ ∀ x ∈ attempts, ∃ e', x = .error e' := by
  induction attempts generalizing e with
  | nil => simp [settle]
  | cons x rest ih =>
    cases x with
    | ok a => simp [settle]
    | error e₀ =>
      cases hs : settle rest with
      | none =>
        cases rest with
        | nil => simp [settle]
        | cons y ys => cases y <;> simp [settle] at hs; split at hs <;> cases hs
      | some r =>
        cases r with
        | ok a =>
          have hn : ¬ ∀ x ∈ rest, ∃ e', x = Except.error e' := by
            intro h
            cases rest with
            | nil => simp [settle] at hs
            | cons y ys =>
              obtain ⟨e', rfl⟩ := h y (List.mem_cons_self ..)
              have := ih.2 ⟨rfl, h⟩
              rw [hs] at this; cases this
          simp only [settle, hs, List.forall_mem_cons]
          exact ⟨nofun, fun h => absurd h.2.2 hn⟩
        | error e₁ =>
          have hr := (ih.1 hs).2
          simp only [settle, hs, List.head?_cons, List.forall_mem_cons, Option.some.injEq,
            Except.error.injEq]
          exact ⟨fun h => ⟨h, ⟨e₀, rfl⟩, hr⟩, fun h => h.1⟩

/-- The port that `raw` denotes in a scope: of any direction, or of the one that the end of a
connector calls for. -/
def lookup (m : Model) (raw : String) (scope : Scope) (mode : Option Endpoint) :
    Except ResolutionError Port :=
  match m.spanning? scope with
  | none => .error (.missingScope raw scope)
  | some s =>
    match PortRef.parse raw with
    | .error fault => .error (.malformedName raw fault)
    | .ok r =>
      let attempts := [boundaryPort s raw r mode, m.expandedPort s raw r mode,
        m.declaredPort s raw r mode].filterMap id
      (settle attempts).getD (.error (.portNotFound raw s.name))

/-- The port of either direction that `raw` denotes. -/
def resolvePort (m : Model) (raw : String) (scope : Scope) : Except ResolutionError Port :=
  m.lookup raw scope none

def resolveEnd (m : Model) (raw : String) (c : Connector) (e : Endpoint) :
    Except ResolutionError Port :=
  match c.scope with
  | none => .error (.detachedConnector raw)
  | some scope => m.lookup raw scope (some e)

/-- The port that a connector reads from. -/
def sourcePort (m : Model) (c : Connector) : Except ResolutionError Port :=
  match c.constantPort? with
  | some port => .ok port
  | none => m.resolveEnd c.source c .source

/-- The port that a connector declared on an instance reads from: its source is a port of that
instance. -/
def simpleSourcePort (m : Model) (i : Instance) (c : Connector) : Except ResolutionError Port :=
  match c.constantPort? with
  | some port => .ok port
  | none => m.resolveEnd (i.qualify c.source) c .source

/-- The port that a connector feeds. -/
def targetPort (m : Model) (c : Connector) : Except ResolutionError Port :=
  m.resolveEnd c.target c .target

end Model

end Interconnect
