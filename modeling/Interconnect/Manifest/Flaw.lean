/-
What can be wrong with the entries of a manifest one by one: names that are empty or hold a dot, and
connectors that do not have exactly one of a source and a constant. All flaws are found, in the
order of the entries.
-/
import Interconnect.Diagnostic
import Interconnect.Manifest.Declaration

namespace Interconnect.Manifest

open Toml

/-- What a name is the name of. -/
inductive Role where
  | component
  | port
  | inst
  | type
  | expanded
  deriving DecidableEq, Repr

def Role.text : Role → String
  | component => "component"
  | port => "port"
  | inst => "instance"
  | type => "component type"
  | expanded => "expanded instance"

inductive Flaw where
  | emptyName (role : Role) (span : Span)
  | dottedName (role : Role) (name : String) (span : Span)
  | twoSources (target : String) (source constant : Span)
  | noSource (target : String) (span : Span)
  deriving DecidableEq, Repr

def Flaw.diagnostic : Flaw → Diagnostic
  | emptyName role span =>
    { severity := .error
      message := role.text ++ " name is empty"
      labels := [{ span, message := "empty name" }] }
  | dottedName role name span =>
    { severity := .error
      message := role.text ++ " name `" ++ name ++ "` contains `.`"
      labels := [{ span, message := "declared here" }]
      help := some "`.` separates an instance from a port in connector endpoints" }
  | twoSources target source constant =>
    { severity := .error
      message := "connector to `" ++ target ++ "` declares both a source and a constant"
      labels := [{ span := source, message := "source declared here" },
        { span := constant, message := "constant declared here", primary := false }]
      help := some "remove one of `source` and `constant`" }
  | noSource target span =>
    { severity := .error
      message := "connector to `" ++ target ++ "` has no source"
      labels := [{ span, message := "connector declared here" }]
      help := some "add a `source` port reference or a `constant` value" }

/-! ## Finding flaws -/

/-- A name has to be a single segment with something in it. -/
def nameFlaws (role : Role) (name : Placed String) : List Flaw :=
  if name.value.toList.isEmpty then [.emptyName role name.place]
  else if name.value.toList.contains '.' then [.dottedName role name.value name.place]
  else []

def ConnectEntry.flaws (c : ConnectEntry) : List Flaw :=
  match c.source, c.constant with
  | some source, some constant => [.twoSources c.target.value source.place constant.place]
  | none, none => [.noSource c.target.value c.target.place]
  | _, _ => []

def InstanceEntry.flaws (i : InstanceEntry) : List Flaw :=
  nameFlaws .inst i.name ++ nameFlaws .type i.type ++ i.connectors.flatMap ConnectEntry.flaws

def ComponentEntry.flaws (c : ComponentEntry) : List Flaw :=
  nameFlaws .component c.name ++ c.incoming.flatMap (nameFlaws .port) ++
    c.outgoing.flatMap (nameFlaws .port) ++ c.instances.flatMap InstanceEntry.flaws ++
    c.connectors.flatMap ConnectEntry.flaws

mutual

def ExpansionEntry.flaws : ExpansionEntry → List Flaw
  | ⟨name, type, children, connectors⟩ =>
    nameFlaws .expanded name ++ nameFlaws .type type ++ expansionFlaws children ++
      connectors.flatMap ConnectEntry.flaws

def expansionFlaws : List ExpansionEntry → List Flaw
  | [] => []
  | e :: rest => e.flaws ++ expansionFlaws rest

end

/-- The flaws of all entries: the components, then the expansions. -/
def Declarations.flaws (d : Declarations) : List Flaw :=
  d.components.flatMap ComponentEntry.flaws ++ expansionFlaws d.expansions

end Interconnect.Manifest
