/-
Component types, and the instances of other components that they contain.
-/
import Interconnect.Connector

namespace Interconnect

/-- A subcomponent: a named instance of a component type. -/
structure Instance where
  name : String
  type : String
  /-- Connectors declared on the instance. Their sources are ports of the instance itself. -/
  connectors : List Connector := []
  span : Span := {}
  deriving DecidableEq, Repr, Inhabited

structure Component where
  name : String
  ports : List Port := []
  instances : List Instance := []
  connectors : List Connector := []
  span : Span := {}
  deriving DecidableEq, Repr, Inhabited

namespace Instance

/-- The text by which the enclosing component refers to a port of the instance. -/
def qualify (i : Instance) (port : String) : String := PortRef.qualify i.name port

/-- The texts for ports of the instance, each once. -/
def portNames (i : Instance) (ports : List Port) : List String :=
  (ports.map fun p => i.qualify p.name).eraseDups

end Instance

namespace Component

def incomingPorts (c : Component) : List Port := c.ports.filter Port.isIncoming

def outgoingPorts (c : Component) : List Port := c.ports.filter Port.isOutgoing

def findInstance (c : Component) (name : String) : Option Instance :=
  c.instances.find? (·.name = name)

/-- The connectors of the component, then those of its instances. -/
def allConnectors (c : Component) : List Connector :=
  c.connectors ++ c.instances.flatMap Instance.connectors

end Component

end Interconnect
