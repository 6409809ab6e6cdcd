import InterfaceSchema.Schema.Namespace

namespace InterfaceSchema

inductive NodeKind where
  | scope
  | type
  | enum
  | rpc
  | property
  | typeRef
  deriving DecidableEq, Repr

namespace NodeKind

def all : List NodeKind :=
  [scope, type, enum, rpc, property, typeRef]

def label : NodeKind → String
  | scope => "namespace"
  | type => "type"
  | enum => "enum"
  | rpc => "rpc"
  | property => "property"
  | typeRef => "type reference"

def ofLabel? (s : String) : Option NodeKind :=
  all.find? (·.label == s)

end NodeKind

inductive Node where
  | scope (ns : Namespace)
  | type (type : RecordType)
  | enum (enum : EnumType)
  | rpc (rpc : Rpc)
  | property (property : Property)
  | typeRef (type : TypeRef)

namespace Node

def name : Node → String
  | scope ns => ns.name
  | type t => t.name
  | enum e => e.name
  | rpc r => r.name
  | property p => p.name
  | typeRef t => t.name

def kind : Node → NodeKind
  | scope _ => .scope
  | type _ => .type
  | enum _ => .enum
  | rpc _ => .rpc
  | property _ => .property
  | typeRef _ => .typeRef

-- Nodes of different kinds do not merge: the incoming one replaces the other.
def merge : Node → Node → Node
  | scope existing, scope incoming => .scope (existing.merge incoming)
  | type existing, type incoming => .type (existing.merge incoming)
  | enum existing, enum incoming => .enum (existing.merge incoming)
  | _, incoming => incoming

def mergeEvents : Node → Node → List Event
  | scope existing, scope incoming => existing.collisions incoming
  | _, _ => []

theorem kind_merge (existing incoming : Node) : (existing.merge incoming).kind = incoming.kind := by
  cases existing <;> cases incoming <;> rfl

def addTo (nodes : NameMap Node) (node : Node) : NameMap Node :=
  NameMap.add name merge nodes node

def addEvents (nodes : NameMap Node) (node : Node) : List Event :=
  match nodes.get? node.name with
  | none => []
  | some old => mergeEvents old node

end Node

end InterfaceSchema
