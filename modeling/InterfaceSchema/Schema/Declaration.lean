import InterfaceSchema.Schema.NameMap
import InterfaceSchema.Schema.TypeRef

namespace InterfaceSchema

structure Property where
  name : String
  type : TypeRef
  deriving DecidableEq

structure RecordType where
  name : String
  properties : NameMap Property
  deriving DecidableEq

structure EnumType where
  name : String
  members : List String
  deriving DecidableEq, Repr

structure Rpc where
  name : String
  input : List TypeRef
  output : List TypeRef
  deriving DecidableEq

namespace RecordType

def ofName (name : String) : RecordType :=
  ⟨name, .empty⟩

def addProperty (t : RecordType) (p : Property) : RecordType :=
  { t with properties := t.properties.addIfNew Property.name p }

def merge (self other : RecordType) : RecordType :=
  { self with
    properties := other.properties.values.foldl
      (NameMap.add Property.name fun _ new => new) self.properties }

end RecordType

namespace EnumType

def ofName (name : String) : EnumType :=
  ⟨name, []⟩

def lists (e : EnumType) (member : String) : Bool :=
  e.members.contains member

def push (e : EnumType) (member : String) : EnumType :=
  if e.lists member then e else { e with members := e.members ++ [member] }

def pushAll (e : EnumType) (members : List String) : EnumType :=
  members.foldl push e

def ofMembers (name : String) (members : List String) : EnumType :=
  (ofName name).pushAll members

def merge (self other : EnumType) : EnumType :=
  self.pushAll other.members

end EnumType

def Rpc.types (r : Rpc) : List TypeRef :=
  r.input ++ r.output

end InterfaceSchema
