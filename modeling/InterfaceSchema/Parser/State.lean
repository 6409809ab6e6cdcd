import InterfaceSchema.Parser.Error
import InterfaceSchema.Schema.Namespace

namespace InterfaceSchema

-- Namespaces and lists of type arguments are counted together.
def nestingLimit : Nat :=
  256

structure Scopes where
  inner : Namespace
  outer : List Namespace

-- The name is kept as a token, since a second definition of it is reported there.
structure Signature where
  name : Token
  input : List TypeRef

structure ArgumentList where
  name : String
  arguments : List TypeRef

inductive Slot where
  | property (record : RecordType)
  | input (signature : Signature)
  | output (signature : Signature)

inductive Place where
  | body
  | blockName (kind : BlockKind)
  | block (kind : BlockKind) (name : String)
  | optionName
  | optionValue (key : String)
  | property (record : RecordType)
  | propertyName (record : RecordType) (type : TypeRef)
  | member (enum : EnumType)
  | rpcName
  | inputs (name : Token)
  | input (signature : Signature)
  | inputEnd (signature : Signature)
  | output (signature : Signature)
  | argument (slot : Slot) (inner : ArgumentList) (outer : List ArgumentList)
  | argumentEnd (slot : Slot) (inner : ArgumentList) (outer : List ArgumentList)

inductive Focus where
  | place (place : Place)
  | typeName (slot : Slot) (lists : List ArgumentList) (name : String)

structure Parser where
  scopes : Scopes
  focus : Focus

def Signature.push (s : Signature) (type : TypeRef) : Signature :=
  { s with input := s.input ++ [type] }

def ArgumentList.push (l : ArgumentList) (type : TypeRef) : ArgumentList :=
  { l with arguments := l.arguments ++ [type] }

def Place.fault : Place → ParseFault
  | body => .definitionExpected
  | blockName kind => .nameExpected kind
  | block kind _ => .blockExpected kind
  | optionName => .optionNameExpected
  | optionValue _ => .optionValueExpected
  | property _ => .propertyExpected
  | propertyName _ _ => .propertyNameExpected
  | member _ => .memberExpected
  | rpcName => .rpcNameExpected
  | inputs _ => .inputsExpected
  | input _ => .inputExpected
  | inputEnd _ => .inputsUnfinished
  | output _ => .outputExpected
  | argument .. => .argumentExpected
  | argumentEnd .. => .argumentsUnfinished

def Place.endFault : Place → ParseFault
  | body => .blockUnclosed .scope
  | property _ => .blockUnclosed .type
  | member _ => .blockUnclosed .enum
  | place => place.fault

namespace Scopes

def initial : Scopes :=
  ⟨.root, []⟩

def mapInner (s : Scopes) (f : Namespace → Namespace) : Scopes :=
  { s with inner := f s.inner }

def addOption (s : Scopes) (key value : String) : Scopes :=
  s.mapInner fun ns => { ns with options := ns.options.insert key value }

def addType (s : Scopes) (type : RecordType) : Scopes :=
  s.mapInner fun ns => { ns with types := ns.types.add RecordType.name RecordType.merge type }

def addEnum (s : Scopes) (enum : EnumType) : Scopes :=
  s.mapInner fun ns => { ns with enums := ns.enums.add EnumType.name EnumType.merge enum }

def addRpc (s : Scopes) (rpc : Rpc) : Scopes :=
  s.mapInner fun ns => { ns with rpcs := ns.rpcs.addIfNew Rpc.name rpc }

def openScope (s : Scopes) (name : String) : Scopes :=
  ⟨.ofName name, s.inner :: s.outer⟩

def close? (s : Scopes) : Option Scopes :=
  match s.outer with
  | [] => none
  | parent :: outer =>
      some ⟨{ parent with children := Namespace.addChild parent.children s.inner }, outer⟩

def closeEvents (s : Scopes) : List Event :=
  match s.outer with
  | [] => []
  | parent :: _ => Namespace.addChildEvents parent.children s.inner

end Scopes

end InterfaceSchema
