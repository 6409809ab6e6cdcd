import InterfaceSchema.Json.Printer
import InterfaceSchema.Json.Record
import InterfaceSchema.Schema.Node

namespace InterfaceSchema

open Json (ofText ofTexts ofFields record? named? listField? mapField?)

namespace TypeRef

mutual

def encode : TypeRef → Json
  | ⟨name, arguments⟩ =>
      ofFields [("name", ofText name), ("arguments", .array (encodeAll arguments))]

def encodeAll : List TypeRef → List Json
  | [] => []
  | type :: rest => encode type :: encodeAll rest

end

def decode? : Nat → Json → Option TypeRef
  | 0, _ => none
  | 1, document => named? "arguments" (listField? 0 fun _ => none) mk document
  | depth + 2, document => named? "arguments" (listField? (depth + 1) (decode? depth)) mk document

end TypeRef

def NameMap.encode {α : Type} (item : α → Json) (m : NameMap α) : Json :=
  ofFields (m.entries.map fun entry => (entry.1, item entry.2))

namespace Property

def encode (p : Property) : Json :=
  ofFields [("name", ofText p.name), ("type", p.type.encode)]

def decode? : Nat → Json → Option Property
  | 0, _ => none
  | depth + 1, document => named? "type" (·.bind (TypeRef.decode? depth)) mk document

end Property

namespace RecordType

def encode (t : RecordType) : Json :=
  ofFields [("name", ofText t.name), ("properties", t.properties.encode Property.encode)]

def decode? : Nat → Json → Option RecordType
  | 0, _ => none
  | depth + 1, document =>
      named? "properties" (mapField? depth (Property.decode? (depth - 1))) mk document

end RecordType

namespace EnumType

def encode (e : EnumType) : Json :=
  ofFields [("name", ofText e.name), ("members", ofTexts e.members)]

def decode? : Nat → Json → Option EnumType
  | 0, _ => none
  | depth + 1, document => named? "members" (listField? depth Json.text?) mk document

end EnumType

namespace Rpc

def encode (r : Rpc) : Json :=
  ofFields
    [("name", ofText r.name), ("input", .array (TypeRef.encodeAll r.input)),
     ("output", .array (TypeRef.encodeAll r.output))]

def decode? : Nat → Json → Option Rpc
  | 0, _ => none
  | depth + 1, document =>
      match record? ["name", "input", "output"] document with
      | some [some name, input, output] =>
          let type? := TypeRef.decode? (depth - 1)
          match name.text?, listField? depth type? input, listField? depth type? output with
          | some name, some input, some output => some ⟨name, input, output⟩
          | _, _, _ => none
      | _ => none

end Rpc

namespace Namespace

def fieldNames : List String :=
  ["name", "children", "options", "types", "enums", "rpcs"]

mutual

def encode : Namespace → Json
  | ⟨name, ⟨children⟩, options, types, enums, rpcs⟩ =>
      ofFields
        [("name", ofText name), ("children", ofFields (encodeEntries children)),
         ("options", options.encode ofText), ("types", types.encode RecordType.encode),
         ("enums", enums.encode EnumType.encode), ("rpcs", rpcs.encode Rpc.encode)]

def encodeEntries : List (String × Namespace) → List (String × Json)
  | [] => []
  | (key, child) :: rest => (key, encode child) :: encodeEntries rest

end

def decodeRecord? (depth : Nat) (child? : Json → Option Namespace) (document : Json) :
    Option Namespace :=
  match record? fieldNames document with
  | some [some name, children, options, types, enums, rpcs] =>
      match name.text?, mapField? depth child? children, mapField? depth Json.text? options,
        mapField? depth (RecordType.decode? (depth - 1)) types,
        mapField? depth (EnumType.decode? (depth - 1)) enums,
        mapField? depth (Rpc.decode? (depth - 1)) rpcs with
      | some name, some children, some options, some types, some enums, some rpcs =>
          some ⟨name, children, options, types, enums, rpcs⟩
      | _, _, _, _, _, _ => none
  | _ => none

def decode? : Nat → Json → Option Namespace
  | 0, _ => none
  | 1, document => decodeRecord? 0 (fun _ => none) document
  | depth + 2, document => decodeRecord? (depth + 1) (decode? depth) document

def toText (ns : Namespace) : String :=
  ns.encode.pretty

def ofText? (text : String) : Option Namespace :=
  (Json.parse? text).bind (decode? Json.depthLimit)

end Namespace

namespace Node

def encode : Node → Json
  | scope ns => ns.encode
  | type t => t.encode
  | enum e => e.encode
  | rpc r => r.encode
  | property p => p.encode
  | typeRef t => t.encode

def decode? (kind : NodeKind) (depth : Nat) (document : Json) : Option Node :=
  match kind with
  | .scope => (Namespace.decode? depth document).map scope
  | .type => (RecordType.decode? depth document).map type
  | .enum => (EnumType.decode? depth document).map enum
  | .rpc => (Rpc.decode? depth document).map rpc
  | .property => (Property.decode? depth document).map property
  | .typeRef => (TypeRef.decode? depth document).map typeRef

end Node

end InterfaceSchema
