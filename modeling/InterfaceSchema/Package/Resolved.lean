import InterfaceSchema.Schema.Symbol

namespace InterfaceSchema

inductive ResolvedType where
  | unit
  | simple (name : String)
  | time
  | bytes
  | list (element : ResolvedType)
  | map (key value : ResolvedType)
  | record (name : String) (package : PackageId)
  | enum (name : String) (package : PackageId)
  | unknown
  deriving DecidableEq, Repr

namespace ResolvedType

def owner? : ResolvedType → Option PackageId
  | record _ package => some package
  | enum _ package => some package
  | _ => none

def owners : ResolvedType → List PackageId
  | list element => element.owners
  | map key value => key.owners ++ value.owners
  | record _ package => [package]
  | enum _ package => [package]
  | _ => []

def isKnown : ResolvedType → Bool
  | unknown => false
  | list element => element.isKnown
  | map key value => key.isKnown && value.isKnown
  | _ => true

def text : ResolvedType → String
  | unit => "unit"
  | simple name => name
  | time => "time"
  | bytes => "data"
  | list element => "list<" ++ element.text ++ ">"
  | map key value => "map<" ++ key.text ++ "," ++ value.text ++ ">"
  | record name _ => name
  | enum name _ => name
  | unknown => "?"

end ResolvedType

end InterfaceSchema
