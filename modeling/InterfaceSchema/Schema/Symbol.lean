namespace InterfaceSchema

abbrev PackageId := Nat

inductive SymbolKind where
  | type
  | enum
  deriving DecidableEq, Repr

def SymbolKind.label : SymbolKind → String
  | .type => "Type"
  | .enum => "Enum"

structure Symbol where
  name : String
  kind : SymbolKind
  package : PackageId
  deriving DecidableEq, Repr

end InterfaceSchema
