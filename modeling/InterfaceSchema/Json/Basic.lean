import InterfaceSchema.Json.Escape

namespace InterfaceSchema

inductive Json where
  | null
  | bool (value : Bool)
  | number (literal : String)
  | string (literal : String)
  | array (items : List Json)
  | object (fields : List (String × Json))

namespace Json

def ofText (s : String) : Json :=
  .string (escape s)

def ofNat (n : Nat) : Json :=
  .number n.repr

def ofTexts (texts : List String) : Json :=
  .array (texts.map ofText)

def ofFields (fields : List (String × Json)) : Json :=
  .object (fields.map fun field => (escape field.1, field.2))

def text? : Json → Option String
  | .string literal => unescape? literal
  | _ => none

mutual

def depth : Json → Nat
  | .array items => 1 + depthOfItems items
  | .object fields => 1 + depthOfFields fields
  | _ => 0

def depthOfItems : List Json → Nat
  | [] => 0
  | item :: rest => max (depth item) (depthOfItems rest)

def depthOfFields : List (String × Json) → Nat
  | [] => 0
  | (_, value) :: rest => max (depth value) (depthOfFields rest)

end

end Json

end InterfaceSchema
