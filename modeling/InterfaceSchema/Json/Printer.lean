import InterfaceSchema.Json.Basic

namespace InterfaceSchema.Json

def boolText (value : Bool) : String :=
  if value then "true" else "false"

def literalText (literal : String) : String :=
  "\"" ++ literal ++ "\""

mutual

def compactOnto (out : String) : Json → String
  | .null => out ++ "null"
  | .bool value => out ++ boolText value
  | .number literal => out ++ literal
  | .string literal => out ++ literalText literal
  | .array [] => out ++ "[]"
  | .array (item :: rest) => compactItems (compactOnto (out ++ "[") item) rest ++ "]"
  | .object [] => out ++ "\x7b\x7d"
  | .object ((key, value) :: rest) =>
      compactFields (compactOnto (out ++ "\x7b" ++ literalText key ++ ":") value) rest ++ "\x7d"

def compactItems (out : String) : List Json → String
  | [] => out
  | item :: rest => compactItems (compactOnto (out ++ ",") item) rest

def compactFields (out : String) : List (String × Json) → String
  | [] => out
  | (key, value) :: rest =>
      compactFields (compactOnto (out ++ "," ++ literalText key ++ ":") value) rest

end

def compact (document : Json) : String :=
  compactOnto "" document

def newLine (level : Nat) : String :=
  String.ofList ('\n' :: List.replicate (2 * level) ' ')

mutual

def prettyOnto (level : Nat) (out : String) : Json → String
  | .null => out ++ "null"
  | .bool value => out ++ boolText value
  | .number literal => out ++ literal
  | .string literal => out ++ literalText literal
  | .array [] => out ++ "[]"
  | .array (item :: rest) =>
      prettyItems (level + 1) (prettyOnto (level + 1) (out ++ "[" ++ newLine (level + 1)) item) rest
        ++ newLine level ++ "]"
  | .object [] => out ++ "\x7b\x7d"
  | .object ((key, value) :: rest) =>
      prettyFields (level + 1)
          (prettyOnto (level + 1)
            (out ++ "\x7b" ++ newLine (level + 1) ++ literalText key ++ ": ") value)
          rest
        ++ newLine level ++ "\x7d"

def prettyItems (level : Nat) (out : String) : List Json → String
  | [] => out
  | item :: rest => prettyItems level (prettyOnto level (out ++ "," ++ newLine level) item) rest

def prettyFields (level : Nat) (out : String) : List (String × Json) → String
  | [] => out
  | (key, value) :: rest =>
      prettyFields level
        (prettyOnto level (out ++ "," ++ newLine level ++ literalText key ++ ": ") value) rest

end

def pretty (document : Json) : String :=
  prettyOnto 0 "" document

end InterfaceSchema.Json
