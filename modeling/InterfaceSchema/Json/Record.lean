import InterfaceSchema.Json.Reader
import InterfaceSchema.Schema.NameMap

namespace InterfaceSchema.Json

def depthLimit : Nat :=
  127

def namedFields? (fields : List (String × Json)) : Option (List (String × Json)) :=
  fields.mapM fun field => (unescape? field.1).map fun key => (key, field.2)

-- Fields of other names mean nothing and no field may stand twice. An array may end early.
def record? (names : List String) : Json → Option (List (Option Json))
  | .array items =>
      if items.length ≤ names.length then
        some (items.map some ++ List.replicate (names.length - items.length) none)
      else none
  | .object fields =>
      match namedFields? fields with
      | none => none
      | some fields =>
          if names.all fun name => fields.countP (·.1 == name) ≤ 1 then
            some (names.map fun name => fields.lookup name)
          else none
  | _ => none

def listField? {α : Type} (depth : Nat) (item? : Json → Option α) :
    Option Json → Option (List α)
  | none => some []
  | some (.array items) => if depth = 0 then none else items.mapM item?
  | some _ => none

-- Of two entries with one key the last counts.
def mapField? {α : Type} (depth : Nat) (item? : Json → Option α) :
    Option Json → Option (NameMap α)
  | none => some .empty
  | some (.object fields) =>
      if depth = 0 then none
      else
        match namedFields? fields with
        | none => none
        | some fields =>
            (fields.mapM fun field => (item? field.2).map fun value => (field.1, value)).map
              NameMap.ofList
  | some _ => none

def textField? (missing : String) : Option Json → Option String
  | none => some missing
  | some value => value.text?

def named? {α β : Type} (key : String) (field? : Option Json → Option β) (make : String → β → α)
    (document : Json) : Option α :=
  match record? ["name", key] document with
  | some [some name, field] =>
      match name.text?, field? field with
      | some name, some value => some (make name value)
      | _, _ => none
  | _ => none

end InterfaceSchema.Json
