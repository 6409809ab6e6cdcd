import InterfaceSchema.Json.Record

namespace InterfaceSchema

structure Config where
  nameOption : String
  importOption : String
  defaultName : String
  defaultImportPath : String
  manglePrefix : String
  deriving DecidableEq, Repr

namespace Config

def standard : Config :=
  { nameOption := "package"
    importOption := "import"
    defaultName := "rpc"
    defaultImportPath := ""
    manglePrefix := "rpc" }

def fieldNames : List String :=
  ["name_option", "import_option", "default_name", "default_import_path", "mangle_prefix"]

def decode? (document : Json) : Option Config :=
  match Json.record? fieldNames document with
  | some [nameOption, importOption, defaultName, defaultImportPath, manglePrefix] =>
      match Json.textField? standard.nameOption nameOption,
        Json.textField? standard.importOption importOption,
        Json.textField? standard.defaultName defaultName,
        Json.textField? standard.defaultImportPath defaultImportPath,
        Json.textField? standard.manglePrefix manglePrefix with
      | some nameOption, some importOption, some defaultName, some defaultImportPath,
        some manglePrefix =>
          some ⟨nameOption, importOption, defaultName, defaultImportPath, manglePrefix⟩
      | _, _, _, _, _ => none
  | _ => none

def ofText? (text : String) : Option Config :=
  (Json.parse? text).bind decode?

def encode (c : Config) : Json :=
  Json.ofFields
    [("name_option", .ofText c.nameOption), ("import_option", .ofText c.importOption),
     ("default_name", .ofText c.defaultName),
     ("default_import_path", .ofText c.defaultImportPath),
     ("mangle_prefix", .ofText c.manglePrefix)]

end Config

end InterfaceSchema
