import InterfaceSchema.Package.Config

namespace InterfaceSchema.Command

inductive Verb where
  | lex
  | parse
  | packages
  deriving DecidableEq, Repr

def Verb.ofWord? : String → Option Verb
  | "lex" => some .lex
  | "parse" => some .parse
  | "packages" => some .packages
  | _ => none

structure Flags where
  quiet : Bool
  verbose : Bool
  deriving DecidableEq, Repr

inductive Setting where
  | config
  | nameOption
  | importOption
  | defaultName
  | defaultImportPath
  | manglePrefix
  deriving DecidableEq, Repr

def Setting.ofWord? : String → Option Setting
  | "--config" => some .config
  | "--name-option" => some .nameOption
  | "--import-option" => some .importOption
  | "--default-name" => some .defaultName
  | "--default-import-path" => some .defaultImportPath
  | "--mangle-prefix" => some .manglePrefix
  | _ => none

structure Invocation where
  verb : Verb
  flags : Flags
  files : List String
  settings : List (Setting × String)
  deriving DecidableEq, Repr

def Flags.none : Flags :=
  ⟨false, false⟩

def Flags.add? (flags : Flags) (word : String) : Option Flags :=
  if flags.quiet || flags.verbose then Option.none
  else if word = "-q" || word = "--quiet" then some ⟨true, false⟩
  else if word = "-v" || word = "--verbose" then some ⟨false, true⟩
  else Option.none

def Flags.isWord (word : String) : Bool :=
  ["-q", "--quiet", "-v", "--verbose"].contains word

def Flags.union (first second : Flags) : Flags :=
  ⟨first.quiet || second.quiet, first.verbose || second.verbose⟩

def isOption (word : String) : Bool :=
  match word.toList with
  | '-' :: _ :: _ => true
  | _ => false

def splitOption (word : String) : String × Option String :=
  match word.toList.dropWhile (· != '=') with
  | [] => (word, none)
  | _ :: value => (String.ofList (word.toList.takeWhile (· != '=')), some (String.ofList value))

def Invocation.set? (i : Invocation) (setting : Setting) (value : String) : Option Invocation :=
  if i.verb != .packages || (i.settings.lookup setting).isSome then none
  else if setting = .config && value.isEmpty then none
  else some { i with settings := i.settings ++ [(setting, value)] }

def Invocation.addFile? (i : Invocation) (name : String) : Option Invocation :=
  if name.isEmpty then none else some { i with files := i.files ++ [name] }

def Invocation.addFiles? (i : Invocation) : List String → Option Invocation
  | [] => some i
  | name :: rest => (i.addFile? name).bind (·.addFiles? rest)

def Invocation.read? (i : Invocation) : List String → Option Invocation
  | [] => some i
  | word :: rest =>
      if word = "--" then i.addFiles? rest
      else if Flags.isWord word then
        (i.flags.add? word).bind fun flags => { i with flags := flags }.read? rest
      else if isOption word then
        match splitOption word with
        | (name, some value) =>
            ((Setting.ofWord? name).bind (i.set? · value)).bind (·.read? rest)
        | (name, none) =>
            match rest with
            | [] => none
            | value :: rest =>
                if isOption value then none
                else ((Setting.ofWord? name).bind (i.set? · value)).bind (·.read? rest)
      else (i.addFile? word).bind (·.read? rest)

def Invocation.ofWords? (flags : Flags) : List String → Option Invocation
  | [] => none
  | word :: rest =>
      if Flags.isWord word then (flags.add? word).bind (ofWords? · rest)
      else
        (Verb.ofWord? word).bind fun verb =>
          (Invocation.read? ⟨verb, .none, [], []⟩ rest).map fun i =>
            { i with flags := flags.union i.flags }

def Invocation.configure (i : Invocation) (base : Config) : Config :=
  { nameOption := (i.settings.lookup .nameOption).getD base.nameOption
    importOption := (i.settings.lookup .importOption).getD base.importOption
    defaultName := (i.settings.lookup .defaultName).getD base.defaultName
    defaultImportPath := (i.settings.lookup .defaultImportPath).getD base.defaultImportPath
    manglePrefix := (i.settings.lookup .manglePrefix).getD base.manglePrefix }

end InterfaceSchema.Command
