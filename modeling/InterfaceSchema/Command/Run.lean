import InterfaceSchema.Command.Arguments
import InterfaceSchema.Command.Inputs
import InterfaceSchema.Command.Report
import InterfaceSchema.Package.Outline

namespace InterfaceSchema.Command

structure Outcome where
  status : Nat
  stdout : String
  stderr : String
  deriving DecidableEq, Repr

def encodePosition (p : Position) : Json :=
  .ofFields [("byte", .ofNat p.byte), ("line", .ofNat p.line), ("col", .ofNat p.col)]

def encodeToken (t : Token) : Json :=
  .ofFields
    [("kind", .ofText t.kind.label), ("value", .ofText t.value), ("pos", encodePosition t.pos),
     ("len", .ofNat t.len)]

def tokenLines (tokens : List Token) : String :=
  String.join (tokens.map fun t => (encodeToken t).compact ++ "\n")

-- The tokens of a source before a failure stay written.
def lexSources (written : String) : List (String × String) → Outcome
  | [] => ⟨0, written, ""⟩
  | (origin, text) :: rest =>
      match tokenize [] text with
      | .ok tokens => lexSources (written ++ tokenLines tokens) rest
      | .error error => ⟨1, written, errorLine (.inSource origin (.ofLexError error))⟩

def Flags.limit (flags : Flags) : Level :=
  if flags.quiet then .error else if flags.verbose then .debug else .warn

def conclude (colored : Bool) (limit : Level) (result : Logged (Except Diagnostic String)) :
    Outcome :=
  let reported := eventLines colored limit result.events
  match result.value with
  | .ok text => ⟨0, text ++ "\n", reported⟩
  | .error d => ⟨1, "", reported ++ errorLine d⟩

def loadConfig (inputs : Inputs) (i : Invocation) : Except Diagnostic Config :=
  match i.settings.lookup .config with
  | none => .ok (i.configure .standard)
  | some path =>
      match inputs.readText path with
      | .error fault => .error (.file fault)
      | .ok text =>
          match Config.ofText? text with
          | none => .error .json
          | some config => .ok (i.configure config)

def failWith (d : Diagnostic) : Outcome :=
  ⟨1, "", errorLine d⟩

def run (colored : Bool) (inputs : Inputs) (i : Invocation) : Outcome :=
  match i.verb with
  | .lex =>
      match inputs.sources i.files with
      | .error d => failWith d
      | .ok sources => lexSources "" sources
  | .parse =>
      match inputs.sources i.files with
      | .error d => failWith d
      | .ok sources => conclude colored i.flags.limit (compileToText sources)
  | .packages =>
      match loadConfig inputs i with
      | .error d => failWith d
      | .ok config =>
          match inputs.sources i.files with
          | .error d => failWith d
          | .ok sources => conclude colored i.flags.limit (outlineToText config sources)

end InterfaceSchema.Command
