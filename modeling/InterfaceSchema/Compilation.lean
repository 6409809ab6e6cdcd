import InterfaceSchema.Diagnostic
import InterfaceSchema.Parser.Step
import InterfaceSchema.Schema.Encoding
import InterfaceSchema.Source.Tokenize

namespace InterfaceSchema

def parseLexed (tokens : Except LexError (List Token)) : Logged (Except Diagnostic Namespace) :=
  match tokens with
  | .error error => .silent (.error (.ofLexError error))
  | .ok tokens => (parseTokens tokens).map (·.mapError .ofParseError)

def parseSource (text : String) : Logged (Except Diagnostic Namespace) :=
  parseLexed (tokenize TokenKind.layout text)

structure Compilation where
  root : Namespace
  sources : List String

namespace Compilation

def initial : Compilation :=
  ⟨.root, []⟩

def blank : Compilation :=
  ⟨.blank, []⟩

def parsedEvent (origin : String) (ns : Namespace) : Event :=
  .sourceParsed origin ns.types.size ns.enums.size ns.rpcs.size ns.children.size

def add (c : Compilation) (origin text : String) : Logged (Except Diagnostic Compilation) :=
  match parseSource text with
  | ⟨.error error, events⟩ => ⟨.error (.inSource origin error), events⟩
  | ⟨.ok parsed, events⟩ =>
      ⟨.ok ⟨c.root.merge parsed, c.sources ++ [origin]⟩,
        events ++ parsedEvent origin parsed :: c.root.collisions parsed⟩

def attempt (c : Compilation) (origin text : String) :
    Logged (Except Diagnostic Unit × Compilation) :=
  (c.add origin text).map fun
    | .error error => (.error error, c)
    | .ok next => (.ok (), next)

def addAll (c : Compilation) : List (String × String) → Logged (Except Diagnostic Compilation)
  | [] => .silent (.ok c)
  | (origin, text) :: rest =>
      match c.add origin text with
      | ⟨.error error, events⟩ => ⟨.error error, events⟩
      | ⟨.ok next, events⟩ => (next.addAll rest).after events

end Compilation

def compileSources (sources : List (String × String)) : Logged (Except Diagnostic Namespace) :=
  (Compilation.initial.addAll sources).map (·.map Compilation.root)

def compileToText (sources : List (String × String)) : Logged (Except Diagnostic String) :=
  (compileSources sources).map (·.map Namespace.toText)

end InterfaceSchema
