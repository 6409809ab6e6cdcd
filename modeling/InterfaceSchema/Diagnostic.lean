import InterfaceSchema.Parser.Error
import InterfaceSchema.Source.LexError

namespace InterfaceSchema

inductive FileFault where
  | notFound
  | notDirectory
  | isDirectory
  | nameTooLong
  | accessDenied
  | notText
  deriving DecidableEq, Repr

inductive Diagnostic where
  | lexical (message : String) (pos : Position)
  | grammatical (message near : String) (pos : Position)
  | inSource (origin : String) (cause : Diagnostic)
  | json
  | file (fault : FileFault)
  deriving DecidableEq, Repr

def FileFault.message : FileFault → String
  | notFound => "No such file or directory"
  | notDirectory => "Not a directory"
  | isDirectory => "Is a directory"
  | nameTooLong => "File name too long"
  | accessDenied => "Permission denied"
  | notText => "stream did not contain valid UTF-8"

namespace Diagnostic

def ofLexError (e : LexError) : Diagnostic :=
  .lexical e.fault.message e.pos

def ofParseError (e : ParseError) : Diagnostic :=
  .grammatical e.fault.message e.near e.token.pos

def pos? : Diagnostic → Option Position
  | lexical _ pos => some pos
  | grammatical _ _ pos => some pos
  | inSource _ cause => cause.pos?
  | json => none
  | file _ => none

def text : Diagnostic → String
  | lexical message pos => "Lex error at " ++ pos.describe ++ ": " ++ message
  | grammatical message near pos =>
      "Parse error at " ++ pos.describe ++ ", near " ++ near ++ ": " ++ message
  | inSource origin cause => origin ++ ": " ++ cause.text
  | json => "JSON error"
  | file fault => "I/O error: " ++ fault.message

def label : Diagnostic → String
  | lexical .. => "LexError"
  | grammatical .. => "ParseError"
  | inSource .. => "InSource"
  | json => "Json"
  | file _ => "Io"

end Diagnostic

end InterfaceSchema
