import InterfaceSchema.Diagnostic
import InterfaceSchema.Log
import InterfaceSchema.Text.Printable

namespace InterfaceSchema.Command

open Text (showText)

def shownRecord (name : String) (fields : List (String × String)) : String :=
  name ++ " \x7b " ++
    ", ".intercalate (fields.map fun field => field.1 ++ ": " ++ field.2) ++ " \x7d"

def shownPosition (p : Position) : String :=
  shownRecord "Pos" [("byte", p.byte.repr), ("line", p.line.repr), ("col", p.col.repr)]

def shownSystemFault (code : Nat) (kind : String) (fault : FileFault) : String :=
  shownRecord "Os" [("code", code.repr), ("kind", kind), ("message", showText fault.message)]

def shownFault : FileFault → String
  | .notFound => shownSystemFault 2 "NotFound" .notFound
  | .notDirectory => shownSystemFault 20 "NotADirectory" .notDirectory
  | .isDirectory => shownSystemFault 21 "IsADirectory" .isDirectory
  | .nameTooLong => shownSystemFault 36 "InvalidFilename" .nameTooLong
  | .accessDenied => shownSystemFault 13 "PermissionDenied" .accessDenied
  | .notText =>
      shownRecord "Error" [("kind", "InvalidData"), ("message", showText FileFault.notText.message)]

def shownDiagnostic : Diagnostic → String
  | .lexical message pos =>
      shownRecord "LexError" [("msg", showText message), ("pos", shownPosition pos)]
  | .grammatical message near pos =>
      shownRecord "ParseError"
        [("msg", showText message), ("near", showText near), ("pos", shownPosition pos)]
  | .inSource origin cause =>
      shownRecord "InSource" [("origin", showText origin), ("source", shownDiagnostic cause)]
  | .json => "Json"
  | .file fault => "Io(" ++ shownFault fault ++ ")"

def errorLine (d : Diagnostic) : String :=
  "Error: " ++ shownDiagnostic d ++ "\n"

def levelTag : Level → String
  | .error => "ERROR"
  | .warn => "WARN "
  | .debug => "DEBUG"
  | .trace => "TRACE"

def levelColor : Level → Nat
  | .error => 31
  | .warn => 33
  | .debug => 36
  | .trace => 35

def resetColor : String :=
  "\x1b[0m"

def frameColor : String :=
  resetColor ++ "\x1b[38;2;127;140;141m"

def eventColor (level : Level) : String :=
  resetColor ++ "\x1b[" ++ (levelColor level).repr ++ "m"

def eventLine (colored : Bool) (e : Event) : String :=
  let tag := levelTag e.level ++ " " ++ e.topic
  if colored then
    frameColor ++ "[ " ++ eventColor e.level ++ tag ++ frameColor ++ " ] " ++ resetColor ++
      e.message ++ "\n"
  else "[ " ++ tag ++ " ] " ++ e.message ++ "\n"

def eventLines (colored : Bool) (limit : Level) (events : List Event) : String :=
  String.join ((shownEvents limit events).map (eventLine colored))

end InterfaceSchema.Command
