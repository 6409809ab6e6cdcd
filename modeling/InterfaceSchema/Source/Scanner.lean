import InterfaceSchema.Source.LexError

namespace InterfaceSchema

structure Scanner where
  mode : Mode
  rest : List Char
  here : Position
  start : Position
  value : List Char
  deriving DecidableEq, Repr

inductive ScanStep where
  | advance (token : Option Token) (next : Scanner)
  | finished (endOfFile : Token)
  | failed (error : LexError)
  deriving DecidableEq, Repr

namespace Scanner

def ofText (text : String) : Scanner :=
  ⟨.start, text.toList, .origin, .origin, []⟩

def skip (s : Scanner) (c : Char) (rest : List Char) : Scanner :=
  { s with rest := rest, here := s.here.past c }

def take (s : Scanner) (c : Char) (rest : List Char) : Scanner :=
  { s with rest := rest, here := s.here.past c, value := c :: s.value }

def enter (s : Scanner) (mode : Mode) : Scanner :=
  { s with mode := mode }

def token (s : Scanner) (kind : TokenKind) : Token :=
  ⟨kind, String.ofList s.value.reverse, s.start, s.here.byte - s.start.byte⟩

def goto (s : Scanner) (mode : Mode) : ScanStep :=
  .advance none (s.enter mode)

def emit (s : Scanner) (kind : TokenKind) : ScanStep :=
  .advance (some (s.token kind)) { s with mode := .start, value := [] }

def emitLine (s : Scanner) : ScanStep :=
  .advance (some (s.token .endOfLine))
    { s with mode := .start, value := [], here := s.here.nextLine }

def fail (s : Scanner) (fault : LexFault) : ScanStep :=
  .failed ⟨fault, s.here⟩

def takeInString (s : Scanner) (c : Char) (rest : List Char) : Scanner :=
  let next := s.take c rest
  if c = '\n' then { next with here := next.here.nextLine } else next

def takeEscaped (s : Scanner) (c : Char) (rest : List Char) : Scanner :=
  { s.skip c rest with value := escaped c :: s.value }

def wordKind (s : Scanner) : TokenKind :=
  if isKeyword (String.ofList s.value.reverse) then .keyword else .identifier

def step (s : Scanner) : ScanStep :=
  match s.mode, s.rest with
  | .start, [] => .finished ({ s with start := s.here }.token .endOfFile)
  | .start, c :: _ =>
      match Mode.ofFirst? c with
      | some mode => { s with start := s.here }.goto mode
      | none => s.fail (.unexpectedCharacter c)
  | .bracket, c :: rest =>
      match bracketKind? c with
      | some kind => (s.take c rest).emit kind
      | none => s.fail (.invalidBracket c)
  | .comma, c :: rest => (s.take c rest).emit .separator
  | .slash, c :: rest => (s.take c rest).goto .secondSlash
  | .secondSlash, [] => s.fail .straySlash
  | .secondSlash, c :: rest =>
      if c = '/' then (s.take c rest).goto .comment else s.fail .straySlash
  | .comment, [] => s.emit .comment
  | .comment, c :: rest =>
      if isNewLine c then s.emit .comment else (s.take c rest).goto .comment
  | .quote, c :: rest => (s.skip c rest).goto .string
  | .string, [] => s.fail .unterminatedString
  | .string, c :: rest =>
      if c = '"' then s.goto .endQuote
      else if c = '\\' then (s.skip c rest).goto .escape
      else (s.takeInString c rest).goto .string
  | .escape, [] => s.fail .unterminatedString
  | .escape, c :: rest => (s.takeEscaped c rest).goto .string
  | .endQuote, c :: rest => (s.skip c rest).emit .stringValue
  | .lineBreak, c :: rest =>
      if c = '\r' then (s.take c rest).goto .lineFeed else (s.take c rest).emitLine
  | .lineFeed, [] => s.fail .strayReturn
  | .lineFeed, c :: rest =>
      if c = '\n' then (s.take c rest).emitLine else s.fail .strayReturn
  | .space, [] => s.emit .space
  | .space, c :: rest => if isSpace c then (s.take c rest).goto .space else s.emit .space
  | .whole, [] => s.emit .numberValue
  | .whole, c :: rest =>
      if c.isDigit then (s.take c rest).goto .whole
      else if c = '.' then (s.take c rest).goto .point
      else s.emit .numberValue
  | .point, [] => s.fail .missingFraction
  | .point, c :: rest =>
      if c.isDigit then (s.take c rest).goto .fraction
      else if c = '.' then s.fail .secondPoint
      else s.fail .missingFraction
  | .fraction, [] => s.emit .numberValue
  | .fraction, c :: rest =>
      if c.isDigit then (s.take c rest).goto .fraction
      else if c = '.' then s.fail .secondPoint
      else s.emit .numberValue
  | .word, [] => s.emit s.wordKind
  | .word, c :: rest => if isWordPart c then (s.take c rest).goto .word else s.emit s.wordKind
  | mode, [] => s.fail (.unexpectedEnd mode)

end Scanner

end InterfaceSchema
