import InterfaceSchema.Json.Escape

namespace InterfaceSchema.Json

inductive Lexeme where
  | objectStart
  | objectEnd
  | arrayStart
  | arrayEnd
  | colon
  | comma
  | null
  | bool (value : Bool)
  | number (literal : String)
  | string (literal : String)
  deriving DecidableEq, Repr

inductive NumberPart where
  | sign
  | zero
  | whole
  | point
  | fraction
  | exponent
  | exponentSign
  | exponentDigits
  deriving DecidableEq, Repr

namespace NumberPart

def isExponentMark (c : Char) : Bool :=
  c == 'e' || c == 'E'

def next? : NumberPart → Char → Option NumberPart
  | sign, c => if c = '0' then some zero else if c.isDigit then some whole else none
  | zero, c => if c = '.' then some point else if isExponentMark c then some exponent else none
  | whole, c =>
      if c.isDigit then some whole
      else if c = '.' then some point
      else if isExponentMark c then some exponent
      else none
  | point, c => if c.isDigit then some fraction else none
  | fraction, c =>
      if c.isDigit then some fraction else if isExponentMark c then some exponent else none
  | exponent, c =>
      if c = '+' || c = '-' then some exponentSign
      else if c.isDigit then some exponentDigits
      else none
  | exponentSign, c => if c.isDigit then some exponentDigits else none
  | exponentDigits, c => if c.isDigit then some exponentDigits else none

def complete : NumberPart → Bool
  | zero => true
  | whole => true
  | fraction => true
  | exponentDigits => true
  | _ => false

end NumberPart

-- What was read of a literal is kept latest first. `left` is what comes after the next character of
-- a word or of a code.
inductive LexemeMode where
  | between
  | word (next : Char) (left : List Char) (lexeme : Lexeme)
  | number (part : NumberPart) (read : List Char)
  | string (read : List Char)
  | escape (read : List Char)
  | hex (left : Nat) (read : List Char)
  deriving DecidableEq, Repr

namespace LexemeMode

def isBlank (c : Char) : Bool :=
  c == ' ' || c == '\n' || c == '\t' || c == '\r'

def start? (c : Char) : Option (List Lexeme × LexemeMode) :=
  if isBlank c then some ([], between)
  else if c = '\x7b' then some ([.objectStart], between)
  else if c = '\x7d' then some ([.objectEnd], between)
  else if c = '[' then some ([.arrayStart], between)
  else if c = ']' then some ([.arrayEnd], between)
  else if c = ':' then some ([.colon], between)
  else if c = ',' then some ([.comma], between)
  else if c = '"' then some ([], string [])
  else if c = 'n' then some ([], word 'u' ['l', 'l'] .null)
  else if c = 't' then some ([], word 'r' ['u', 'e'] (.bool true))
  else if c = 'f' then some ([], word 'a' ['l', 's', 'e'] (.bool false))
  else if c = '-' then some ([], number .sign [c])
  else if c = '0' then some ([], number .zero [c])
  else if c.isDigit then some ([], number .whole [c])
  else none

def step? : LexemeMode → Char → Option (List Lexeme × LexemeMode)
  | between, c => start? c
  | word last [] lexeme, c => if c = last then some ([lexeme], between) else none
  | word next (c' :: left) lexeme, c => if c = next then some ([], word c' left lexeme) else none
  | number part read, c =>
      match part.next? c with
      | some part => some ([], number part (c :: read))
      | none =>
          if part.complete then
            (start? c).map fun (lexemes, mode) =>
              (.number (String.ofList read.reverse) :: lexemes, mode)
          else none
  | string read, c =>
      if c = '"' then some ([.string (String.ofList read.reverse)], between)
      else if c = '\\' then some ([], escape (c :: read))
      else if c.toNat < 0x20 then none
      else some ([], string (c :: read))
  | escape read, c =>
      if c = 'u' then some ([], hex 3 (c :: read))
      else if (escapeValue? c).isSome then some ([], string (c :: read))
      else none
  | hex 0 read, c => if isHexDigit c then some ([], string (c :: read)) else none
  | hex (left + 1) read, c => if isHexDigit c then some ([], hex left (c :: read)) else none

def finish? : LexemeMode → Option (List Lexeme)
  | between => some []
  | number part read =>
      if part.complete then some [.number (String.ofList read.reverse)] else none
  | _ => none

end LexemeMode

def lexemesOnto (read : List Lexeme) (mode : LexemeMode) : List Char → Option (List Lexeme)
  | [] => mode.finish?.map fun lexemes => read.reverse ++ lexemes
  | c :: rest =>
      match mode.step? c with
      | none => none
      | some (lexemes, next) => lexemesOnto (lexemes.reverse ++ read) next rest

def lexemes? (text : String) : Option (List Lexeme) :=
  lexemesOnto [] .between text.toList

end InterfaceSchema.Json
