import InterfaceSchema.Source.Character
import InterfaceSchema.Text.Printable

namespace InterfaceSchema

inductive Mode where
  | start
  | bracket
  | comma
  | slash
  | secondSlash
  | comment
  | quote
  | string
  | escape
  | endQuote
  | lineBreak
  | lineFeed
  | space
  | whole
  | point
  | fraction
  | word
  deriving DecidableEq, Repr

def Mode.ofFirst? (c : Char) : Option Mode :=
  if isBrace c then some .bracket
  else if c = ',' then some .comma
  else if c = '/' then some .slash
  else if c = '"' then some .quote
  else if isNewLine c then some .lineBreak
  else if isSpace c then some .space
  else if c.isDigit then some .whole
  else if isWordStart c then some .word
  else none

def Mode.label : Mode → String
  | .start => "Start"
  | .bracket => "Brace"
  | .comma => "Separator"
  | .slash => "CommentOpen"
  | .secondSlash => "CommentSecond"
  | .comment => "CommentBody"
  | .quote => "StringOpen"
  | .string => "StringBody"
  | .escape => "StringEscape"
  | .endQuote => "StringClose"
  | .lineBreak => "NewLine"
  | .lineFeed => "NewLineCrLf"
  | .space => "Space"
  | .whole => "Number"
  | .point => "FractionStart"
  | .fraction => "Fraction"
  | .word => "Identifier"

inductive LexFault where
  | unexpectedCharacter (c : Char)
  | invalidBracket (c : Char)
  | straySlash
  | unterminatedString
  | strayReturn
  | secondPoint
  | missingFraction
  | unexpectedEnd (mode : Mode)
  deriving DecidableEq, Repr

def LexFault.message : LexFault → String
  | .unexpectedCharacter c => "unexpected character `" ++ Text.showChar c ++ "`"
  | .invalidBracket c => "invalid brace `" ++ c.toString ++ "`"
  | .straySlash => "stray `/`, comments start with `//`"
  | .unterminatedString => "unterminated string at end of file"
  | .strayReturn => "stray \\r, malformed line endings"
  | .secondPoint => "multiple decimal separators in number literal"
  | .missingFraction => "digits expected after decimal separator"
  | .unexpectedEnd mode => "unexpected end of file in " ++ mode.label

structure LexError where
  fault : LexFault
  pos : Position
  deriving DecidableEq, Repr

end InterfaceSchema
