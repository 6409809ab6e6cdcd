import InterfaceSchema.Source.Token
import InterfaceSchema.Text.Alphabetic
import InterfaceSchema.Text.Ranges

namespace InterfaceSchema

def isNewLine (c : Char) : Bool :=
  c == '\r' || c == '\n'

def isSpace (c : Char) : Bool :=
  !isNewLine c && Text.isBlank c

def isBrace (c : Char) : Bool :=
  ['\x7b', '\x7d', '(', ')', '<', '>', '[', ']'].contains c

def isWordStart (c : Char) : Bool :=
  Text.isAlphabetic c || c == '_' || c == '-'

def isWordPart (c : Char) : Bool :=
  Text.isAlphabetic c || Text.isNumeric c || c == '_' || c == '-'

theorem isWordPart_of_isWordStart {c : Char} (h : isWordStart c = true) : isWordPart c = true := by
  simp only [isWordStart, isWordPart, Bool.or_eq_true] at h ⊢
  rcases h with (h | h) | h <;> simp [h]

def bracketKind? (c : Char) : Option TokenKind :=
  if c = '\x7b' then some .blockStart
  else if c = '\x7d' then some .blockEnd
  else if c = '(' then some .argumentsStart
  else if c = ')' then some .argumentsEnd
  else if c = '<' then some .typeArgumentsStart
  else if c = '>' then some .typeArgumentsEnd
  else none

def escaped (c : Char) : Char :=
  if c = 'r' then '\r' else if c = 'n' then '\n' else if c = 't' then '\t' else c

end InterfaceSchema
