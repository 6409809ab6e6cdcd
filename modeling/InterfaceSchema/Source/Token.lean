import InterfaceSchema.Schema.Builtin

namespace InterfaceSchema

structure Position where
  byte : Nat
  line : Nat
  col : Nat
  deriving DecidableEq, Repr

namespace Position

def origin : Position :=
  ⟨0, 0, 0⟩

def past (p : Position) (c : Char) : Position :=
  ⟨p.byte + c.utf8Size, p.line, p.col + 1⟩

def nextLine (p : Position) : Position :=
  ⟨p.byte, p.line + 1, 0⟩

def describe (p : Position) : String :=
  s!"line {p.line + 1}, column {p.col + 1}"

end Position

inductive TokenKind where
  | space
  | endOfLine
  | endOfFile
  | blockStart
  | blockEnd
  | argumentsStart
  | argumentsEnd
  | separator
  | typeArgumentsStart
  | typeArgumentsEnd
  | comment
  | identifier
  | keyword
  | stringValue
  | numberValue
  deriving DecidableEq, Repr

namespace TokenKind

def all : List TokenKind :=
  [space, endOfLine, endOfFile, blockStart, blockEnd, argumentsStart, argumentsEnd, separator,
   typeArgumentsStart, typeArgumentsEnd, comment, identifier, keyword, stringValue, numberValue]

def label : TokenKind → String
  | space => "whitespace"
  | endOfLine => "end-of-line"
  | endOfFile => "end-of-file"
  | blockStart => "block-start"
  | blockEnd => "block-end"
  | argumentsStart => "arg-list-start"
  | argumentsEnd => "arg-list-end"
  | separator => "arg-list-sep"
  | typeArgumentsStart => "type-arg-list-start"
  | typeArgumentsEnd => "type-arg-list-end"
  | comment => "comment"
  | identifier => "identifier"
  | keyword => "keyword"
  | stringValue => "value-string"
  | numberValue => "value-number"

def ofLabel? (s : String) : Option TokenKind :=
  all.find? (·.label == s)

def layout : List TokenKind :=
  [space, endOfLine, comment]

def arrange (kinds : List TokenKind) : List TokenKind :=
  all.filter (kinds.contains ·)

def isName : TokenKind → Bool
  | identifier => true
  | keyword => true
  | _ => false

theorem ne_of_isName {k : TokenKind} (h : k.isName) (other : TokenKind)
    (hother : other.isName = false) : k ≠ other := by
  rintro rfl
  exact Bool.false_ne_true (hother.symm.trans h)

theorem mem_all (k : TokenKind) : k ∈ all := by
  cases k <;> decide

theorem ofLabel?_label (k : TokenKind) : ofLabel? k.label = some k := by
  cases k <;> decide

end TokenKind

def keywords : List String :=
  ["option", "include", "root", "namespace", "type", "enum", "rpc"] ++ Builtin.all.map Builtin.word

def isKeyword (w : String) : Bool :=
  keywords.contains w

structure Token where
  kind : TokenKind
  value : String
  pos : Position
  len : Nat
  deriving DecidableEq, Repr

def Token.sourceText (t : Token) (text : String) : String :=
  String.Pos.Raw.extract text ⟨t.pos.byte⟩ ⟨t.pos.byte + t.len⟩

end InterfaceSchema
