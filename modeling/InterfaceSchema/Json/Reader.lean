import InterfaceSchema.Json.Basic
import InterfaceSchema.Json.Lexeme

namespace InterfaceSchema.Json

inductive Frame where
  | array (items : List Json)
  | object (fields : List (String × Json)) (key : String)

inductive Focus where
  | value
  | firstItem
  | firstKey
  | key (fields : List (String × Json))
  | colon (fields : List (String × Json)) (key : String)
  | done (value : Json)

structure Reader where
  stack : List Frame
  focus : Focus

namespace Reader

def initial : Reader :=
  ⟨[], .value⟩

def startValue? (stack : List Frame) : Lexeme → Option Reader
  | .null => some ⟨stack, .done .null⟩
  | .bool value => some ⟨stack, .done (.bool value)⟩
  | .number literal => some ⟨stack, .done (.number literal)⟩
  | .string literal => some ⟨stack, .done (.string literal)⟩
  | .arrayStart => some ⟨stack, .firstItem⟩
  | .objectStart => some ⟨stack, .firstKey⟩
  | _ => none

def afterValue? (v : Json) : List Frame → Lexeme → Option Reader
  | .array items :: stack, .comma => some ⟨.array (v :: items) :: stack, .value⟩
  | .array items :: stack, .arrayEnd => some ⟨stack, .done (.array (v :: items).reverse)⟩
  | .object fields key :: stack, .comma => some ⟨stack, .key ((key, v) :: fields)⟩
  | .object fields key :: stack, .objectEnd =>
      some ⟨stack, .done (.object ((key, v) :: fields).reverse)⟩
  | _, _ => none

def step? (r : Reader) (lexeme : Lexeme) : Option Reader :=
  match r.focus, lexeme with
  | .value, _ => startValue? r.stack lexeme
  | .firstItem, .arrayEnd => some ⟨r.stack, .done (.array [])⟩
  | .firstItem, _ => startValue? (.array [] :: r.stack) lexeme
  | .firstKey, .objectEnd => some ⟨r.stack, .done (.object [])⟩
  | .firstKey, .string key => some ⟨r.stack, .colon [] key⟩
  | .key fields, .string key => some ⟨r.stack, .colon fields key⟩
  | .colon fields key, .colon => some ⟨.object fields key :: r.stack, .value⟩
  | .done v, _ => afterValue? v r.stack lexeme
  | _, _ => none

def document? (r : Reader) : Option Json :=
  match r.stack, r.focus with
  | [], .done v => some v
  | _, _ => none

def run? (r : Reader) : List Lexeme → Option Json
  | [] => r.document?
  | lexeme :: rest =>
      match r.step? lexeme with
      | none => none
      | some next => run? next rest

end Reader

def parse? (text : String) : Option Json :=
  (lexemes? text).bind (Reader.initial.run? ·)

end InterfaceSchema.Json
