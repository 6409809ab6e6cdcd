import InterfaceSchema.Parser.Step

namespace InterfaceSchema

def terminated (tokens : List Token) : List Token :=
  match tokens.getLast? with
  | none => [endOfTokens tokens]
  | some last => if last.kind = .endOfFile then tokens else tokens ++ [endOfTokens tokens]

namespace Descent

structure Cursor where
  index : Nat
  depth : Nat
  -- Latest first.
  reported : List Event

namespace Cursor

def next (cursor : Cursor) : Cursor :=
  { cursor with index := cursor.index + 1 }

def down (cursor : Cursor) : Cursor :=
  { cursor with depth := cursor.depth + 1 }

def up (cursor : Cursor) : Cursor :=
  { cursor with depth := cursor.depth - 1 }

def reporting (cursor : Cursor) (events : List Event) : Cursor :=
  { cursor with reported := events.reverse ++ cursor.reported }

def Precedes (tokens : List Token) (cursor later : Cursor) : Prop :=
  cursor.index < later.index ∧ later.index < tokens.length

instance (tokens : List Token) (cursor later : Cursor) :
    Decidable (cursor.Precedes tokens later) :=
  inferInstanceAs (Decidable (_ ∧ _))

end Cursor

inductive Breach where
  | noToken
  | endConsumed
  | passStalled
  | callStalled
  | unnamedType
  deriving DecidableEq

inductive Stop where
  | failed (error : ParseError) (events : List Event)
  | broken (breach : Breach)

abbrev Reader (α : Type) : Type :=
  StateT Cursor (Except Stop) α

variable {α β : Type} (tokens : List Token)

def lookahead (n : Nat) : Reader Token := do
  let cursor ← get
  match tokens[cursor.index + n]? with
  | some t => return t
  | none => throw (.broken .noToken)

def peek : Reader Token :=
  lookahead tokens 0

def consume : Reader Token := do
  let t ← peek tokens
  if t.kind = .endOfFile then throw (.broken .endConsumed)
  else
    modify fun cursor => if cursor.index < tokens.length - 1 then cursor.next else cursor
    return t

def failAt (t : Token) (fault : ParseFault) : Reader α := do
  let cursor ← get
  throw (.failed ⟨fault, t⟩ cursor.reported.reverse)

def fail (fault : ParseFault) : Reader α := do
  failAt (← peek tokens) fault

def expect (kind : TokenKind) (fault : ParseFault) : Reader Token := do
  if (← peek tokens).kind = kind then consume tokens else fail tokens fault

def report (events : List Event) : Reader Unit :=
  modify (·.reporting events)

def deeper (read : Reader α) : Reader α := do
  modify Cursor.down
  let value ← read
  modify Cursor.up
  return value

-- Passes go on while they return a left value, and each has to move on.
def loop (pass : α → Reader (α ⊕ β)) (value : α) (cursor : Cursor) : Except Stop (β × Cursor) :=
  match pass value cursor with
  | .error stop => .error stop
  | .ok (.inr result, next) => .ok (result, next)
  | .ok (.inl value, next) =>
      if cursor.Precedes tokens next then loop pass value next else .error (.broken .passStalled)
termination_by tokens.length - cursor.index
decreasing_by
  rename_i h
  obtain ⟨hlt, hle⟩ := h
  omega

def argumentPass (mention : Reader TypeRef) (arguments : List TypeRef) :
    Reader (List TypeRef ⊕ List TypeRef) := do
  if !(← peek tokens).kind.isName then fail tokens .argumentExpected
  else
    let type ← mention
    let next ← peek tokens
    if next.kind = .separator then
      let _ ← consume tokens
      return .inl (arguments ++ [type])
    else if next.kind = .typeArgumentsEnd then
      let _ ← consume tokens
      return .inr (arguments ++ [type])
    else fail tokens .argumentsUnfinished

def mentionWith (arguments : Reader (List TypeRef)) : Reader TypeRef := do
  let name ← peek tokens
  if !name.kind.isName then throw (.broken .unnamedType)
  else
    let _ ← consume tokens
    if (← peek tokens).kind ≠ .typeArgumentsStart then return ⟨name.value, []⟩
    else if (← get).depth = nestingLimit then fail tokens .argumentsTooDeep
    else
      let _ ← consume tokens
      let arguments ← deeper arguments
      return ⟨name.value, arguments⟩

def mention (cursor : Cursor) : Except Stop (TypeRef × Cursor) :=
  mentionWith tokens
    (loop tokens
      (argumentPass tokens fun next =>
        if cursor.Precedes tokens next then mention next else .error (.broken .callStalled))
      []) cursor
termination_by tokens.length - cursor.index
decreasing_by
  rename_i h
  obtain ⟨hlt, hle⟩ := h
  omega

def blockStart (kind : BlockKind) : Reader String := do
  let _ ← consume tokens
  let name ← expect tokens .identifier (.nameExpected kind)
  let _ ← expect tokens .blockStart (.blockExpected kind)
  return name.value

def option : Reader (String × String) := do
  let _ ← consume tokens
  let key ← expect tokens .identifier .optionNameExpected
  let value ← peek tokens
  if value.kind = .stringValue || value.kind = .numberValue then
    let _ ← consume tokens
    return (key.value, value.value)
  else fail tokens .optionValueExpected

def propertyPass (record : RecordType) : Reader (RecordType ⊕ RecordType) := do
  let t ← peek tokens
  if t.kind.isName then
    let type ← mention tokens
    let name ← peek tokens
    if !name.kind.isName then fail tokens .propertyNameExpected
    else if record.properties.contains name.value then fail tokens (.propertyRepeated name.value)
    else
      let _ ← consume tokens
      return .inl (record.addProperty ⟨name.value, type⟩)
  else if t.kind = .blockEnd then
    let _ ← consume tokens
    return .inr record
  else if t.kind = .endOfFile then fail tokens (.blockUnclosed .type)
  else fail tokens .propertyExpected

def record : Reader RecordType := do
  let name ← blockStart tokens .type
  loop tokens (propertyPass tokens) (.ofName name)

def memberPass (enum : EnumType) : Reader (EnumType ⊕ EnumType) := do
  let t ← peek tokens
  if t.kind.isName then
    let _ ← consume tokens
    report (if enum.lists t.value then [.memberRepeated enum.name t.value] else [])
    return .inl (enum.push t.value)
  else if t.kind = .blockEnd then
    let _ ← consume tokens
    return .inr enum
  else if t.kind = .endOfFile then fail tokens (.blockUnclosed .enum)
  else fail tokens .memberExpected

def enum : Reader EnumType := do
  let name ← blockStart tokens .enum
  loop tokens (memberPass tokens) (.ofName name)

def inputPass (input : List TypeRef) : Reader (List TypeRef ⊕ List TypeRef) := do
  let t ← peek tokens
  if t.kind.isName then
    let type ← mention tokens
    let next ← peek tokens
    if next.kind = .separator then
      let _ ← consume tokens
      return .inl (input ++ [type])
    else if next.kind = .argumentsEnd then
      let _ ← consume tokens
      return .inr (input ++ [type])
    else fail tokens .inputsUnfinished
  else if t.kind = .argumentsEnd then
    let _ ← consume tokens
    return .inr input
  else fail tokens .inputExpected

def rpc : Reader Rpc := do
  let _ ← consume tokens
  let name ← expect tokens .identifier .rpcNameExpected
  let _ ← expect tokens .argumentsStart .inputsExpected
  let input ← loop tokens (inputPass tokens) []
  if !(← peek tokens).kind.isName then fail tokens .outputExpected
  else
    let output ← mention tokens
    return ⟨name.value, input, [output]⟩

def scopeWith (body : Namespace → Reader Namespace) : Reader Namespace := do
  if (← get).depth = nestingLimit then fail tokens .namespacesTooDeep
  else
    let name ← blockStart tokens .scope
    let scope ← deeper (body (.ofName name))
    let _ ← expect tokens .blockEnd (.blockUnclosed .scope)
    return scope

def definitionPass (body : Namespace → Reader Namespace) (ns : Namespace) :
    Reader (Namespace ⊕ Namespace) := do
  let t ← peek tokens
  if t.kind = .keyword then
    match t.value with
    | "namespace" =>
        let child ← scopeWith tokens body
        report (Namespace.addChildEvents ns.children child)
        return .inl { ns with children := Namespace.addChild ns.children child }
    | "option" =>
        let (key, value) ← option tokens
        return .inl { ns with options := ns.options.insert key value }
    | "type" =>
        let type ← record tokens
        return .inl { ns with types := ns.types.add RecordType.name RecordType.merge type }
    | "enum" =>
        let enum ← enum tokens
        return .inl { ns with enums := ns.enums.add EnumType.name EnumType.merge enum }
    | "rpc" =>
        let name ← lookahead tokens 1
        let rpc ← rpc tokens
        if ns.rpcs.contains rpc.name then failAt name (.rpcRepeated name.value)
        else return .inl { ns with rpcs := ns.rpcs.addIfNew Rpc.name rpc }
    | word => fail tokens (.unknownKeyword word)
  else if t.kind = .blockEnd || t.kind = .endOfFile then return .inr ns
  else fail tokens .definitionExpected

def body (ns : Namespace) (cursor : Cursor) : Except Stop (Namespace × Cursor) :=
  loop tokens
    (definitionPass tokens fun ns next =>
      if cursor.Precedes tokens next then body ns next else .error (.broken .callStalled))
    ns cursor
termination_by tokens.length - cursor.index
decreasing_by
  rename_i h
  obtain ⟨hlt, hle⟩ := h
  omega

def schema : Reader Namespace := do
  let root ← body tokens .root
  if (← peek tokens).kind = .endOfFile then return root else fail tokens .strayBlockEnd

def parse (tokens : List Token) : Except Breach (Logged (Except ParseError Namespace)) :=
  match schema (terminated tokens) ⟨0, 0, []⟩ with
  | .ok (root, cursor) => .ok ⟨.ok root, cursor.reported.reverse⟩
  | .error (.failed error events) => .ok ⟨.error error, events⟩
  | .error (.broken breach) => .error breach

end Descent

end InterfaceSchema
