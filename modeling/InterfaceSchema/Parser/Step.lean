import InterfaceSchema.Parser.State

namespace InterfaceSchema

namespace Scopes

def deliver (s : Scopes) (slot : Slot) (lists : List ArgumentList) (type : TypeRef) :
    Except ParseError (Scopes × Place) :=
  match lists, slot with
  | inner :: outer, slot => .ok (s, .argumentEnd slot (inner.push type) outer)
  | [], .property record => .ok (s, .propertyName record type)
  | [], .input signature => .ok (s, .inputEnd (signature.push type))
  | [], .output ⟨name, input⟩ =>
      if s.inner.rpcs.contains name.value then .error ⟨.rpcRepeated name.value, name⟩
      else .ok (s.addRpc ⟨name.value, input, [type]⟩, .body)

def define (s : Scopes) (t : Token) : Except ParseError Place :=
  match t.value with
  | "namespace" =>
      if s.outer.length = nestingLimit then .error ⟨.namespacesTooDeep, t⟩
      else .ok (.blockName .scope)
  | "option" => .ok .optionName
  | "type" => .ok (.blockName .type)
  | "enum" => .ok (.blockName .enum)
  | "rpc" => .ok .rpcName
  | word => .error ⟨.unknownKeyword word, t⟩

def enterBlock (s : Scopes) (kind : BlockKind) (name : String) : Scopes × Place :=
  match kind with
  | .scope => (s.openScope name, .body)
  | .type => (s, .property (.ofName name))
  | .enum => (s, .member (.ofName name))

end Scopes

namespace Parser

def initial : Parser :=
  ⟨.initial, .place .body⟩

def goto (s : Scopes) (place : Place) : Except ParseError Parser :=
  .ok ⟨s, .place place⟩

def reject (place : Place) (t : Token) : Except ParseError Parser :=
  .error ⟨place.fault, t⟩

def startType (s : Scopes) (slot : Slot) (lists : List ArgumentList) (t : Token) :
    Except ParseError Parser :=
  .ok ⟨s, .typeName slot lists t.value⟩

def closeScope (s : Scopes) (t : Token) : Except ParseError Parser :=
  match s.close? with
  | some s => goto s .body
  | none => .error ⟨.strayBlockEnd, t⟩

def addProperty (s : Scopes) (record : RecordType) (type : TypeRef) (t : Token) :
    Except ParseError Parser :=
  if record.properties.contains t.value then .error ⟨.propertyRepeated t.value, t⟩
  else goto s (.property (record.addProperty ⟨t.value, type⟩))

def accept (s : Scopes) (place : Place) (t : Token) : Except ParseError Parser :=
  match place with
  | .body =>
      if t.kind = .keyword then
        match s.define t with
        | .error error => .error error
        | .ok place => goto s place
      else if t.kind = .blockEnd then closeScope s t
      else reject place t
  | .blockName kind =>
      if t.kind = .identifier then goto s (.block kind t.value) else reject place t
  | .block kind name =>
      if t.kind = .blockStart then goto (s.enterBlock kind name).1 (s.enterBlock kind name).2
      else reject place t
  | .optionName => if t.kind = .identifier then goto s (.optionValue t.value) else reject place t
  | .optionValue key =>
      if t.kind = .stringValue || t.kind = .numberValue then goto (s.addOption key t.value) .body
      else reject place t
  | .property record =>
      if t.kind.isName then startType s (.property record) [] t
      else if t.kind = .blockEnd then goto (s.addType record) .body
      else reject place t
  | .propertyName record type =>
      if t.kind.isName then addProperty s record type t else reject place t
  | .member enum =>
      if t.kind.isName then goto s (.member (enum.push t.value))
      else if t.kind = .blockEnd then goto (s.addEnum enum) .body
      else reject place t
  | .rpcName => if t.kind = .identifier then goto s (.inputs t) else reject place t
  | .inputs name =>
      if t.kind = .argumentsStart then goto s (.input ⟨name, []⟩) else reject place t
  | .input signature =>
      if t.kind.isName then startType s (.input signature) [] t
      else if t.kind = .argumentsEnd then goto s (.output signature)
      else reject place t
  | .inputEnd signature =>
      if t.kind = .separator then goto s (.input signature)
      else if t.kind = .argumentsEnd then goto s (.output signature)
      else reject place t
  | .output signature =>
      if t.kind.isName then startType s (.output signature) [] t else reject place t
  | .argument slot inner outer =>
      if t.kind.isName then startType s slot (inner :: outer) t else reject place t
  | .argumentEnd slot inner outer =>
      if t.kind = .separator then goto s (.argument slot inner outer)
      else if t.kind = .typeArgumentsEnd then
        match s.deliver slot outer ⟨inner.name, inner.arguments⟩ with
        | .error error => .error error
        | .ok (s, place) => goto s place
      else reject place t

def openArguments (s : Scopes) (slot : Slot) (lists : List ArgumentList) (name : String)
    (t : Token) : Except ParseError Parser :=
  if s.outer.length + lists.length = nestingLimit then .error ⟨.argumentsTooDeep, t⟩
  else goto s (.argument slot ⟨name, []⟩ lists)

-- A name of a type is complete when anything but a list of arguments follows it.
def step (p : Parser) (t : Token) : Except ParseError Parser :=
  match p.focus with
  | .place place => accept p.scopes place t
  | .typeName slot lists name =>
      if t.kind = .typeArgumentsStart then openArguments p.scopes slot lists name t
      else
        match p.scopes.deliver slot lists ⟨name, []⟩ with
        | .error error => .error error
        | .ok (s, place) => accept s place t

def finishAt (s : Scopes) (place : Place) (t : Token) : Except ParseError Namespace :=
  match place, s.outer with
  | .body, [] => .ok s.inner
  | place, _ => .error ⟨place.endFault, t⟩

def finish (p : Parser) (t : Token) : Except ParseError Namespace :=
  match p.focus with
  | .place place => finishAt p.scopes place t
  | .typeName slot lists name =>
      match p.scopes.deliver slot lists ⟨name, []⟩ with
      | .error error => .error error
      | .ok (s, place) => finishAt s place t

def placeEvents (s : Scopes) (place : Place) (t : Token) : List Event :=
  match place with
  | .body => if t.kind = .blockEnd then s.closeEvents else []
  | .member enum =>
      if t.kind.isName && enum.lists t.value then [.memberRepeated enum.name t.value] else []
  | _ => []

def events (p : Parser) (t : Token) : List Event :=
  match p.focus with
  | .place place => placeEvents p.scopes place t
  | .typeName slot lists name =>
      if t.kind = .typeArgumentsStart then []
      else
        match p.scopes.deliver slot lists ⟨name, []⟩ with
        | .error _ => []
        | .ok (s, place) => placeEvents s place t

-- `last` stands for the end of file where there is none. `reported` is latest first.
def run (last : Token) (p : Parser) (reported : List Event) :
    List Token → Logged (Except ParseError Namespace)
  | [] => ⟨p.finish last, reported.reverse⟩
  | t :: rest =>
      if t.kind = .endOfFile then ⟨p.finish t, reported.reverse⟩
      else
        match p.step t with
        | .error error => ⟨.error error, reported.reverse⟩
        | .ok next => run last next ((p.events t).reverse ++ reported) rest

end Parser

def endOfTokens (tokens : List Token) : Token :=
  match tokens.getLast? with
  | none => ⟨.endOfFile, "", .origin, 0⟩
  | some last =>
      ⟨.endOfFile, "", ⟨last.pos.byte + last.len, last.pos.line, last.pos.col + last.len⟩, 0⟩

def parseTokens (tokens : List Token) : Logged (Except ParseError Namespace) :=
  Parser.initial.run (endOfTokens tokens) [] tokens

end InterfaceSchema
