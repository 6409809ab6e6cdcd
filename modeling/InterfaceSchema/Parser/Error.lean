import InterfaceSchema.Json.Escape
import InterfaceSchema.Source.Token

namespace InterfaceSchema

inductive BlockKind where
  | scope
  | type
  | enum
  deriving DecidableEq, Repr

def BlockKind.word : BlockKind → String
  | scope => "namespace"
  | type => "type"
  | enum => "enum"

inductive ParseFault where
  | definitionExpected
  | unknownKeyword (word : String)
  | nameExpected (kind : BlockKind)
  | blockExpected (kind : BlockKind)
  | blockUnclosed (kind : BlockKind)
  | namespacesTooDeep
  | strayBlockEnd
  | optionNameExpected
  | optionValueExpected
  | propertyExpected
  | propertyNameExpected
  | propertyRepeated (name : String)
  | memberExpected
  | rpcNameExpected
  | inputsExpected
  | inputExpected
  | inputsUnfinished
  | outputExpected
  | rpcRepeated (name : String)
  | argumentsTooDeep
  | argumentExpected
  | argumentsUnfinished
  deriving DecidableEq, Repr

def ParseFault.message : ParseFault → String
  | definitionExpected => "valid definition keyword expected"
  | unknownKeyword word => s!"unrecognized keyword `{word}`"
  | nameExpected kind => s!"{kind.word} name expected"
  | blockExpected kind => s!"opening brace `\x7b` for {kind.word} expected"
  | blockUnclosed kind => s!"missing closing brace `\x7d` for {kind.word}"
  | namespacesTooDeep => "namespaces nested too deeply"
  | strayBlockEnd => "unexpected `\x7d` outside of any block"
  | optionNameExpected => "option name expected"
  | optionValueExpected => "option value literal expected"
  | propertyExpected => "property definition expected"
  | propertyNameExpected => "property name expected"
  | propertyRepeated name => s!"duplicate declaration for property `{name}`"
  | memberExpected => "enum member expected"
  | rpcNameExpected => "rpc name expected"
  | inputsExpected => "start of argument list `(` expected"
  | inputExpected => "argument types expected"
  | inputsUnfinished => "more input types with `,` or closing bracket `)` expected"
  | outputExpected => "return type expected"
  | rpcRepeated name => s!"duplicate definition for rpc `{name}`"
  | argumentsTooDeep => "type arguments nested too deeply"
  | argumentExpected => "type argument expected"
  | argumentsUnfinished => "more type arguments with `,` or closing angle bracket `>` expected"

structure ParseError where
  fault : ParseFault
  token : Token
  deriving DecidableEq, Repr

def ParseError.near (e : ParseError) : String :=
  if e.token.kind = .endOfFile then "end of file" else Json.quote e.token.value

end InterfaceSchema
