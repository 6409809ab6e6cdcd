import InterfaceSchema.Schema.Symbol

namespace InterfaceSchema

inductive Level where
  | error
  | warn
  | debug
  | trace
  deriving DecidableEq, Repr

namespace Level

def label : Level → String
  | error => "error"
  | warn => "warn"
  | debug => "debug"
  | trace => "trace"

def rank : Level → Nat
  | error => 0
  | warn => 1
  | debug => 2
  | trace => 3

def shownAt (level limit : Level) : Bool :=
  level.rank ≤ limit.rank

end Level

inductive Event where
  | rpcKept (rpc scope : String)
  | memberRepeated (enum member : String)
  | sourceParsed (origin : String) (types enums rpcs namespaces : Nat)
  | symbolRegistered (kind : SymbolKind) (name : String) (package : PackageId)
  | enumHidden (enum package : String)
  | pathShared (package path : String)
  | typeUnresolved (package type declaration : String)
  | packagesBuilt (packages symbols unresolved : Nat)
  deriving DecidableEq, Repr

namespace Event

def level : Event → Level
  | rpcKept .. => .warn
  | memberRepeated .. => .debug
  | sourceParsed .. => .debug
  | symbolRegistered .. => .trace
  | enumHidden .. => .warn
  | pathShared .. => .warn
  | typeUnresolved .. => .warn
  | packagesBuilt .. => .debug

def topic : Event → String
  | rpcKept .. => "brine_idl_schema::namespace"
  | memberRepeated .. => "brine_idl_compiler::parser"
  | sourceParsed .. => "brine_idl_compiler::compiler"
  | symbolRegistered .. => "brine_idl_compiler::registry"
  | enumHidden .. => "brine_idl_compiler::package"
  | pathShared .. => "brine_idl_compiler::package"
  | typeUnresolved .. => "brine_idl_compiler::package"
  | packagesBuilt .. => "brine_idl_compiler::package"

def message : Event → String
  | rpcKept rpc scope =>
      s!"rpc `{rpc}` in namespace `{scope}` is already defined, keeping the first definition"
  | memberRepeated enum member => s!"enum `{enum}` lists member `{member}` twice"
  | sourceParsed origin types enums rpcs namespaces =>
      s!"parsed {origin}: {types} types, {enums} enums, {rpcs} rpcs, {namespaces} namespaces"
  | symbolRegistered kind name package =>
      s!"registered {kind.label} `{name}` in PackageId({package})"
  | enumHidden enum package =>
      s!"enum `{enum}` in package `{package}` clashes with a type of the same name, the type wins"
  | pathShared package path => s!"package `{package}` shares the path `{path}` with a sibling"
  | typeUnresolved package type declaration =>
      s!"package `{package}`: cannot resolve type `{type}` in {declaration}"
  | packagesBuilt packages symbols unresolved =>
      s!"built {packages} packages with {symbols} symbols, {unresolved} unresolved references"

end Event

def shownEvents (limit : Level) (events : List Event) : List Event :=
  events.filter (·.level.shownAt limit)

structure Logged (α : Type) where
  value : α
  events : List Event
  deriving DecidableEq

namespace Logged

variable {α β : Type}

def silent (value : α) : Logged α :=
  ⟨value, []⟩

def after (events : List Event) (x : Logged α) : Logged α :=
  ⟨x.value, events ++ x.events⟩

def map (f : α → β) (x : Logged α) : Logged β :=
  ⟨f x.value, x.events⟩

end Logged

end InterfaceSchema
