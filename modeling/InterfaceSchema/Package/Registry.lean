import InterfaceSchema.Package.Resolved
import InterfaceSchema.Schema.Builtin
import InterfaceSchema.Schema.Namespace

namespace InterfaceSchema

-- At most one symbol for a name in a package, latest first.
structure Registry where
  symbols : List Symbol
  deriving DecidableEq, Repr

namespace Registry

def empty : Registry :=
  ⟨[]⟩

def size (r : Registry) : Nat :=
  r.symbols.length

def isEmpty (r : Registry) : Bool :=
  r.symbols.isEmpty

def lookup (r : Registry) (package : PackageId) (name : String) : Option Symbol :=
  r.symbols.find? fun symbol => symbol.package == package && symbol.name == name

def declares (r : Registry) (package : PackageId) (name : String) : Bool :=
  (r.lookup package name).isSome

def register (r : Registry) (package : PackageId) (name : String) (kind : SymbolKind) : Registry :=
  if r.declares package name then r else ⟨⟨name, kind, package⟩ :: r.symbols⟩

def registerEvents (r : Registry) (package : PackageId) (name : String) (kind : SymbolKind) :
    List Event :=
  if r.declares package name then [] else [.symbolRegistered kind name package]

def registerAll (package : PackageId) (kind : SymbolKind) (clash : String → List Event)
    (r : Registry) : List String → Logged Registry
  | [] => .silent r
  | name :: rest =>
      (registerAll package kind clash (r.register package name kind) rest).after
        (r.registerEvents package name kind ++ if r.declares package name then clash name else [])

-- Types come first, so that an enum does not hide a type of its name.
def declare (r : Registry) (package : PackageId) (packageName : String) (ns : Namespace) :
    Logged Registry :=
  let types :=
    registerAll package .type (fun _ => []) r (ns.types.values.map RecordType.name)
  let enums :=
    registerAll package .enum (fun name => [.enumHidden name packageName]) types.value
      (ns.enums.values.map EnumType.name)
  enums.after types.events

def resolveDeclared (r : Registry) (scopes : List PackageId) (name : String) : ResolvedType :=
  match scopes.findSome? (r.lookup · name) with
  | none => .unknown
  | some ⟨_, .type, package⟩ => .record name package
  | some ⟨_, .enum, package⟩ => .enum name package

def resolve (r : Registry) (scopes : List PackageId) : TypeRef → ResolvedType
  | ⟨name, arguments⟩ =>
      match Builtin.ofWord? name with
      | some .unit => .unit
      | some .time => .time
      | some .data => .bytes
      | some .list =>
          match arguments with
          | [element] => .list (resolve r scopes element)
          | _ => .list .unknown
      | some .map =>
          match arguments with
          | [] => .map .unknown .unknown
          | [key] => .map (resolve r scopes key) .unknown
          | key :: value :: _ => .map (resolve r scopes key) (resolve r scopes value)
      | some _ => .simple name
      | none => r.resolveDeclared scopes name

end Registry

end InterfaceSchema
