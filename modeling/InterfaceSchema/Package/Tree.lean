import InterfaceSchema.Package.Layout

namespace InterfaceSchema

structure Reference where
  declaration : String
  type : TypeRef

def Namespace.references (ns : Namespace) : List Reference :=
  (ns.types.values.flatMap fun type =>
      type.properties.values.map fun property =>
        ⟨type.name ++ "." ++ property.name, property.type⟩) ++
    ns.rpcs.values.flatMap fun rpc => rpc.types.map fun type => ⟨"rpc " ++ rpc.name, type⟩

structure Unresolved where
  package : PackageId
  declaration : String
  typeText : String
  deriving DecidableEq, Repr

structure PackageTree where
  packages : List Package
  registry : Registry
  unresolved : List Unresolved

namespace Package

def unknownReferences (registry : Registry) (p : Package) : List Reference :=
  p.scope.references.filter fun reference => !(registry.resolve p.scopes reference.type).isKnown

def unresolvedOf (registry : Registry) (p : Package) : List Unresolved :=
  (p.unknownReferences registry).map fun reference =>
    ⟨p.id, reference.declaration, reference.type.text⟩

def unresolvedEvents (registry : Registry) (p : Package) : List Event :=
  (p.unknownReferences registry).map fun reference =>
    .typeUnresolved p.name reference.type.text reference.declaration

def owners (registry : Registry) (p : Package) : List PackageId :=
  ((p.scope.references.flatMap fun reference =>
    (registry.resolve p.scopes reference.type).owners).filter (· != p.id)).eraseDups

def dependencyLe (p q : Package) : Bool :=
  p.name < q.name || (p.name == q.name && p.mangledId ≤ q.mangledId)

def dependenciesIn (registry : Registry) (packages : List Package) (p : Package) :
    List PackageId :=
  (((p.owners registry).filterMap (packages[·]?)).mergeSort dependencyLe).map Package.id

end Package

namespace PackageTree

def registryOf (packages : List Package) : Registry :=
  packages.foldl (fun registry p => (registry.declare p.id p.name p.scope).value) .empty

-- All symbols are declared before the first reference is resolved.
def build (config : Config) (root : Namespace) : Logged PackageTree :=
  let laid := Package.layout config none 0 1 root
  let packages := laid.value.packages
  let registry := registryOf packages
  let unresolved := packages.flatMap (Package.unresolvedOf registry)
  { value :=
      { packages := packages.map fun p =>
          { p with dependencies := p.dependenciesIn registry packages }
        registry := registry
        unresolved := unresolved }
    events :=
      laid.events ++ packages.flatMap (Package.unresolvedEvents registry) ++
        [.packagesBuilt packages.length registry.size unresolved.length] }

def get? (t : PackageTree) (id : PackageId) : Option Package :=
  t.packages[id]?

def findByPath? (t : PackageTree) (path : String) : Option Package :=
  t.packages.find? (·.path == path)

def option? (t : PackageTree) (p : Package) (key : String) : Option String :=
  p.scopes.findSome? fun id => (t.get? id).bind (·.scope.option? key)

def resolve (t : PackageTree) (p : Package) (type : TypeRef) : ResolvedType :=
  t.registry.resolve p.scopes type

def mangledIds (t : PackageTree) (ids : List PackageId) : List String :=
  ids.filterMap fun id => (t.get? id).map Package.mangledId

end PackageTree

end InterfaceSchema
