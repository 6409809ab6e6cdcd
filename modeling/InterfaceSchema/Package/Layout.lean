import InterfaceSchema.Package.Config
import InterfaceSchema.Package.Registry
import InterfaceSchema.Text.Naming

namespace InterfaceSchema

structure Package where
  id : PackageId
  number : Nat
  name : String
  path : String
  importPath : String
  mangledId : String
  scope : Namespace
  -- nearest first
  enclosing : List PackageId
  children : List PackageId
  dependencies : List PackageId

namespace Package

def parent? (p : Package) : Option PackageId :=
  p.enclosing.head?

def scopes (p : Package) : List PackageId :=
  p.id :: p.enclosing

def displayName (config : Config) (outermost : Bool) (ns : Namespace) : String :=
  match ns.option? config.nameOption with
  | some name => name
  | none => if outermost && ns.isRoot then config.defaultName else ns.name

-- The number at the end keeps the ids apart.
def mangle (config : Config) (importPath path : String) (number : Nat) : String :=
  let words := Text.snakeCase (if importPath.isEmpty then path else importPath)
  if words.isEmpty then config.manglePrefix ++ "_" ++ number.repr
  else config.manglePrefix ++ "_" ++ words ++ "_" ++ number.repr

def ofRoot (config : Config) (id : PackageId) (number : Nat) (ns : Namespace) : Package :=
  let importPath := (ns.option? config.importOption).getD config.defaultImportPath
  { id := id
    number := number
    name := displayName config true ns
    path := ""
    importPath := importPath
    mangledId := mangle config importPath "" number
    scope := ns
    enclosing := []
    children := []
    dependencies := [] }

def ofChild (config : Config) (parent : Package) (id : PackageId) (number : Nat)
    (ns : Namespace) : Package :=
  let name := displayName config false ns
  let segment := Text.lowercase name
  let path := Text.joinPath parent.path segment
  let importPath :=
    (ns.option? config.importOption).getD (Text.joinPath parent.importPath segment)
  { id := id
    number := number
    name := name
    path := path
    importPath := importPath
    mangledId := mangle config importPath path number
    scope := ns
    enclosing := parent.scopes
    children := []
    dependencies := [] }

def ofScope (config : Config) : Option Package → PackageId → Nat → Namespace → Package
  | none, id, number, ns => ofRoot config id number ns
  | some parent, id, number, ns => ofChild config parent id number ns

def siblingLe (p q : Package) : Bool :=
  p.name < q.name || (p.name == q.name && p.number ≤ q.number)

def sharedPaths (seen : List String) : List Package → List Event
  | [] => []
  | p :: rest =>
      if seen.contains p.path then .pathShared p.name p.path :: sharedPaths seen rest
      else sharedPaths (p.path :: seen) rest

end Package

structure Laid where
  packages : List Package
  ids : List PackageId
  nextNumber : Nat

namespace Laid

def outermost (l : Laid) : List Package :=
  l.ids.filterMap fun id => l.packages.find? (·.id == id)

def siblings (l : Laid) : List Package :=
  l.outermost.mergeSort Package.siblingLe

end Laid

namespace Package

mutual

def layout (config : Config) (parent : Option Package) (id : PackageId) (number : Nat) :
    Namespace → Logged Laid
  | ns@⟨_, ⟨children⟩, _, _, _, _⟩ =>
      let package := ofScope config parent id number ns
      let below := layoutChildren config package (id + 1) (number + 1) children
      let inside := below.value.siblings
      { value :=
          { packages := { package with children := inside.map Package.id } :: below.value.packages
            ids := [id]
            nextNumber := below.value.nextNumber }
        events :=
          (Registry.empty.declare id package.name ns).events ++ below.events ++
            sharedPaths [] inside }

def layoutChildren (config : Config) (parent : Package) (next : PackageId) (number : Nat) :
    List (String × Namespace) → Logged Laid
  | [] => .silent ⟨[], [], number⟩
  | (_, child) :: rest =>
      let first := layout config (some parent) next number child
      let others :=
        layoutChildren config parent (next + first.value.packages.length)
          first.value.nextNumber rest
      { value :=
          { packages := first.value.packages ++ others.value.packages
            ids := first.value.ids ++ others.value.ids
            nextNumber := others.value.nextNumber }
        events := first.events ++ others.events }

end

end Package

end InterfaceSchema
