import InterfaceSchema.Log
import InterfaceSchema.Schema.Declaration

namespace InterfaceSchema

structure Namespace where
  name : String
  children : NameMap Namespace
  options : NameMap String
  types : NameMap RecordType
  enums : NameMap EnumType
  rpcs : NameMap Rpc

namespace Namespace

mutual

def decEq : (a b : Namespace) → Decidable (a = b)
  | ⟨name, ⟨children⟩, options, types, enums, rpcs⟩,
    ⟨name', ⟨children'⟩, options', types', enums', rpcs'⟩ =>
      match decEqEntries children children' with
      | .isTrue h =>
          decidable_of_iff
            (name = name' ∧ options = options' ∧ types = types' ∧ enums = enums' ∧ rpcs = rpcs')
            (by simp [h])
      | .isFalse h => .isFalse fun heq => h (congrArg (·.children.entries) heq)

def decEqEntries : (as bs : List (String × Namespace)) → Decidable (as = bs)
  | [], [] => .isTrue rfl
  | [], _ :: _ => .isFalse (List.cons_ne_nil _ _).symm
  | _ :: _, [] => .isFalse (List.cons_ne_nil _ _)
  | (key, a) :: as, (key', b) :: bs =>
      match decEq a b, decEqEntries as bs with
      | .isTrue h, .isTrue h' => decidable_of_iff (key = key') (by simp [h, h'])
      | .isFalse h, _ => .isFalse fun heq => h (congrArg Prod.snd (List.cons.inj heq).1)
      | _, .isFalse h => .isFalse fun heq => h (List.cons.inj heq).2

end

instance : DecidableEq Namespace :=
  decEq

def ofName (name : String) : Namespace :=
  ⟨name, .empty, .empty, .empty, .empty, .empty⟩

def rootName : String :=
  "root"

def root : Namespace :=
  ofName rootName

def blank : Namespace :=
  ofName ""

def isRoot (ns : Namespace) : Bool :=
  ns.name.isEmpty || ns.name == rootName

def option? (ns : Namespace) (key : String) : Option String :=
  ns.options.get? key

def mergedName (first second : String) : String :=
  if first.isEmpty then second else first

mutual

def merge (self : Namespace) : Namespace → Namespace
  | ⟨name, ⟨children⟩, options, types, enums, rpcs⟩ =>
      { name := mergedName self.name name
        children := mergeChildren self.children children
        options := self.options.insertAll options.entries
        types := types.values.foldl (NameMap.add RecordType.name RecordType.merge) self.types
        enums := enums.values.foldl (NameMap.add EnumType.name EnumType.merge) self.enums
        rpcs := rpcs.values.foldl (NameMap.addIfNew Rpc.name) self.rpcs }

def mergeChildren (children : NameMap Namespace) : List (String × Namespace) → NameMap Namespace
  | [] => children
  | (_, child) :: rest =>
      match children.get? child.name with
      | none => mergeChildren (children.insert child.name child) rest
      | some old => mergeChildren (children.insert child.name (merge old child)) rest

end

def addChild (children : NameMap Namespace) (child : Namespace) : NameMap Namespace :=
  NameMap.add Namespace.name merge children child

theorem mergeChildren_eq_foldl (children : NameMap Namespace)
    (entries : List (String × Namespace)) :
    mergeChildren children entries = (entries.map Prod.snd).foldl addChild children := by
  induction entries generalizing children with
  | nil => rfl
  | cons entry rest ih =>
      obtain ⟨key, child⟩ := entry
      rw [mergeChildren, List.map_cons, List.foldl_cons, addChild, NameMap.add]
      cases children.get? child.name <;> simp only [ih]

def rpcCollisions (scope : String) (rpcs : NameMap Rpc) : List Rpc → List Event
  | [] => []
  | rpc :: incoming =>
      if rpcs.contains rpc.name then .rpcKept rpc.name scope :: rpcCollisions scope rpcs incoming
      else rpcCollisions scope (rpcs.addIfNew Rpc.name rpc) incoming

mutual

def collisions (self : Namespace) : Namespace → List Event
  | ⟨name, ⟨children⟩, _, _, _, rpcs⟩ =>
      childCollisions self.children children ++
        rpcCollisions (mergedName self.name name) self.rpcs rpcs.values

def childCollisions (children : NameMap Namespace) : List (String × Namespace) → List Event
  | [] => []
  | (_, child) :: rest =>
      (match children.get? child.name with
        | none => []
        | some old => collisions old child) ++
        childCollisions (addChild children child) rest

end

def addChildEvents (children : NameMap Namespace) (child : Namespace) : List Event :=
  match children.get? child.name with
  | none => []
  | some old => collisions old child

end Namespace

end InterfaceSchema
