import InterfaceSchema.Parser.State
import InterfaceSchema.Proofs.Schema.NameMap
import Mathlib.Data.List.Duplicate
import Mathlib.Data.List.Nodup

namespace InterfaceSchema

inductive Item where
  | scope (name : String) (body : List Item)
  | option (key value : String)
  | type (name : String) (properties : List Property)
  | enum (name : String) (members : List String)
  | rpc (name : String) (input : List TypeRef) (output : TypeRef)

namespace Grammar

def Announces (t : Token) (word : String) : Prop :=
  t.kind = .keyword ∧ t.value = word

mutual

inductive Mention : List Token → TypeRef → Prop
  | name {n : Token} : n.kind.isName → Mention [n] ⟨n.value, []⟩
  | applied {n o c : Token} {ts : List Token} {arguments : List TypeRef} :
      n.kind.isName → o.kind = .typeArgumentsStart → Arguments ts arguments →
      c.kind = .typeArgumentsEnd → Mention (n :: o :: (ts ++ [c])) ⟨n.value, arguments⟩

inductive Arguments : List Token → List TypeRef → Prop
  | one {ts : List Token} {type : TypeRef} : Mention ts type → Arguments ts [type]
  | more {ts us : List Token} {s : Token} {type : TypeRef} {types : List TypeRef} :
      Mention ts type → s.kind = .separator → Arguments us types →
      Arguments (ts ++ s :: us) (type :: types)

end

inductive Inputs : List Token → List TypeRef → Prop
  | none : Inputs [] []
  | some {ts : List Token} {types : List TypeRef} : Arguments ts types → Inputs ts types
  | trailing {ts : List Token} {s : Token} {types : List TypeRef} :
      Arguments ts types → s.kind = .separator → Inputs (ts ++ [s]) types

inductive Properties : List Token → List Property → Prop
  | nil : Properties [] []
  | more {ts us : List Token} {n : Token} {type : TypeRef} {properties : List Property} :
      Mention ts type → n.kind.isName → Properties us properties →
      Properties (ts ++ n :: us) (⟨n.value, type⟩ :: properties)

inductive Members : List Token → List String → Prop
  | nil : Members [] []
  | more {ts : List Token} {n : Token} {members : List String} :
      n.kind.isName → Members ts members → Members (n :: ts) (n.value :: members)

mutual

inductive Definition : List Token → Item → Prop
  | scope {k n o c : Token} {ts : List Token} {body : List Item} :
      Announces k "namespace" → n.kind = .identifier → o.kind = .blockStart → Body ts body →
      c.kind = .blockEnd → Definition (k :: n :: o :: (ts ++ [c])) (.scope n.value body)
  | option {k n v : Token} :
      Announces k "option" → n.kind = .identifier →
      v.kind = .stringValue ∨ v.kind = .numberValue →
      Definition [k, n, v] (.option n.value v.value)
  | type {k n o c : Token} {ts : List Token} {properties : List Property} :
      Announces k "type" → n.kind = .identifier → o.kind = .blockStart →
      Properties ts properties → c.kind = .blockEnd →
      Definition (k :: n :: o :: (ts ++ [c])) (.type n.value properties)
  | enum {k n o c : Token} {ts : List Token} {members : List String} :
      Announces k "enum" → n.kind = .identifier → o.kind = .blockStart →
      Members ts members → c.kind = .blockEnd →
      Definition (k :: n :: o :: (ts ++ [c])) (.enum n.value members)
  | rpc {k n o c : Token} {ts us : List Token} {input : List TypeRef} {output : TypeRef} :
      Announces k "rpc" → n.kind = .identifier → o.kind = .argumentsStart → Inputs ts input →
      c.kind = .argumentsEnd → Mention us output →
      Definition (k :: n :: o :: (ts ++ c :: us)) (.rpc n.value input output)

inductive Body : List Token → List Item → Prop
  | nil : Body [] []
  | more {ts us : List Token} {item : Item} {items : List Item} :
      Definition ts item → Body us items → Body (ts ++ us) (item :: items)

end

end Grammar

mutual

def TypeRef.depth : TypeRef → Nat
  | ⟨_, []⟩ => 0
  | ⟨_, first :: rest⟩ => max first.depth (depthAll rest) + 1

def TypeRef.depthAll : List TypeRef → Nat
  | [] => 0
  | type :: types => max type.depth (depthAll types)

end

mutual

def Item.depth : Item → Nat
  | .scope _ body => depthAll body + 1
  | .option .. => 0
  | .type _ properties => TypeRef.depthAll (properties.map Property.type)
  | .enum .. => 0
  | .rpc _ input output => max (TypeRef.depthAll input) output.depth

def Item.depthAll : List Item → Nat
  | [] => 0
  | item :: items => max item.depth (depthAll items)

end

def Item.rpcName? : Item → Option String
  | .rpc name _ _ => some name
  | _ => none

def Item.rpcNames (items : List Item) : List String :=
  items.filterMap Item.rpcName?

mutual

def Item.Distinct : Item → Prop
  | .scope _ body => (rpcNames body).Nodup ∧ DistinctAll body
  | .type _ properties => (properties.map Property.name).Nodup
  | _ => True

def Item.DistinctAll : List Item → Prop
  | [] => True
  | item :: items => item.Distinct ∧ DistinctAll items

end

structure Item.Admissible (level : Nat) (items : List Item) : Prop where
  rpcNames : (Item.rpcNames items).Nodup
  distinct : Item.DistinctAll items
  depth : level + Item.depthAll items ≤ nestingLimit

def RecordType.ofProperties (name : String) (properties : List Property) : RecordType :=
  properties.foldl RecordType.addProperty (.ofName name)

mutual

def Namespace.declare (ns : Namespace) : Item → Namespace
  | .scope name body =>
      { ns with children := addChild ns.children ((ofName name).declareAll body) }
  | .option key value => { ns with options := ns.options.insert key value }
  | .type name properties =>
      { ns with
        types := ns.types.add RecordType.name RecordType.merge (.ofProperties name properties) }
  | .enum name members =>
      { ns with
        enums := ns.enums.add EnumType.name EnumType.merge (.ofMembers name members) }
  | .rpc name input output => { ns with rpcs := ns.rpcs.insert name ⟨name, input, [output]⟩ }

def Namespace.declareAll (ns : Namespace) : List Item → Namespace
  | [] => ns
  | item :: items => (ns.declare item).declareAll items

end

theorem TypeRef.depthAll_append (xs ys : List TypeRef) :
    depthAll (xs ++ ys) = max (depthAll xs) (depthAll ys) := by
  induction xs with
  | nil => simp [depthAll]
  | cons x xs ih => rw [List.cons_append, depthAll, depthAll, ih, Nat.max_assoc]

theorem TypeRef.depthAll_singleton (type : TypeRef) : depthAll [type] = type.depth := by
  simp [depthAll]

theorem TypeRef.depth_of_ne_nil (name : String) {arguments : List TypeRef} (h : arguments ≠ []) :
    depth ⟨name, arguments⟩ = depthAll arguments + 1 := by
  cases arguments with
  | nil => exact absurd rfl h
  | cons first rest => rw [depth, depthAll]

namespace Grammar

theorem Arguments.ne_nil {ts : List Token} {types : List TypeRef} (h : Arguments ts types) :
    types ≠ [] := by
  cases h <;> simp

theorem Arguments.append_mention {ts us : List Token} {s : Token} {types : List TypeRef}
    {type : TypeRef} (h : Arguments ts types) (hs : s.kind = .separator) (hm : Mention us type) :
    Arguments (ts ++ s :: us) (types ++ [type]) := by
  induction types generalizing ts with
  | nil => exact absurd rfl h.ne_nil
  | cons first rest ih =>
      cases h with
      | one hfirst => exact .more hfirst hs (.one hm)
      | more hfirst hsep hrest =>
          rw [List.append_assoc, List.cons_append]
          exact .more hfirst hsep (ih hrest)

theorem Properties.append_property {ts us : List Token} {n : Token} {properties : List Property}
    {type : TypeRef} (h : Properties ts properties) (hm : Mention us type)
    (hn : n.kind.isName) :
    Properties (ts ++ (us ++ [n])) (properties ++ [⟨n.value, type⟩]) := by
  induction h with
  | nil => exact .more hm hn .nil
  | more hfirst hname _ ih =>
      rw [List.append_assoc, List.cons_append]
      exact .more hfirst hname ih

theorem Members.append_member {ts : List Token} {n : Token} {members : List String}
    (h : Members ts members) (hn : n.kind.isName) :
    Members (ts ++ [n]) (members ++ [n.value]) := by
  induction h with
  | nil => exact .more hn .nil
  | more hfirst _ ih => exact .more hfirst ih

theorem Body.append {ts us : List Token} {xs ys : List Item} (h : Body ts xs) (h' : Body us ys) :
    Body (ts ++ us) (xs ++ ys) := by
  induction xs generalizing ts with
  | nil =>
      cases h
      exact h'
  | cons first rest ih =>
      cases h with
      | more hfirst hrest =>
          rw [List.append_assoc]
          exact .more hfirst (ih hrest)

theorem Body.append_definition {ts us : List Token} {items : List Item} {item : Item}
    (h : Body ts items) (hd : Definition us item) : Body (ts ++ us) (items ++ [item]) :=
  h.append (us.append_nil ▸ .more hd .nil)

end Grammar

namespace Item

theorem depthAll_append (xs ys : List Item) :
    depthAll (xs ++ ys) = max (depthAll xs) (depthAll ys) := by
  induction xs with
  | nil => simp [depthAll]
  | cons x xs ih => rw [List.cons_append, depthAll, depthAll, ih, Nat.max_assoc]

theorem depthAll_singleton (item : Item) : depthAll [item] = item.depth := by
  simp [depthAll]

theorem distinctAll_append (xs ys : List Item) :
    DistinctAll (xs ++ ys) ↔ DistinctAll xs ∧ DistinctAll ys := by
  induction xs with
  | nil => simp [DistinctAll]
  | cons x xs ih => rw [List.cons_append, DistinctAll, DistinctAll, ih, and_assoc]

theorem rpcNames_append (xs ys : List Item) :
    rpcNames (xs ++ ys) = rpcNames xs ++ rpcNames ys :=
  List.filterMap_append

theorem mem_rpcNames_cons {item : Item} {items : List Item} {name : String} :
    name ∈ rpcNames (item :: items) ↔ item.rpcName? = some name ∨ name ∈ rpcNames items := by
  rw [rpcNames, List.mem_filterMap, rpcNames, List.mem_filterMap]
  simp

theorem nodup_rpcNames_cons {item : Item} {items : List Item} :
    (rpcNames (item :: items)).Nodup ↔
      (∀ name, item.rpcName? = some name → name ∉ rpcNames items) ∧ (rpcNames items).Nodup := by
  cases h : item.rpcName? with
  | none => simp [rpcNames, h]
  | some name => simp [rpcNames, h]

theorem duplicate_rpcNames_cons {item : Item} {items : List Item} {name : String} :
    (rpcNames (item :: items)).Duplicate name ↔
      (item.rpcName? = some name ∧ name ∈ rpcNames items) ∨ (rpcNames items).Duplicate name := by
  cases h : item.rpcName? with
  | none => simp [rpcNames, h]
  | some other => simp [rpcNames, h, List.duplicate_cons_iff]

theorem Admissible.nil {level : Nat} (h : level ≤ nestingLimit) : Admissible level [] :=
  ⟨List.nodup_nil, trivial, h⟩

theorem admissible_append_singleton {level : Nat} {items : List Item} {item : Item} :
    Admissible level (items ++ [item]) ↔
      Admissible level items ∧ item.Distinct ∧ level + item.depth ≤ nestingLimit ∧
        ∀ name, item.rpcName? = some name → name ∉ rpcNames items := by
  have hnames : rpcNames [item] = item.rpcName?.toList := by
    cases h : item.rpcName? <;> simp [rpcNames, h]
  have hdepth : level + depthAll (items ++ [item]) ≤ nestingLimit ↔
      level + depthAll items ≤ nestingLimit ∧ level + item.depth ≤ nestingLimit := by
    rw [depthAll_append, depthAll_singleton]
    omega
  have hdistinct : DistinctAll (items ++ [item]) ↔ DistinctAll items ∧ item.Distinct := by
    rw [distinctAll_append]
    simp [DistinctAll]
  have hnodup : (rpcNames (items ++ [item])).Nodup ↔ (rpcNames items).Nodup ∧
      ∀ name, item.rpcName? = some name → name ∉ rpcNames items := by
    rw [rpcNames_append, hnames]
    cases item.rpcName? with
    | none => simp
    | some name =>
        rw [Option.toList_some, List.nodup_append_comm, List.singleton_append, List.nodup_cons]
        simp [and_comm]
  constructor
  · rintro ⟨h₁, h₂, h₃⟩
    exact ⟨⟨(hnodup.mp h₁).1, (hdistinct.mp h₂).1, (hdepth.mp h₃).1⟩, (hdistinct.mp h₂).2,
      (hdepth.mp h₃).2, (hnodup.mp h₁).2⟩
  · rintro ⟨⟨h₁, h₂, h₃⟩, h₄, h₅, h₆⟩
    exact ⟨hnodup.mpr ⟨h₁, h₆⟩, hdistinct.mpr ⟨h₂, h₄⟩, hdepth.mpr ⟨h₃, h₅⟩⟩

end Item

namespace Namespace

theorem declareAll_append (ns : Namespace) (xs ys : List Item) :
    ns.declareAll (xs ++ ys) = (ns.declareAll xs).declareAll ys := by
  induction xs generalizing ns with
  | nil => rw [List.nil_append, declareAll]
  | cons x xs ih => rw [List.cons_append, declareAll, declareAll, ih]

theorem declareAll_append_singleton (ns : Namespace) (items : List Item) (item : Item) :
    ns.declareAll (items ++ [item]) = (ns.declareAll items).declare item := by
  rw [declareAll_append, declareAll, declareAll]

theorem contains_declare_rpcs (ns : Namespace) (item : Item) (name : String) :
    (ns.declare item).rpcs.contains name = true ↔
      ns.rpcs.contains name = true ∨ item.rpcName? = some name := by
  cases item with
  | rpc rpcName input output =>
      rw [declare, NameMap.contains_insert, Item.rpcName?, Option.some.injEq, or_comm,
        @eq_comm _ name]
  | _ => simp [declare, Item.rpcName?]

theorem not_contains_declare_rpcs {ns : Namespace} {item : Item} {items : List Item}
    (hitem : ∀ name, item.rpcName? = some name → name ∉ Item.rpcNames items)
    (hnew : ∀ name ∈ Item.rpcNames (item :: items), ns.rpcs.contains name = false) :
    ∀ name ∈ Item.rpcNames items, (ns.declare item).rpcs.contains name = false := by
  intro name hname
  rw [Bool.eq_false_iff, ne_eq, contains_declare_rpcs, not_or]
  refine ⟨?_, fun heq => hitem name heq hname⟩
  rw [hnew name (Item.mem_rpcNames_cons.mpr (.inr hname))]
  exact Bool.false_ne_true

theorem contains_declareAll_rpcs (ns : Namespace) (items : List Item) (name : String) :
    (ns.declareAll items).rpcs.contains name = true ↔
      ns.rpcs.contains name = true ∨ name ∈ Item.rpcNames items := by
  induction items generalizing ns with
  | nil => simp [declareAll, Item.rpcNames]
  | cons item items ih =>
      rw [declareAll, ih, contains_declare_rpcs, or_assoc]
      rw [Item.mem_rpcNames_cons]

end Namespace

end InterfaceSchema
