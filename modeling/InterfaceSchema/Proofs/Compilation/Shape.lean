import InterfaceSchema.Proofs.Compilation.Names
import InterfaceSchema.Proofs.Package.References
import InterfaceSchema.Proofs.Schema.Conservation

namespace InterfaceSchema

namespace TypeRef

theorem depth_le_depthAll {type : TypeRef} {types : List TypeRef} (h : type ∈ types) :
    type.depth ≤ depthAll types := by
  induction types with
  | nil => cases h
  | cons first rest ih =>
    rw [depthAll]
    rcases List.mem_cons.mp h with rfl | h
    · exact Nat.le_max_left _ _
    · exact Nat.le_trans (ih h) (Nat.le_max_right _ _)

def Fits (level : Nat) (type : TypeRef) : Prop :=
  type.Worded ∧ level + type.depth ≤ nestingLimit

end TypeRef

theorem RecordType.mem_of_get?_ofProperties {name key : String} {properties : List Property}
    {property : Property}
    (h : (ofProperties name properties).properties.get? key = some property) :
    property ∈ properties := by
  have hfold : ∀ type : RecordType,
      (properties.foldl addProperty type).properties.get? key = some property →
        type.properties.get? key = some property ∨ property ∈ properties := by
    clear h
    induction properties with
    | nil => exact fun _ => .inl
    | cons first rest ih =>
      intro type h
      rcases ih (type.addProperty first) h with h | h
      · rw [addProperty, NameMap.get?_addIfNew, merge_old] at h
        split at h
        · rcases Option.or_eq_some_iff.mp h with h | ⟨-, h⟩
          · exact .inl h
          · exact .inr (Option.some.inj h ▸ List.mem_cons_self)
        · exact .inl h
      · exact .inr (List.mem_cons_of_mem first h)
  exact (hfold (.ofName name) h).resolve_left fun hempty => by cases hempty

namespace Namespace

structure Shaped (level : Nat) (ns : Namespace) : Prop where
  level_le : level ≤ nestingLimit
  property : ∀ {key type}, ns.types.get? key = some type →
    ∀ {name property}, type.properties.get? name = some property →
      Word property.name ∧ property.type.Fits level
  member : ∀ {key enum}, ns.enums.get? key = some enum → ∀ member ∈ enum.members, Word member
  signature : ∀ {key rpc}, ns.rpcs.get? key = some rpc →
    (∃ type, rpc.output = [type]) ∧ ∀ type ∈ rpc.types, type.Fits level

namespace Shaped

variable {level : Nat} {a b : Namespace}

theorem ofName (name : String) (h : level ≤ nestingLimit) :
    (Namespace.ofName name).Shaped level where
  level_le := h
  property := nofun
  member := nofun
  signature := nofun

theorem merge (ha : a.Shaped level) (hb : b.Shaped level) (hindexed : b.Indexed) :
    (a.merge b).Shaped level where
  level_le := ha.level_le
  property := by
    intro key type htype name property hproperty
    rw [hindexed.get?_merge_types, Option.merge_eq_some_iff] at htype
    rcases htype with ⟨hx, -⟩ | ⟨-, hy⟩ | ⟨x, y, hx, hy, rfl⟩
    · exact ha.property hx hproperty
    · exact hb.property hy hproperty
    · rw [RecordType.get?_merge_properties x (hindexed.properties hy),
        Option.or_eq_some_iff] at hproperty
      rcases hproperty with hproperty | ⟨-, hproperty⟩
      · exact hb.property hy hproperty
      · exact ha.property hx hproperty
  member := by
    intro key enum henum member hmember
    rw [hindexed.get?_merge_enums, Option.merge_eq_some_iff] at henum
    rcases henum with ⟨hx, -⟩ | ⟨-, hy⟩ | ⟨x, y, hx, hy, rfl⟩
    · exact ha.member hx member hmember
    · exact hb.member hy member hmember
    · rcases EnumType.mem_pushAll.mp hmember with hmember | hmember
      · exact ha.member hx member hmember
      · exact hb.member hy member hmember
  signature := by
    intro key rpc hrpc
    rw [hindexed.get?_merge_rpcs, Option.or_eq_some_iff] at hrpc
    rcases hrpc with hrpc | ⟨-, hrpc⟩
    · exact ha.signature hrpc
    · exact hb.signature hrpc

end Shaped

def ShapedFrom (level : Nat) (ns : Namespace) : Prop :=
  ∀ path scope, ns.scopeAt? path = some scope → scope.Shaped (level + path.length)

namespace ShapedFrom

variable {level : Nat} {a b ns : Namespace}

theorem here (h : ns.ShapedFrom level) : ns.Shaped level :=
  h [] ns rfl

theorem child (h : ns.ShapedFrom level) {key : String} {child : Namespace}
    (hchild : ns.children.get? key = some child) : child.ShapedFrom (level + 1) := by
  intro path scope hscope
  have hpath : ns.scopeAt? (key :: path) = some scope :=
    Option.bind_eq_some_iff.mpr ⟨child, hchild, hscope⟩
  have hshaped := h (key :: path) scope hpath
  rwa [List.length_cons, Nat.add_comm path.length, ← Nat.add_assoc] at hshaped

theorem intro (here : ns.Shaped level)
    (below : ∀ {key child}, ns.children.get? key = some child → child.ShapedFrom (level + 1)) :
    ns.ShapedFrom level := by
  intro path scope hscope
  cases path with
  | nil => exact Option.some.inj hscope ▸ here
  | cons key path =>
    obtain ⟨child, hchild, hscope⟩ := Option.bind_eq_some_iff.mp hscope
    rw [List.length_cons, Nat.add_comm path.length, ← Nat.add_assoc]
    exact below hchild path scope hscope

theorem ofName (name : String) (h : level ≤ nestingLimit) :
    (Namespace.ofName name).ShapedFrom level :=
  .intro (.ofName name h) nofun

theorem merge (ha : a.ShapedFrom level) (hb : b.ShapedFrom level) (hawf : a.WellFormed)
    (hbwf : b.WellFormed) : (a.merge b).ShapedFrom level := by
  intro path scope hscope
  rw [merges_scopeAt? path hawf hbwf, Option.merge_eq_some_iff] at hscope
  rcases hscope with ⟨hx, -⟩ | ⟨-, hy⟩ | ⟨x, y, hx, hy, rfl⟩
  · exact ha path scope hx
  · exact hb path scope hy
  · exact (ha path x hx).merge (hb path y hy) (Everywhere.of_scopeAt? hbwf hy).here

end ShapedFrom

theorem shaped_type {level : Nat} (scope name : String) {properties : List Property}
    (hlevel : level ≤ nestingLimit)
    (h : ∀ property ∈ properties, Word property.name ∧ property.type.Fits level) :
    ((ofName scope).declare (.type name properties)).Shaped level := by
  rw [declare]
  refine { Shaped.ofName scope hlevel with property := ?_ }
  intro key type htype name property hproperty
  obtain rfl := NameMap.get?_insert_empty htype
  exact h property (RecordType.mem_of_get?_ofProperties hproperty)

theorem shaped_enum {level : Nat} (scope name : String) {members : List String}
    (hlevel : level ≤ nestingLimit) (h : ∀ member ∈ members, Word member) :
    ((ofName scope).declare (.enum name members)).Shaped level := by
  rw [declare]
  refine { Shaped.ofName scope hlevel with member := ?_ }
  intro key enum henum member hmember
  obtain rfl := NameMap.get?_insert_empty henum
  exact h member ((EnumType.mem_pushAll.mp hmember).resolve_left nofun)

mutual

theorem shapedFrom_declare (item : Item) (hitem : item.Worded) : ∀ {level : Nat} {ns : Namespace},
    level + item.depth ≤ nestingLimit → ns.Sound → ns.ShapedFrom level →
      (ns.declare item).ShapedFrom level := by
  intro level ns hdepth hsound h
  have hlevel := h.here.level_le
  have halone := sound_declare item (Sound.ofName ns.name)
  cases item with
  | scope name body =>
    rw [Item.Worded] at hitem
    rw [Item.depth, Nat.add_comm (Item.depthAll body), ← Nat.add_assoc] at hdepth
    have hbody := shapedFrom_declareAll body hitem.2 hdepth (Sound.ofName name)
      (.ofName name (Nat.le_of_add_right_le hdepth))
    rw [declare_eq_merge ns _ (fun _ hname => by cases hname)]
    refine h.merge ?_ hsound.wellFormed halone.wellFormed
    rw [declare]
    refine .intro { Shaped.ofName ns.name hlevel with } ?_
    intro key child hchild
    exact NameMap.get?_insert_empty hchild ▸ hbody
  | option key value =>
    rw [declare]
    exact .intro { h.here with } h.child
  | type name properties =>
    rw [declare_eq_merge ns _ (fun _ hname => by cases hname)]
    refine h.merge (.intro (shaped_type ns.name name hlevel ?_) nofun) hsound.wellFormed
      halone.wellFormed
    intro property hproperty
    obtain ⟨hname, htype⟩ := hitem.2 property hproperty
    have hle : property.type.depth ≤ TypeRef.depthAll (properties.map Property.type) :=
      TypeRef.depth_le_depthAll (List.mem_map_of_mem hproperty)
    exact ⟨hname, htype, Nat.le_trans (Nat.add_le_add_left hle level) hdepth⟩
  | enum name members =>
    rw [declare_eq_merge ns _ (fun _ hname => by cases hname)]
    exact h.merge (.intro (shaped_enum ns.name name hlevel hitem.2) nofun) hsound.wellFormed
      halone.wellFormed
  | rpc name input output =>
    rw [Item.depth] at hdepth
    rw [declare]
    refine .intro { h.here with signature := ?_ } h.child
    intro key rpc hrpc
    rw [NameMap.get?_insert] at hrpc
    split at hrpc
    · obtain rfl := Option.some.inj hrpc
      refine ⟨⟨output, rfl⟩, fun type htype => ?_⟩
      rcases List.mem_append.mp htype with htype | htype
      · have hle : type.depth ≤ TypeRef.depthAll input := TypeRef.depth_le_depthAll htype
        exact ⟨hitem.2.1 type htype, by omega⟩
      · obtain rfl := List.mem_singleton.mp htype
        exact ⟨hitem.2.2, by omega⟩
    · exact h.here.signature hrpc

theorem shapedFrom_declareAll (items : List Item) (hitems : Item.WordedAll items) :
    ∀ {level : Nat} {ns : Namespace}, level + Item.depthAll items ≤ nestingLimit → ns.Sound →
      ns.ShapedFrom level → (ns.declareAll items).ShapedFrom level := by
  intro level ns hdepth hsound h
  cases items with
  | nil => rwa [declareAll]
  | cons item items =>
    rw [Item.WordedAll] at hitems
    rw [Item.depthAll] at hdepth
    rw [declareAll]
    exact shapedFrom_declareAll items hitems.2 (by omega) (sound_declare item hsound)
      (shapedFrom_declare item hitems.1 (by omega) hsound h)

end

theorem shapedFrom_of_parseSource {text : String} {ns : Namespace}
    (h : (parseSource text).value = .ok ns) : ns.ShapedFrom 0 := by
  obtain ⟨items, hwrites, hitems, rfl⟩ := writes_of_parseSource h
  exact shapedFrom_declareAll items hwrites.worded hitems.depth sound_root
    (.ofName rootName (Nat.zero_le nestingLimit))

structure Lawful (level : Nat) (ns : Namespace) : Prop where
  level_le : level ≤ nestingLimit
  indexed : ns.Indexed
  children : ∀ child ∈ ns.children.values, Word child.name ∧ child.name ∉ keywords
  options : ∀ key ∈ ns.options.keys, Word key ∧ key ∉ keywords
  types : ∀ type ∈ ns.types.values, Word type.name ∧ type.name ∉ keywords
  enums : ∀ enum ∈ ns.enums.values, Word enum.name ∧ enum.name ∉ keywords
  rpcs : ∀ rpc ∈ ns.rpcs.values, Word rpc.name ∧ rpc.name ∉ keywords
  properties : ∀ type ∈ ns.types.values, ∀ property ∈ type.properties.values, Word property.name
  members : ∀ enum ∈ ns.enums.values, enum.members.Nodup ∧ ∀ member ∈ enum.members, Word member
  outputs : ∀ rpc ∈ ns.rpcs.values, rpc.output.length = 1
  mentions : ∀ type, ns.Mentions type →
    (∀ name ∈ type.names, Word name) ∧ level + type.depth ≤ nestingLimit

theorem Lawful.of_shaped {level : Nat} {ns : Namespace} (htitled : ns.Titled)
    (hconsistent : ns.Consistent) (h : ns.Shaped level) : ns.Lawful level where
  level_le := h.level_le
  indexed := htitled.toIndexed
  children := fun _ hchild => (htitled.childTitle (htitled.children.contains_name hchild)).title
  options := fun _ hkey => (htitled.optionTitle (htitled.options.mem_keys.mp hkey)).title
  types := fun _ htype => (htitled.typeTitle (htitled.types.contains_name htype)).title
  enums := fun _ henum => (htitled.enumTitle (htitled.enums.contains_name henum)).title
  rpcs := fun _ hrpc => (htitled.rpcTitle (htitled.rpcs.contains_name hrpc)).title
  properties := by
    intro type htype property hproperty
    have hget := htitled.types.get?_name htype
    exact (h.property hget ((htitled.properties hget).get?_name hproperty)).1
  members := by
    intro enum henum
    have hget := htitled.enums.get?_name henum
    exact ⟨hconsistent.members hget, h.member hget⟩
  outputs := by
    intro rpc hrpc
    obtain ⟨type, houtput⟩ := (h.signature (htitled.rpcs.get?_name hrpc)).1
    rw [houtput, List.length_singleton]
  mentions := by
    rintro type (⟨record, hrecord, property, hproperty, rfl⟩ | ⟨rpc, hrpc, htype⟩)
    · have hget := htitled.types.get?_name hrecord
      exact (h.property hget ((htitled.properties hget).get?_name hproperty)).2
    · exact (h.signature (htitled.rpcs.get?_name hrpc)).2 type (List.mem_append.mpr htype)

theorem shapedFrom_of_compileSources {sources : List (String × String)} {ns : Namespace}
    (h : (compileSources sources).value = .ok ns) :
    ns.name = rootName ∧ ns.Sound ∧ ns.ShapedFrom 0 := by
  refine compileSources_induction
    (P := fun ns => ns.name = rootName ∧ ns.Sound ∧ ns.ShapedFrom 0) ?_ ?_ ?_ h
  · exact ⟨rfl, sound_root, .ofName rootName (Nat.zero_le nestingLimit)⟩
  · intro text parsed hparsed
    have hshaped := shapedFrom_of_parseSource hparsed
    obtain ⟨items, -, -, rfl⟩ := writes_of_parseSource hparsed
    exact ⟨declareAll_name root items, sound_declareAll items sound_root, hshaped⟩
  · rintro a b ⟨hname, ha, hashaped⟩ ⟨hname', hb, hbshaped⟩
    refine ⟨?_, ha.merge hb, hashaped.merge hbshaped ha.wellFormed hb.wellFormed⟩
    rw [merge_name, hname, hname', mergedName_self]

theorem Lawful.of_scopeAt? {sources : List (String × String)} {ns scope : Namespace}
    (h : (compileSources sources).value = .ok ns) {path : List String}
    (hscope : ns.scopeAt? path = some scope) : scope.Lawful path.length := by
  obtain ⟨-, hsound, hshaped⟩ := shapedFrom_of_compileSources h
  have hscoped := hshaped path scope hscope
  rw [Nat.zero_add] at hscoped
  exact .of_shaped (Everywhere.of_scopeAt? (titled_of_compileSources h) hscope).here
    (Everywhere.of_scopeAt? hsound hscope).here hscoped

theorem lawful_of_compileSources {sources : List (String × String)} {ns : Namespace}
    (h : (compileSources sources).value = .ok ns) :
    ns.name = "root" ∧
      ∀ path scope, ns.scopeAt? path = some scope → scope.Lawful path.length :=
  ⟨(shapedFrom_of_compileSources h).1, fun _ _ => Lawful.of_scopeAt? h⟩

theorem lawful_of_nested_scope :
    ∃ ns scope, (compileSources
        [("s", "namespace a\x7btype T\x7blist<T> type\x7denum E\x7bx x\x7d\x7d"),
         ("t", "namespace a\x7brpc f(T)map<string,T>\x7d")]).value = .ok ns ∧
      ns.scopeAt? ["a"] = some scope ∧ ns.name = "root" ∧ scope.Lawful 1 := by
  have hcompile : (compileSources
      [("s", "namespace a\x7btype T\x7blist<T> type\x7denum E\x7bx x\x7d\x7d"),
       ("t", "namespace a\x7brpc f(T)map<string,T>\x7d")]).value =
      .ok (root.declareAll [.scope "a" [.type "T" [⟨"type", ⟨"list", [⟨"T", []⟩]⟩⟩],
        .enum "E" ["x", "x"],
        .rpc "f" [⟨"T", []⟩] ⟨"map", [⟨"string", []⟩, ⟨"T", []⟩]⟩]]) := by decide +kernel
  obtain ⟨hname, hlawful⟩ := lawful_of_compileSources hcompile
  exact ⟨_, _, hcompile, rfl, hname, hlawful ["a"] _ rfl⟩

end Namespace

end InterfaceSchema
