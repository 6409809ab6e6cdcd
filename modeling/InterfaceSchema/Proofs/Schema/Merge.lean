import InterfaceSchema.Schema.Namespace
import InterfaceSchema.Proofs.Schema.NameMap
import InterfaceSchema.Proofs.Lists

namespace InterfaceSchema

namespace EnumType

@[simp] theorem push_name (e : EnumType) (member : String) : (e.push member).name = e.name := by
  unfold push
  split <;> rfl

@[simp] theorem pushAll_nil (e : EnumType) : e.pushAll [] = e := rfl

@[simp] theorem pushAll_cons (e : EnumType) (member : String) (members : List String) :
    e.pushAll (member :: members) = (e.push member).pushAll members := rfl

theorem pushAll_append (e : EnumType) (xs ys : List String) :
    e.pushAll (xs ++ ys) = (e.pushAll xs).pushAll ys :=
  List.foldl_append

@[simp] theorem pushAll_name (e : EnumType) (members : List String) :
    (e.pushAll members).name = e.name := by
  induction members generalizing e with
  | nil => rfl
  | cons member members ih => rw [pushAll_cons, ih, push_name]

theorem lists_iff {e : EnumType} {member : String} :
    e.lists member = true ↔ member ∈ e.members :=
  List.contains_iff_mem

theorem push_of_mem {e : EnumType} {member : String} (h : member ∈ e.members) :
    e.push member = e := by
  rw [push, if_pos (lists_iff.mpr h)]

theorem push_members_of_not_mem {e : EnumType} {member : String} (h : member ∉ e.members) :
    (e.push member).members = e.members ++ [member] := by
  rw [push, if_neg (fun hl => h (lists_iff.mp hl))]

theorem mem_push {e : EnumType} {member other : String} :
    other ∈ (e.push member).members ↔ other ∈ e.members ∨ other = member := by
  by_cases h : member ∈ e.members
  · rw [push_of_mem h]
    constructor
    · exact .inl
    · rintro (ho | rfl)
      · exact ho
      · exact h
  · rw [push_members_of_not_mem h]
    simp

theorem mem_pushAll {e : EnumType} {members : List String} {other : String} :
    other ∈ (e.pushAll members).members ↔ other ∈ e.members ∨ other ∈ members := by
  induction members generalizing e with
  | nil => simp
  | cons member members ih => rw [pushAll_cons, ih, mem_push, List.mem_cons, or_assoc]

theorem pushAll_push (e f : EnumType) (member : String) :
    e.pushAll (f.push member).members = (e.pushAll f.members).push member := by
  by_cases h : member ∈ f.members
  · rw [push_of_mem h, push_of_mem (mem_pushAll.mpr (.inr h))]
  · rw [push_members_of_not_mem h, pushAll_append]
    rfl

theorem merge_assoc (a b c : EnumType) : (a.merge b).merge c = a.merge (b.merge c) := by
  obtain ⟨name, members⟩ := c
  change (a.pushAll b.members).pushAll members = a.pushAll (b.pushAll members).members
  induction members generalizing b with
  | nil => rfl
  | cons member members ih => rw [pushAll_cons, pushAll_cons, ← pushAll_push, ih]

theorem nodup_push {e : EnumType} (h : e.members.Nodup) (member : String) :
    (e.push member).members.Nodup := by
  by_cases hm : member ∈ e.members
  · rwa [push_of_mem hm]
  · rw [push_members_of_not_mem hm, ← List.concat_eq_append]
    exact h.concat hm

theorem nodup_pushAll {e : EnumType} (h : e.members.Nodup) (members : List String) :
    (e.pushAll members).members.Nodup := by
  induction members generalizing e with
  | nil => exact h
  | cons member members ih => exact ih (nodup_push h member)

theorem members_pushAll {e : EnumType} (h : e.members.Nodup) (members : List String) :
    (e.pushAll members).members = (e.members ++ members).eraseDups := by
  induction members generalizing e with
  | nil => rw [pushAll_nil, List.append_nil, List.eraseDups_of_nodup h]
  | cons member members ih =>
      rw [pushAll_cons, ih (nodup_push h member)]
      by_cases hm : member ∈ e.members
      · rw [push_of_mem hm, List.eraseDups_append, List.eraseDups_append]
        simp [List.removeAll, hm]
      · rw [push_members_of_not_mem hm, List.append_assoc, List.singleton_append]

end EnumType

namespace RecordType

theorem get?_merge_properties (a : RecordType) {b : RecordType}
    (hb : b.properties.Indexed Property.name) (key : String) :
    (a.merge b).properties.get? key = (b.properties.get? key).or (a.properties.get? key) := by
  rw [merge, hb.get?_foldl_add, merge_new]

theorem ordered_merge {a : RecordType} (ha : a.properties.Ordered) (b : RecordType) :
    (a.merge b).properties.Ordered :=
  ha.foldl (fun _ _ h => h.add _ _ _) _

theorem indexed_merge {a b : RecordType} (ha : a.properties.Indexed Property.name)
    (hb : b.properties.Indexed Property.name) :
    (a.merge b).properties.Indexed Property.name :=
  hb.foldl_add ha (fun _ _ h => h.symm)

theorem ext_properties {a b : RecordType} (hname : a.name = b.name)
    (ha : a.properties.Ordered) (hb : b.properties.Ordered)
    (h : ∀ key, a.properties.get? key = b.properties.get? key) : a = b := by
  have hprops := ha.ext hb h
  cases a; cases b; simp_all

theorem merge_assoc {a b c : RecordType} (ha : a.properties.Ordered)
    (hb : b.properties.Indexed Property.name) (hc : c.properties.Indexed Property.name) :
    (a.merge b).merge c = a.merge (b.merge c) := by
  refine ext_properties rfl (ordered_merge (ordered_merge ha b) c) (ordered_merge ha _) ?_
  intro key
  rw [get?_merge_properties _ hc, get?_merge_properties _ hb,
    get?_merge_properties _ (indexed_merge hb hc), get?_merge_properties _ hc, Option.or_assoc]

end RecordType

namespace Namespace

theorem merge_eq (a b : Namespace) :
    a.merge b =
      { name := mergedName a.name b.name
        children := b.children.values.foldl (NameMap.add name merge) a.children
        options := a.options.insertAll b.options.entries
        types := b.types.values.foldl (NameMap.add RecordType.name RecordType.merge) a.types
        enums := b.enums.values.foldl (NameMap.add EnumType.name EnumType.merge) a.enums
        rpcs := b.rpcs.values.foldl (NameMap.addIfNew Rpc.name) a.rpcs } := by
  cases b
  rw [merge, mergeChildren_eq_foldl]
  rfl

theorem merge_name (a b : Namespace) : (a.merge b).name = mergedName a.name b.name := by
  rw [merge_eq]

theorem mergedName_self (name : String) : mergedName name name = name := by
  unfold mergedName
  split <;> rfl

theorem mergedName_assoc (a b c : String) :
    mergedName (mergedName a b) c = mergedName a (mergedName b c) := by
  unfold mergedName
  split <;> simp_all

structure Indexed (ns : Namespace) : Prop where
  children : ns.children.Indexed Namespace.name
  options : ns.options.Ordered
  types : ns.types.Indexed RecordType.name
  properties : ∀ {key type}, ns.types.get? key = some type →
    type.properties.Indexed Property.name
  enums : ns.enums.Indexed EnumType.name
  rpcs : ns.rpcs.Indexed Rpc.name

namespace Indexed

variable {a b : Namespace}

theorem get?_merge_children (hb : b.Indexed) (a : Namespace) (key : String) :
    (a.merge b).children.get? key =
      Option.merge merge (a.children.get? key) (b.children.get? key) := by
  rw [merge_eq, hb.children.get?_foldl_add]

theorem get?_merge_options (hb : b.Indexed) (a : Namespace) (key : String) :
    (a.merge b).options.get? key = (b.options.get? key).or (a.options.get? key) := by
  rw [merge_eq, hb.options.get?_insertAll]

theorem get?_merge_types (hb : b.Indexed) (a : Namespace) (key : String) :
    (a.merge b).types.get? key =
      Option.merge RecordType.merge (a.types.get? key) (b.types.get? key) := by
  rw [merge_eq, hb.types.get?_foldl_add]

theorem get?_merge_enums (hb : b.Indexed) (a : Namespace) (key : String) :
    (a.merge b).enums.get? key =
      Option.merge EnumType.merge (a.enums.get? key) (b.enums.get? key) := by
  rw [merge_eq, hb.enums.get?_foldl_add]

theorem get?_merge_rpcs (hb : b.Indexed) (a : Namespace) (key : String) :
    (a.merge b).rpcs.get? key = (a.rpcs.get? key).or (b.rpcs.get? key) := by
  rw [merge_eq, hb.rpcs.get?_foldl_addIfNew]

theorem ext (ha : a.Indexed) (hb : b.Indexed) (hname : a.name = b.name)
    (hchildren : ∀ key, a.children.get? key = b.children.get? key)
    (hoptions : ∀ key, a.options.get? key = b.options.get? key)
    (htypes : ∀ key, a.types.get? key = b.types.get? key)
    (henums : ∀ key, a.enums.get? key = b.enums.get? key)
    (hrpcs : ∀ key, a.rpcs.get? key = b.rpcs.get? key) : a = b := by
  have h₁ := ha.children.ordered.ext hb.children.ordered hchildren
  have h₂ := ha.options.ext hb.options hoptions
  have h₃ := ha.types.ordered.ext hb.types.ordered htypes
  have h₄ := ha.enums.ordered.ext hb.enums.ordered henums
  have h₅ := ha.rpcs.ordered.ext hb.rpcs.ordered hrpcs
  cases a; cases b; simp_all

theorem ofName (name : String) : (Namespace.ofName name).Indexed :=
  ⟨.empty, NameMap.ordered_empty, .empty, fun h => by simp [Namespace.ofName] at h, .empty, .empty⟩

theorem merge (ha : a.Indexed) (hb : b.Indexed) : (a.merge b).Indexed where
  children := by
    rw [merge_eq]
    refine hb.children.foldl_add ha.children ?_
    intro x y hxy
    rw [merge_name, ← hxy, mergedName_self]
  options := by
    rw [merge_eq]
    exact ha.options.insertAll _
  types := by
    rw [merge_eq]
    exact hb.types.foldl_add ha.types (fun _ _ _ => rfl)
  properties := by
    intro key type h
    rw [hb.get?_merge_types, Option.merge_eq_some_iff] at h
    rcases h with ⟨hx, -⟩ | ⟨-, hy⟩ | ⟨x, y, hx, hy, rfl⟩
    · exact ha.properties hx
    · exact hb.properties hy
    · exact RecordType.indexed_merge (ha.properties hx) (hb.properties hy)
  enums := by
    rw [merge_eq]
    exact hb.enums.foldl_add ha.enums (fun x y _ => EnumType.pushAll_name x y.members)
  rpcs := by
    rw [merge_eq]
    exact hb.rpcs.foldl_addIfNew ha.rpcs

end Indexed

structure Consistent (ns : Namespace) : Prop extends Indexed ns where
  members : ∀ {key enum}, ns.enums.get? key = some enum → enum.members.Nodup

namespace Consistent

theorem ofName (name : String) : (Namespace.ofName name).Consistent :=
  { Indexed.ofName name with members := fun h => by simp [Namespace.ofName] at h }

theorem merge {a b : Namespace} (ha : a.Consistent) (hb : b.Consistent) :
    (a.merge b).Consistent := by
  refine { ha.toIndexed.merge hb.toIndexed with members := ?_ }
  intro key enum h
  rw [hb.get?_merge_enums, Option.merge_eq_some_iff] at h
  rcases h with ⟨hx, -⟩ | ⟨-, hy⟩ | ⟨x, y, hx, -, rfl⟩
  · exact ha.members hx
  · exact hb.members hy
  · exact EnumType.nodup_pushAll (ha.members hx) y.members

end Consistent

inductive Everywhere (P : Namespace → Prop) : Namespace → Prop
  | intro {ns : Namespace} (here : P ns)
      (below : ∀ {key child}, ns.children.get? key = some child → Everywhere P child) :
      Everywhere P ns

namespace Everywhere

variable {P Q : Namespace → Prop} {a b : Namespace}

theorem here (h : Everywhere P a) : P a := by
  cases h with
  | intro here _ => exact here

theorem child (h : Everywhere P a) {key : String} {child : Namespace}
    (hc : a.children.get? key = some child) : Everywhere P child := by
  cases h with
  | intro _ below => exact below hc

theorem imp (hPQ : ∀ ns, P ns → Q ns) (h : Everywhere P a) : Everywhere Q a := by
  induction h with
  | intro here _ ih => exact .intro (hPQ _ here) (fun hc => ih hc)

theorem ofName (name : String) (h : P (Namespace.ofName name)) :
    Everywhere P (Namespace.ofName name) :=
  .intro h (fun hc => by simp [Namespace.ofName] at hc)

-- What holds of both scopes at a place holds of the scope that they make there, and so on down.
theorem merge (hIndexed : ∀ ns, P ns → ns.Indexed) (hP : ∀ x y, P x → P y → P (x.merge y))
    (ha : Everywhere P a) (hb : Everywhere P b) : Everywhere P (a.merge b) := by
  induction ha generalizing b with
  | @intro a ha hbelow ih =>
      refine .intro (hP a b ha hb.here) ?_
      intro key child hc
      rw [(hIndexed b hb.here).get?_merge_children, Option.merge_eq_some_iff] at hc
      rcases hc with ⟨hx, -⟩ | ⟨-, hy⟩ | ⟨x, y, hx, hy, rfl⟩
      · exact hbelow hx
      · exact hb.child hy
      · exact ih hx (hb.child hy)

end Everywhere

def WellFormed (ns : Namespace) : Prop :=
  ns.Everywhere Indexed

namespace WellFormed

variable {a b c : Namespace}

theorem ofName (name : String) : (Namespace.ofName name).WellFormed :=
  Everywhere.ofName name (Indexed.ofName name)

theorem merge (ha : a.WellFormed) (hb : b.WellFormed) : (a.merge b).WellFormed :=
  Everywhere.merge (fun _ h => h) (fun _ _ => Indexed.merge) ha hb

theorem merge_assoc (ha : a.WellFormed) (hb : b.WellFormed) (hc : c.WellFormed) :
    (a.merge b).merge c = a.merge (b.merge c) := by
  induction ha generalizing b c with
  | @intro a ha hbelow ih =>
      have hbc : (b.merge c).Indexed := hb.here.merge hc.here
      refine ((ha.merge hb.here).merge hc.here).ext (ha.merge hbc) ?_ ?_ ?_ ?_ ?_ ?_
      · simp only [merge_name, mergedName_assoc]
      · intro key
        rw [hc.here.get?_merge_children, hb.here.get?_merge_children, hbc.get?_merge_children,
          hc.here.get?_merge_children]
        cases hx : a.children.get? key <;> cases hy : b.children.get? key <;>
          cases hz : c.children.get? key <;> try rfl
        exact congrArg some (ih hx (hb.child hy) (hc.child hz))
      · intro key
        rw [hc.here.get?_merge_options, hb.here.get?_merge_options, hbc.get?_merge_options,
          hc.here.get?_merge_options, Option.or_assoc]
      · intro key
        rw [hc.here.get?_merge_types, hb.here.get?_merge_types, hbc.get?_merge_types,
          hc.here.get?_merge_types]
        cases hx : a.types.get? key <;> cases hy : b.types.get? key <;>
          cases hz : c.types.get? key <;> try rfl
        exact congrArg some (RecordType.merge_assoc (ha.properties hx).ordered
          (hb.here.properties hy) (hc.here.properties hz))
      · intro key
        rw [hc.here.get?_merge_enums, hb.here.get?_merge_enums, hbc.get?_merge_enums,
          hc.here.get?_merge_enums]
        cases a.enums.get? key <;> cases b.enums.get? key <;> cases c.enums.get? key <;> try rfl
        exact congrArg some (EnumType.merge_assoc _ _ _)
      · intro key
        rw [hc.here.get?_merge_rpcs, hb.here.get?_merge_rpcs, hbc.get?_merge_rpcs,
          hc.here.get?_merge_rpcs, Option.or_assoc]

end WellFormed

def Sound (ns : Namespace) : Prop :=
  ns.Everywhere Consistent

namespace Sound

variable {a b : Namespace}

theorem wellFormed (h : a.Sound) : a.WellFormed :=
  h.imp fun _ => Consistent.toIndexed

theorem ofName (name : String) : (Namespace.ofName name).Sound :=
  Everywhere.ofName name (Consistent.ofName name)

theorem merge (ha : a.Sound) (hb : b.Sound) : (a.merge b).Sound :=
  Everywhere.merge (fun _ => Consistent.toIndexed) (fun _ _ => Consistent.merge) ha hb

end Sound

theorem ofName_merge {a : Namespace} (ha : a.Indexed) {name : String}
    (hname : mergedName name a.name = a.name) : (ofName name).merge a = a := by
  refine ((Indexed.ofName name).merge ha).ext ha ?_ ?_ ?_ ?_ ?_ ?_
  · rw [merge_name]; exact hname
  · intro key
    rw [ha.get?_merge_children]; simp [ofName]
  · intro key
    rw [ha.get?_merge_options]; simp [ofName]
  · intro key
    rw [ha.get?_merge_types]; simp [ofName]
  · intro key
    rw [ha.get?_merge_enums]; simp [ofName]
  · intro key
    rw [ha.get?_merge_rpcs]; simp [ofName]

theorem merge_ofName {a : Namespace} {name : String} (hname : mergedName a.name name = a.name) :
    a.merge (ofName name) = a := by
  rw [merge_eq]
  change { a with name := mergedName a.name name } = a
  rw [hname]
  cases a
  rfl

end Namespace

end InterfaceSchema
