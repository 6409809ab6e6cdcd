import InterfaceSchema.Proofs.Parser.Grammar
import InterfaceSchema.Proofs.Schema.Merge

namespace InterfaceSchema

theorem RecordType.indexed_ofProperties (name : String) (properties : List Property) :
    (ofProperties name properties).properties.Indexed Property.name := by
  have hfold : ∀ {type : RecordType}, type.properties.Indexed Property.name →
      (properties.foldl addProperty type).properties.Indexed Property.name := by
    induction properties with
    | nil => exact id
    | cons property properties ih =>
      intro type h
      exact ih (h.addIfNew property)
  exact hfold .empty

namespace Namespace

theorem declare_name (ns : Namespace) (item : Item) : (ns.declare item).name = ns.name := by
  cases item <;> rw [declare]

theorem declareAll_name (ns : Namespace) (items : List Item) :
    (ns.declareAll items).name = ns.name := by
  induction items generalizing ns with
  | nil => rw [declareAll]
  | cons item items ih => rw [declareAll, ih, declare_name]

theorem declare_eq_merge (ns : Namespace) (item : Item)
    (h : ∀ name, item.rpcName? = some name → ns.rpcs.contains name = false) :
    ns.declare item = ns.merge ((ofName ns.name).declare item) := by
  rw [merge_eq, declare_name]
  change _ = { name := mergedName ns.name ns.name, .. : Namespace }
  rw [mergedName_self]
  cases item with
  | rpc name input output =>
    have hnew : ns.rpcs.addIfNew Rpc.name ⟨name, input, [output]⟩ =
        ns.rpcs.insert name ⟨name, input, [output]⟩ :=
      NameMap.addIfNew_of_not_contains (h name rfl)
    rw [declare, declare, ← hnew]
    rfl
  | _ =>
    rw [declare, declare]
    rfl

mutual

theorem sound_declare (item : Item) : ∀ {ns : Namespace}, ns.Sound →
    (ns.declare item).Sound := by
  intro ns h
  cases item with
  | scope name body =>
    have hbody := sound_declareAll body (Sound.ofName name)
    rw [declare_eq_merge ns _ (fun _ hname => by cases hname)]
    refine h.merge ?_
    rw [declare]
    refine .intro { Consistent.ofName ns.name with
      children := NameMap.Indexed.empty.insert ((ofName name).declareAll body) } ?_
    intro key child hchild
    exact NameMap.get?_insert_empty hchild ▸ hbody
  | option key value =>
    rw [declare]
    exact .intro { h.here with options := h.here.options.insert key value } h.child
  | type name properties =>
    rw [declare_eq_merge ns _ (fun _ hname => by cases hname)]
    refine h.merge ?_
    rw [declare]
    refine .intro { Consistent.ofName ns.name with
      types := NameMap.Indexed.empty.insert (RecordType.ofProperties name properties)
      properties := ?_ } nofun
    intro key type htype
    exact NameMap.get?_insert_empty htype ▸ RecordType.indexed_ofProperties name properties
  | enum name members =>
    rw [declare_eq_merge ns _ (fun _ hname => by cases hname)]
    refine h.merge ?_
    rw [declare]
    refine .intro { Consistent.ofName ns.name with
      enums := NameMap.Indexed.empty.insert (EnumType.ofMembers name members)
      members := ?_ } nofun
    intro key enum henum
    exact NameMap.get?_insert_empty henum ▸ EnumType.nodup_pushAll List.nodup_nil members
  | rpc name input output =>
    rw [declare]
    exact .intro { h.here with rpcs := h.here.rpcs.insert ⟨name, input, [output]⟩ } h.child

theorem sound_declareAll (items : List Item) : ∀ {ns : Namespace}, ns.Sound →
    (ns.declareAll items).Sound := by
  intro ns h
  cases items with
  | nil => rwa [declareAll]
  | cons item items =>
    rw [declareAll]
    exact sound_declareAll items (sound_declare item h)

end

theorem declareAll_eq_merge {ns : Namespace} (h : ns.Sound) {items : List Item}
    (hnodup : (Item.rpcNames items).Nodup)
    (hnew : ∀ name ∈ Item.rpcNames items, ns.rpcs.contains name = false) :
    ns.declareAll items = ns.merge ((ofName ns.name).declareAll items) := by
  induction items generalizing ns with
  | nil =>
    rw [declareAll, declareAll, merge_ofName (mergedName_self ns.name)]
  | cons item items ih =>
    obtain ⟨hitem, hnodup⟩ := Item.nodup_rpcNames_cons.mp hnodup
    have hself := declare_eq_merge ns item fun name hname =>
      hnew name (Item.mem_rpcNames_cons.mpr (.inl hname))
    have halone := Sound.ofName ns.name
    calc ns.declareAll (item :: items)
        = (ns.declare item).declareAll items := by rw [declareAll]
      _ = (ns.declare item).merge ((ofName ns.name).declareAll items) := by
          rw [ih (sound_declare item h) hnodup (not_contains_declare_rpcs hitem hnew), declare_name]
      _ = ns.merge (((ofName ns.name).declare item).merge ((ofName ns.name).declareAll items)) := by
          rw [hself, h.wellFormed.merge_assoc (sound_declare item halone).wellFormed
            (sound_declareAll items halone).wellFormed]
      _ = ns.merge (((ofName ns.name).declare item).declareAll items) := by
          rw [ih (sound_declare item halone) hnodup
            (not_contains_declare_rpcs hitem fun _ _ => rfl), declare_name]
          rfl
      _ = ns.merge ((ofName ns.name).declareAll (item :: items)) := by rw [declareAll]

end Namespace

end InterfaceSchema
