import InterfaceSchema.Proofs.Parser.Reading

namespace InterfaceSchema

namespace Grammar

open InterfaceSchema.Parser

inductive Opened : List Token → Scopes → Prop
  | root {ts : List Token} {items : List Item} :
      Body ts items → Item.Admissible 0 items → Opened ts ⟨Namespace.root.declareAll items, []⟩
  | scope {ts us : List Token} {s : Scopes} {k n o : Token} {items : List Item} :
      Opened ts s → Announces k "namespace" → n.kind = .identifier → o.kind = .blockStart →
      Body us items → Item.Admissible (s.outer.length + 1) items →
      Opened (ts ++ k :: n :: o :: us)
        ⟨(Namespace.ofName n.value).declareAll items, s.inner :: s.outer⟩

theorem Opened.define {ts us : List Token} {s : Scopes} {item : Item} (h : Opened ts s)
    (hitem : Definition us item) (hdistinct : item.Distinct)
    (hdepth : s.outer.length + item.depth ≤ nestingLimit)
    (hnew : ∀ name, item.rpcName? = some name → s.inner.rpcs.contains name = false) :
    Opened (ts ++ us) (s.mapInner (·.declare item)) := by
  have hfresh {ns : Namespace} {items : List Item}
      (hinner : ∀ name, item.rpcName? = some name →
        (ns.declareAll items).rpcs.contains name = false) :
      ∀ name, item.rpcName? = some name → name ∉ Item.rpcNames items := by
    intro name hname hmem
    have hc := (Namespace.contains_declareAll_rpcs ns items name).mpr (.inr hmem)
    rw [hinner name hname] at hc
    cases hc
  cases h with
  | @root _ items hbody hitems =>
      rw [Scopes.mapInner, ← Namespace.declareAll_append_singleton]
      exact .root (hbody.append_definition hitem)
        (Item.admissible_append_singleton.mpr ⟨hitems, hdistinct, hdepth, hfresh hnew⟩)
  | @scope ts vs s k n o items hs hk hn ho hbody hitems =>
      rw [Scopes.mapInner, ← Namespace.declareAll_append_singleton, List.append_assoc]
      exact .scope hs hk hn ho (hbody.append_definition hitem)
        (Item.admissible_append_singleton.mpr ⟨hitems, hdistinct, hdepth, hfresh hnew⟩)

theorem Opened.length_le {ts : List Token} {s : Scopes} (h : Opened ts s) :
    s.outer.length ≤ nestingLimit := by
  cases h with
  | root _ hitems => exact Nat.zero_le _
  | scope _ _ _ _ _ hitems =>
      have hdepth := hitems.depth
      simp only [List.length_cons]
      omega

theorem Opened.close {ts : List Token} {s s' : Scopes} {c : Token} (h : Opened ts s)
    (hc : c.kind = .blockEnd) (hclose : s.close? = some s') : Opened (ts ++ [c]) s' := by
  cases h with
  | root => cases hclose
  | @scope ts us s k n o items hs hk hn ho hbody hitems =>
      have hdepth := hitems.depth
      have hitem : Definition (k :: n :: o :: (us ++ [c])) (.scope n.value items) :=
        .scope hk hn ho hbody hc
      have hdistinct : (Item.scope n.value items).Distinct := by
        rw [Item.Distinct]
        exact ⟨hitems.rpcNames, hitems.distinct⟩
      have hdefine := hs.define hitem hdistinct (by rw [Item.depth]; omega)
        (fun name hname => by cases hname)
      obtain rfl : s.mapInner (·.declare (.scope n.value items)) = s' := by
        simpa [Scopes.close?, Scopes.mapInner, Namespace.declare] using hclose
      simpa using hdefine

inductive Started : List Token → List TypeRef → Prop
  | nil : Started [] []
  | separated {ts : List Token} {s : Token} {types : List TypeRef} :
      Arguments ts types → s.kind = .separator → Started (ts ++ [s]) types

theorem Started.append_mention {ts us : List Token} {types : List TypeRef} {type : TypeRef}
    (h : Started ts types) (hm : Mention us type) : Arguments (ts ++ us) (types ++ [type]) := by
  cases h with
  | nil => exact .one hm
  | separated harguments hs =>
      rw [List.append_assoc, List.singleton_append]
      exact harguments.append_mention hs hm

theorem Started.inputs {ts : List Token} {types : List TypeRef} (h : Started ts types) :
    Inputs ts types := by
  cases h with
  | nil => exact .none
  | separated harguments hs => exact .trailing harguments hs

inductive OpenLists (level : Nat) : List Token → List ArgumentList → Prop
  | nil : OpenLists level [] []
  | list {ts us : List Token} {lists : List ArgumentList} {n o : Token} {types : List TypeRef} :
      OpenLists level ts lists → n.kind.isName → o.kind = .typeArgumentsStart →
      Started us types → level + (lists.length + 1) + TypeRef.depthAll types ≤ nestingLimit →
      OpenLists level (ts ++ n :: o :: us) (⟨n.value, types⟩ :: lists)

theorem OpenLists.length_le {level : Nat} {ts : List Token} {lists : List ArgumentList}
    (h : OpenLists level ts lists) (hlevel : level ≤ nestingLimit) :
    level + lists.length ≤ nestingLimit := by
  cases h with
  | nil => exact hlevel
  | list _ _ _ _ hbound =>
      simp only [List.length_cons]
      omega

end Grammar

def Slot.place : Slot → Place
  | .property record => .property record
  | .input signature => .input signature
  | .output signature => .output signature

namespace Grammar

open InterfaceSchema.Parser

inductive Pending (level : Nat) : Place → List Token → Prop
  | body : Pending level .body []
  | blockName {kind : BlockKind} {k : Token} :
      Announces k kind.word → (kind = .scope → level < nestingLimit) →
      Pending level (.blockName kind) [k]
  | block {kind : BlockKind} {k n : Token} :
      Announces k kind.word → (kind = .scope → level < nestingLimit) → n.kind = .identifier →
      Pending level (.block kind n.value) [k, n]
  | optionName {k : Token} : Announces k "option" → Pending level .optionName [k]
  | optionValue {k n : Token} :
      Announces k "option" → n.kind = .identifier → Pending level (.optionValue n.value) [k, n]
  | property {k n o : Token} {ts : List Token} {properties : List Property} :
      Announces k "type" → n.kind = .identifier → o.kind = .blockStart →
      Properties ts properties → (properties.map Property.name).Nodup →
      level + TypeRef.depthAll (properties.map Property.type) ≤ nestingLimit →
      Pending level (.property (.ofProperties n.value properties)) (k :: n :: o :: ts)
  | propertyName {record : RecordType} {type : TypeRef} {ts us : List Token} :
      Pending level (.property record) ts → Mention us type →
      level + type.depth ≤ nestingLimit → Pending level (.propertyName record type) (ts ++ us)
  | member {k n o : Token} {ts : List Token} {members : List String} :
      Announces k "enum" → n.kind = .identifier → o.kind = .blockStart → Members ts members →
      Pending level (.member (.ofMembers n.value members)) (k :: n :: o :: ts)
  | rpcName {k : Token} : Announces k "rpc" → Pending level .rpcName [k]
  | inputs {k n : Token} :
      Announces k "rpc" → n.kind = .identifier → Pending level (.inputs n) [k, n]
  | input {k n o : Token} {ts : List Token} {types : List TypeRef} :
      Announces k "rpc" → n.kind = .identifier → o.kind = .argumentsStart → Started ts types →
      level + TypeRef.depthAll types ≤ nestingLimit →
      Pending level (.input ⟨n, types⟩) (k :: n :: o :: ts)
  | inputEnd {k n o : Token} {ts : List Token} {types : List TypeRef} :
      Announces k "rpc" → n.kind = .identifier → o.kind = .argumentsStart →
      Arguments ts types → level + TypeRef.depthAll types ≤ nestingLimit →
      Pending level (.inputEnd ⟨n, types⟩) (k :: n :: o :: ts)
  | output {k n o c : Token} {ts : List Token} {types : List TypeRef} :
      Announces k "rpc" → n.kind = .identifier → o.kind = .argumentsStart → Inputs ts types →
      level + TypeRef.depthAll types ≤ nestingLimit → c.kind = .argumentsEnd →
      Pending level (.output ⟨n, types⟩) (k :: n :: o :: (ts ++ [c]))
  | argument {slot : Slot} {inner : ArgumentList} {outer : List ArgumentList}
      {ts us : List Token} :
      Pending level slot.place ts → OpenLists level us (inner :: outer) →
      Pending level (.argument slot inner outer) (ts ++ us)
  | argumentEnd {slot : Slot} {outer : List ArgumentList} {n o : Token} {ts us vs : List Token}
      {types : List TypeRef} :
      Pending level slot.place ts → OpenLists level us outer → n.kind.isName →
      o.kind = .typeArgumentsStart → Arguments vs types →
      level + (outer.length + 1) + TypeRef.depthAll types ≤ nestingLimit →
      Pending level (.argumentEnd slot ⟨n.value, types⟩ outer) (ts ++ (us ++ n :: o :: vs))

inductive Follows : List Token → Parser → Prop
  | place {ts us : List Token} {s : Scopes} {place : Place} :
      Opened ts s → Pending s.outer.length place us → Follows (ts ++ us) ⟨s, .place place⟩
  | typeName {ts us vs : List Token} {s : Scopes} {slot : Slot} {lists : List ArgumentList}
      {n : Token} :
      Opened ts s → Pending s.outer.length slot.place us → OpenLists s.outer.length vs lists →
      n.kind.isName → Follows (ts ++ (us ++ (vs ++ [n]))) ⟨s, .typeName slot lists n.value⟩

theorem Follows.define {ts us : List Token} {s : Scopes} {item : Item} (hs : Opened ts s)
    (hitem : Definition us item) (hdistinct : item.Distinct)
    (hdepth : s.outer.length + item.depth ≤ nestingLimit)
    (hnew : ∀ name, item.rpcName? = some name → s.inner.rpcs.contains name = false) :
    Follows (ts ++ us) ⟨s.mapInner (·.declare item), .place .body⟩ := by
  have hf := Follows.place (hs.define hitem hdistinct hdepth hnew) .body
  rwa [List.append_nil] at hf

theorem Follows.deliver {ts us vs ws : List Token} {s s' : Scopes} {slot : Slot}
    {lists : List ArgumentList} {type : TypeRef} {place : Place} (hs : Opened ts s)
    (hslot : Pending s.outer.length slot.place us) (hlists : OpenLists s.outer.length vs lists)
    (hm : Mention ws type)
    (hdepth : s.outer.length + lists.length + type.depth ≤ nestingLimit)
    (h : s.deliver slot lists type = .ok (s', place)) :
    Follows (ts ++ (us ++ (vs ++ ws))) ⟨s', .place place⟩ := by
  cases hlists with
  | @list vs vs' lists n o types hlists hn ho hstarted hbound =>
      obtain ⟨rfl, rfl⟩ : s = s' ∧ .argumentEnd slot ⟨n.value, types ++ [type]⟩ lists = place := by
        simpa [Scopes.deliver, ArgumentList.push] using h
      rw [List.append_assoc, List.cons_append, List.cons_append]
      refine .place hs (.argumentEnd hslot hlists hn ho (hstarted.append_mention hm) ?_)
      rw [TypeRef.depthAll_append, TypeRef.depthAll_singleton]
      simp only [List.length_cons] at hdepth
      omega
  | nil =>
      simp only [List.length_nil, Nat.add_zero] at hdepth
      cases slot with
      | property record =>
          obtain ⟨rfl, rfl⟩ : s = s' ∧ .propertyName record type = place := by
            simpa [Scopes.deliver] using h
          exact .place hs (.propertyName hslot hm hdepth)
      | input signature =>
          obtain ⟨rfl, rfl⟩ : s = s' ∧ .inputEnd (signature.push type) = place := by
            simpa [Scopes.deliver] using h
          cases hslot with
          | @input k n o ts' types hk hn ho hstarted hbound =>
              refine .place hs (.inputEnd hk hn ho (hstarted.append_mention hm) ?_)
              change _ + TypeRef.depthAll (types ++ [type]) ≤ _
              rw [TypeRef.depthAll_append, TypeRef.depthAll_singleton]
              omega
      | output signature =>
          cases hslot with
          | @output k n o c ts' types hk hn ho hinputs hbound hc =>
              simp only [Scopes.deliver] at h
              split at h
              · cases h
              · next hnew =>
                  have hfresh : s.inner.rpcs.contains n.value = false := Bool.eq_false_iff.mpr hnew
                  obtain ⟨rfl, rfl⟩ : s.addRpc ⟨n.value, types, [type]⟩ = s' ∧ .body = place := by
                    simpa using h
                  have hitem : Definition (k :: n :: o :: (ts' ++ [c]) ++ ws)
                      (.rpc n.value types type) := by
                    simpa using Definition.rpc hk hn ho hinputs hc hm
                  have hf := Follows.define hs hitem trivial (by rw [Item.depth]; omega)
                    (fun name hname => by
                      obtain rfl : n.value = name := by simpa [Item.rpcName?] using hname
                      exact hfresh)
                  rw [addRpc_eq_declare types type hfresh]
                  simpa using hf

theorem Pending.of_define {s : Scopes} {t : Token} {place : Place}
    (hlevel : s.outer.length ≤ nestingLimit) (hk : t.kind = .keyword)
    (h : s.define t = .ok place) : Pending s.outer.length place [t] := by
  unfold Scopes.define at h
  split at h
  · next hv =>
      split at h
      · cases h
      · next hlt =>
          obtain rfl := Except.ok.inj h
          exact .blockName ⟨hk, hv⟩ (fun _ => by omega)
  · next hv => obtain rfl := Except.ok.inj h; exact .optionName ⟨hk, hv⟩
  · next hv => obtain rfl := Except.ok.inj h; exact .blockName ⟨hk, hv⟩ (by simp)
  · next hv => obtain rfl := Except.ok.inj h; exact .blockName ⟨hk, hv⟩ (by simp)
  · next hv => obtain rfl := Except.ok.inj h; exact .rpcName ⟨hk, hv⟩
  · cases h

theorem Follows.enterBlock {ts : List Token} {s : Scopes} {kind : BlockKind} {k n o : Token}
    (hs : Opened ts s) (hk : Announces k kind.word)
    (hlevel : kind = .scope → s.outer.length < nestingLimit)
    (hn : n.kind = .identifier) (ho : o.kind = .blockStart) :
    Follows (ts ++ [k, n, o])
      ⟨(s.enterBlock kind n.value).1, .place (s.enterBlock kind n.value).2⟩ := by
  cases kind with
  | scope =>
      have hopened : Opened (ts ++ [k, n, o]) (s.openScope n.value) :=
        .scope hs hk hn ho .nil (.nil (hlevel rfl))
      have hf := Follows.place hopened .body
      rw [List.append_nil] at hf
      exact hf
  | type =>
      have hdepth : s.outer.length + TypeRef.depthAll [] ≤ nestingLimit := hs.length_le
      exact .place hs (.property hk hn ho .nil List.nodup_nil hdepth)
  | enum => exact .place hs (.member hk hn ho .nil)

theorem Follows.startType {ts us vs : List Token} {s : Scopes} {lists : List ArgumentList}
    {t : Token} {q : Parser} (hs : Opened ts s) (slot : Slot)
    (hslot : Pending s.outer.length slot.place us) (hlists : OpenLists s.outer.length vs lists)
    (ht : t.kind.isName) (h : startType s slot lists t = .ok q) :
    Follows (ts ++ (us ++ (vs ++ [t]))) q := by
  obtain rfl := Except.ok.inj h
  exact .typeName hs hslot hlists ht

theorem Follows.goto {ts : List Token} {s : Scopes} {place : Place} {q : Parser}
    (hf : Follows ts ⟨s, .place place⟩) (h : Parser.goto s place = .ok q) : Follows ts q := by
  obtain rfl := Except.ok.inj h
  exact hf

section Accept

variable {ts us : List Token} {s : Scopes} {t : Token} {q : Parser}

theorem Follows.accept_body (hs : Opened ts s) (h : Parser.accept s .body t = .ok q) :
    Follows (ts ++ [t]) q := by
  simp only [Parser.accept] at h
  split at h
  · next hk =>
      split at h
      · cases h
      · next place hdefine =>
          exact .goto (.place hs (.of_define hs.length_le hk hdefine)) h
  · split at h
    · next hc =>
        unfold closeScope at h
        split at h
        · next s' hclose =>
            have hf := Follows.place (hs.close hc hclose) .body
            rw [List.append_nil] at hf
            exact hf.goto h
        · cases h
    · cases h

theorem Follows.accept_optionValue {k n : Token} (hs : Opened ts s) (hk : Announces k "option")
    (hn : n.kind = .identifier) (h : Parser.accept s (.optionValue n.value) t = .ok q) :
    Follows (ts ++ [k, n, t]) q := by
  simp only [Parser.accept] at h
  split at h
  · next hv =>
      have hitem : Definition [k, n, t] (.option n.value t.value) :=
        .option hk hn (by simpa using hv)
      have hf := Follows.define hs hitem trivial (by simpa [Item.depth] using hs.length_le)
        (fun name hname => by cases hname)
      exact hf.goto (by simpa [Scopes.addOption, Namespace.declare] using h)
  · cases h

theorem Follows.accept_property {k n o : Token} {properties : List Property} (hs : Opened ts s)
    (hk : Announces k "type") (hn : n.kind = .identifier) (ho : o.kind = .blockStart)
    (hproperties : Properties us properties) (hnodup : (properties.map Property.name).Nodup)
    (hdepth : s.outer.length + TypeRef.depthAll (properties.map Property.type) ≤ nestingLimit)
    (h : Parser.accept s (.property (.ofProperties n.value properties)) t = .ok q) :
    Follows (ts ++ (k :: n :: o :: (us ++ [t]))) q := by
  simp only [Parser.accept] at h
  split at h
  · next ht =>
      exact .startType hs (.property _) (.property hk hn ho hproperties hnodup hdepth) .nil ht h
  · split at h
    · next hc =>
        have hitem : Definition (k :: n :: o :: (us ++ [t])) (.type n.value properties) :=
          .type hk hn ho hproperties hc
        have hf := Follows.define hs hitem hnodup hdepth (fun name hname => by cases hname)
        exact hf.goto (by simpa [Scopes.addType, Namespace.declare] using h)
    · cases h

theorem Follows.accept_propertyName {record : RecordType} {type : TypeRef} {vs : List Token}
    (hs : Opened ts s) (hrecord : Pending s.outer.length (.property record) us)
    (hm : Mention vs type) (hdepth : s.outer.length + type.depth ≤ nestingLimit)
    (h : Parser.accept s (.propertyName record type) t = .ok q) :
    Follows (ts ++ (us ++ (vs ++ [t]))) q := by
  simp only [Parser.accept, addProperty] at h
  cases hrecord with
  | @property k n o us properties hk hname ho hproperties hnodup hbound =>
      split at h
      · next hn =>
          split at h
          · cases h
          · next hnew =>
              rw [contains_ofProperties] at hnew
              have hnames :
                  ((properties ++ [Property.mk t.value type]).map Property.name).Nodup := by
                rw [List.map_append, List.map_singleton, ← List.concat_eq_append]
                exact hnodup.concat hnew
              have hmax : s.outer.length +
                  TypeRef.depthAll ((properties ++ [Property.mk t.value type]).map Property.type) ≤
                    nestingLimit := by
                rw [List.map_append, List.map_singleton, TypeRef.depthAll_append,
                  TypeRef.depthAll_singleton]
                exact Nat.add_max_add_left .. ▸ Nat.max_le.mpr ⟨hbound, hdepth⟩
              have hf := Follows.place hs (.property hk hname ho
                (hproperties.append_property hm hn) hnames hmax)
              exact hf.goto (by simpa [RecordType.ofProperties] using h)
      · cases h

theorem Follows.accept_member {k n o : Token} {members : List String} (hs : Opened ts s)
    (hk : Announces k "enum") (hn : n.kind = .identifier) (ho : o.kind = .blockStart)
    (hmembers : Members us members)
    (h : Parser.accept s (.member (.ofMembers n.value members)) t = .ok q) :
    Follows (ts ++ (k :: n :: o :: (us ++ [t]))) q := by
  simp only [Parser.accept] at h
  split at h
  · next ht =>
      have hf := Follows.place hs (.member hk hn ho (hmembers.append_member ht))
      exact hf.goto (by simpa [EnumType.ofMembers, EnumType.pushAll] using h)
  · split at h
    · next hc =>
        have hitem : Definition (k :: n :: o :: (us ++ [t])) (.enum n.value members) :=
          .enum hk hn ho hmembers hc
        have hf := Follows.define hs hitem trivial (by simpa [Item.depth] using hs.length_le)
          (fun name hname => by cases hname)
        exact hf.goto (by simpa [Scopes.addEnum, Namespace.declare] using h)
    · cases h

theorem Follows.accept_argumentEnd {slot : Slot} {outer : List ArgumentList} {n o : Token}
    {vs ws : List Token} {types : List TypeRef} (hs : Opened ts s)
    (hslot : Pending s.outer.length slot.place us) (hlists : OpenLists s.outer.length vs outer)
    (hn : n.kind.isName) (ho : o.kind = .typeArgumentsStart) (harguments : Arguments ws types)
    (hdepth : s.outer.length + (outer.length + 1) + TypeRef.depthAll types ≤ nestingLimit)
    (h : Parser.accept s (.argumentEnd slot ⟨n.value, types⟩ outer) t = .ok q) :
    Follows (ts ++ (us ++ (vs ++ n :: o :: (ws ++ [t])))) q := by
  simp only [Parser.accept] at h
  split at h
  · next hsep =>
      have hf := Follows.place hs (.argument hslot
        (.list hlists hn ho (.separated harguments hsep) hdepth))
      exact hf.goto h
  · split at h
    · next hc =>
        have hm : Mention (n :: o :: (ws ++ [t])) ⟨n.value, types⟩ :=
          .applied hn ho harguments hc
        have hbound : s.outer.length + outer.length + TypeRef.depth ⟨n.value, types⟩ ≤
            nestingLimit := by
          rw [TypeRef.depth_of_ne_nil _ harguments.ne_nil]
          omega
        split at h
        · cases h
        · next s' place hdeliver =>
            exact (Follows.deliver hs hslot hlists hm hbound hdeliver).goto h
    · cases h

theorem Follows.accept {place : Place} (hs : Opened ts s)
    (hp : Pending s.outer.length place us) (h : Parser.accept s place t = .ok q) :
    Follows (ts ++ (us ++ [t])) q := by
  cases hp with
  | body => exact .accept_body hs h
  | @blockName kind k hk hlevel =>
      simp only [Parser.accept] at h
      split at h
      · next hn => exact .goto (.place hs (.block hk hlevel hn)) h
      · cases h
  | @block kind k n hk hlevel hn =>
      simp only [Parser.accept] at h
      split at h
      · next ho => exact .goto (.enterBlock hs hk hlevel hn ho) h
      · cases h
  | @optionName k hk =>
      simp only [Parser.accept] at h
      split at h
      · next hn => exact .goto (.place hs (.optionValue hk hn)) h
      · cases h
  | optionValue hk hn => exact .accept_optionValue hs hk hn h
  | property hk hn ho hproperties hnodup hdepth =>
      exact .accept_property hs hk hn ho hproperties hnodup hdepth h
  | propertyName hrecord hm hdepth =>
      rw [List.append_assoc]
      exact .accept_propertyName hs hrecord hm hdepth h
  | member hk hn ho hmembers => exact .accept_member hs hk hn ho hmembers h
  | @rpcName k hk =>
      simp only [Parser.accept] at h
      split at h
      · next hn => exact .goto (.place hs (.inputs hk hn)) h
      · cases h
  | @inputs k n hk hn =>
      simp only [Parser.accept] at h
      split at h
      · next ho =>
          have hdepth : s.outer.length + TypeRef.depthAll [] ≤ nestingLimit := hs.length_le
          exact .goto (.place hs (.input hk hn ho .nil hdepth)) h
      · cases h
  | @input k n o us types hk hn ho hstarted hdepth =>
      simp only [Parser.accept] at h
      split at h
      · next ht =>
          exact .startType hs (.input _) (.input hk hn ho hstarted hdepth) .nil ht h
      · split at h
        · next hc => exact .goto (.place hs (.output hk hn ho hstarted.inputs hdepth hc)) h
        · cases h
  | @inputEnd k n o us types hk hn ho harguments hdepth =>
      simp only [Parser.accept] at h
      split at h
      · next hsep =>
          exact .goto (.place hs (.input hk hn ho (.separated harguments hsep) hdepth)) h
      · split at h
        · next hc => exact .goto (.place hs (.output hk hn ho (.some harguments) hdepth hc)) h
        · cases h
  | @output k n o c us types hk hn ho hinputs hdepth hc =>
      simp only [Parser.accept] at h
      split at h
      · next ht =>
          exact .startType hs (.output _) (.output hk hn ho hinputs hdepth hc) .nil ht h
      · cases h
  | @argument slot inner outer us vs hslot hlists =>
      simp only [Parser.accept] at h
      split at h
      · next ht =>
          rw [List.append_assoc]
          exact .startType hs slot hslot hlists ht h
      · cases h
  | argumentEnd hslot hlists hn ho harguments hdepth =>
      rw [List.append_assoc, List.append_assoc]
      exact .accept_argumentEnd hs hslot hlists hn ho harguments hdepth h

end Accept

theorem Follows.accept_place {ts : List Token} {s : Scopes} {place : Place} {t : Token}
    {q : Parser} (hp : Follows ts ⟨s, .place place⟩) (h : Parser.accept s place t = .ok q) :
    Follows (ts ++ [t]) q := by
  cases hp with
  | place hs hplace =>
      rw [List.append_assoc]
      exact .accept hs hplace h

theorem Follows.settle {ts : List Token} {p : Parser} {s : Scopes} {place : Place}
    (hp : Follows ts p) (h : p.settle = .ok (s, place)) : Follows ts ⟨s, .place place⟩ := by
  cases hp with
  | place hs hplace =>
      cases h
      exact .place hs hplace
  | typeName hs hslot hlists hn =>
      exact .deliver hs hslot hlists (.name hn) (hlists.length_le hs.length_le) h

theorem Follows.step {ts : List Token} {p q : Parser} {t : Token} (hp : Follows ts p)
    (h : p.step t = .ok q) : Follows (ts ++ [t]) q := by
  by_cases ht : t.kind = .typeArgumentsStart
  · cases hp with
    | place hs hplace => exact accept_place (.place hs hplace) h
    | @typeName ts us vs s slot lists n hs hslot hlists hn =>
        simp only [Parser.step, ht, if_pos, openArguments] at h
        split at h
        · cases h
        · next hne =>
            have hle := hlists.length_le hs.length_le
            have hbound : s.outer.length + (lists.length + 1) + TypeRef.depthAll [] ≤
                nestingLimit := by
              rw [TypeRef.depthAll]
              omega
            have hf := Follows.place hs (.argument hslot (.list hlists hn ht .nil hbound))
            obtain rfl := Except.ok.inj h
            simpa using hf
  · cases hsettle : p.settle with
    | error error => rw [step_of_settle_error hsettle ht] at h; cases h
    | ok result =>
        rw [step_of_settle hsettle ht] at h
        exact (hp.settle hsettle).accept_place h

theorem Follows.outcome {ts us : List Token} {p : Parser} {s : Scopes} {place : Place}
    (hp : Follows ts p) (h : p.outcome us = .ok (s, place)) :
    Follows (ts ++ us) ⟨s, .place place⟩ := by
  induction us generalizing ts p with
  | nil => simpa using hp.settle h
  | cons t us ih =>
      rw [Parser.outcome] at h
      cases hstep : p.step t with
      | error error => simp [hstep] at h
      | ok next =>
          rw [List.append_cons]
          exact ih (hp.step hstep) (by simpa [hstep] using h)

theorem Follows.initial : Follows [] Parser.initial :=
  .place (.root .nil (.nil (Nat.zero_le _))) .body

theorem Follows.body_of_root {ts : List Token} {root : Namespace}
    (h : Follows ts ⟨⟨root, []⟩, .place .body⟩) :
    ∃ items, Body ts items ∧ Item.Admissible 0 items ∧
      root = Namespace.root.declareAll items := by
  cases h with
  | place hs hplace =>
      cases hplace
      rw [List.append_nil]
      cases hs with
      | @root _ items hbody hitems => exact ⟨items, hbody, hitems, rfl⟩

theorem Body.outcome_initial {ts : List Token} {items : List Item} (hbody : Body ts items)
    (hitems : Item.Admissible 0 items) :
    Parser.initial.outcome ts = .ok (⟨Namespace.root.declareAll items, []⟩, .body) :=
  hbody.outcome_eq hitems.rpcNames hitems.distinct hitems.depth (fun _ _ => rfl)

end Grammar

theorem finishAt_eq_ok_iff {s : Scopes} {place : Place} {t : Token} {root : Namespace} :
    Parser.finishAt s place t = .ok root ↔ place = .body ∧ s = ⟨root, []⟩ := by
  obtain ⟨inner, outer⟩ := s
  cases place <;> cases outer <;> simp [Parser.finishAt]

theorem items_of_parseTokens {tokens : List Token} {last : Token}
    (hlast : last.kind = .endOfFile) (htokens : ∀ t ∈ tokens, t.kind ≠ .endOfFile)
    {root : Namespace} (h : (parseTokens (tokens ++ [last])).value = .ok root) :
    ∃ items, Grammar.Body tokens items ∧ Item.Admissible 0 items ∧
      root = Namespace.root.declareAll items := by
  rw [parseTokens, Parser.run_value hlast htokens] at h
  cases houtcome : Parser.initial.outcome tokens with
  | error error => simp [houtcome] at h
  | ok result =>
      obtain ⟨s, place⟩ := result
      obtain ⟨rfl, rfl⟩ := finishAt_eq_ok_iff.mp (by simpa [houtcome] using h)
      exact (Grammar.Follows.initial.outcome houtcome).body_of_root

theorem parseTokens_of_items {tokens : List Token} {last : Token}
    (hlast : last.kind = .endOfFile) (htokens : ∀ t ∈ tokens, t.kind ≠ .endOfFile)
    {items : List Item} (hbody : Grammar.Body tokens items) (hitems : Item.Admissible 0 items) :
    (parseTokens (tokens ++ [last])).value = .ok (Namespace.root.declareAll items) := by
  rw [parseTokens, Parser.run_value hlast htokens, hbody.outcome_initial hitems]
  exact finishAt_eq_ok_iff.mpr ⟨rfl, rfl⟩

theorem parseTokens_eq_ok_iff {tokens : List Token} {last : Token}
    (hlast : last.kind = .endOfFile) (htokens : ∀ t ∈ tokens, t.kind ≠ .endOfFile)
    (root : Namespace) :
    (parseTokens (tokens ++ [last])).value = .ok root ↔
      ∃ items, Grammar.Body tokens items ∧ Item.Admissible 0 items ∧
        root = Namespace.root.declareAll items := by
  constructor
  · exact items_of_parseTokens hlast htokens
  · rintro ⟨items, hbody, hitems, rfl⟩
    exact parseTokens_of_items hlast htokens hbody hitems

theorem parseTokens_enum_in_scope :
    ∃ items, Grammar.Body
        [⟨.keyword, "namespace", .origin, 0⟩, ⟨.identifier, "n", .origin, 0⟩,
         ⟨.blockStart, "", .origin, 0⟩, ⟨.keyword, "enum", .origin, 0⟩,
         ⟨.identifier, "E", .origin, 0⟩, ⟨.blockStart, "", .origin, 0⟩,
         ⟨.identifier, "x", .origin, 0⟩, ⟨.keyword, "type", .origin, 0⟩,
         ⟨.identifier, "x", .origin, 0⟩, ⟨.blockEnd, "", .origin, 0⟩,
         ⟨.blockEnd, "", .origin, 0⟩] items ∧
      Item.Admissible 0 items ∧
      Namespace.root.declareAll [.scope "n" [.enum "E" ["x", "type"]]] =
        Namespace.root.declareAll items := by
  exact (@parseTokens_eq_ok_iff _ ⟨.endOfFile, "", .origin, 0⟩ rfl (by decide) _).mp rfl

end InterfaceSchema
