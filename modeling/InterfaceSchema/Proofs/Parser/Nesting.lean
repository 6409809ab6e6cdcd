import InterfaceSchema.Proofs.Parser.Recognition

namespace InterfaceSchema

mutual

def Item.scopeDepth : Item → Nat
  | .scope _ body => scopeDepthAll body + 1
  | _ => 0

def Item.scopeDepthAll : List Item → Nat
  | [] => 0
  | item :: items => max item.scopeDepth (scopeDepthAll items)

end

mutual

def Item.argumentDepth : Item → Nat
  | .scope _ body => argumentDepthAll body
  | .type _ properties => TypeRef.depthAll (properties.map Property.type)
  | .rpc _ input output => max (TypeRef.depthAll input) output.depth
  | _ => 0

def Item.argumentDepthAll : List Item → Nat
  | [] => 0
  | item :: items => max item.argumentDepth (argumentDepthAll items)

end

namespace Parser

def TooDeep (p : Parser) (ts : List Token) : Prop :=
  ∃ o ∈ ts, o.kind = .typeArgumentsStart ∧ p.outcome ts = .error ⟨.argumentsTooDeep, o⟩

namespace TooDeep

variable {p : Parser} {ts us : List Token}

theorem append (h : p.TooDeep ts) (hus : ∀ t ∈ us.head?, t.kind ≠ .typeArgumentsStart) :
    p.TooDeep (ts ++ us) := by
  obtain ⟨o, ho, hkind, herror⟩ := h
  exact ⟨o, List.mem_append_left _ ho, hkind, outcome_append_error herror hus⟩

theorem of_outcome {s : Scopes} {place : Place} (hread : p.outcome ts = .ok (s, place))
    (hus : ∀ t ∈ us.head?, t.kind ≠ .typeArgumentsStart)
    (h : TooDeep ⟨s, .place place⟩ us) : p.TooDeep (ts ++ us) := by
  obtain ⟨o, ho, hkind, herror⟩ := h
  exact ⟨o, List.mem_append_right _ ho, hkind, (outcome_append_ok hread hus).trans herror⟩

theorem of_step {next : Parser} {t : Token} (hstep : p.step t = .ok next)
    (h : next.TooDeep ts) : p.TooDeep (t :: ts) := by
  obtain ⟨o, ho, hkind, herror⟩ := h
  exact ⟨o, List.mem_cons_of_mem _ ho, hkind, (outcome_cons_of_step ts hstep).trans herror⟩

theorem of_goto {s s' : Scopes} {place place' : Place} {t : Token}
    (hgoto : accept s place t = goto s' place') (h : TooDeep ⟨s', .place place'⟩ ts) :
    TooDeep ⟨s, .place place⟩ (t :: ts) :=
  of_step hgoto h

end TooDeep

end Parser

namespace Grammar

open InterfaceSchema.Parser

mutual

theorem Mention.tooDeep {ts : List Token} {type : TypeRef} (h : Mention ts type) :
    ∀ {s : Scopes} {place : Place} {slot : Slot} {lists : List ArgumentList},
      StartsType place slot lists → s.outer.length + lists.length ≤ nestingLimit →
      nestingLimit < s.outer.length + lists.length + type.depth →
      TooDeep ⟨s, .place place⟩ ts := by
  cases h with
  | @name n hn =>
      intro s place slot lists _ hlists hdepth
      rw [TypeRef.depth] at hdepth
      omega
  | @applied n o c ts arguments hn ho harguments hc =>
      intro s place slot lists hstart hlists hdepth
      rw [TypeRef.depth_of_ne_nil _ harguments.ne_nil] at hdepth
      refine .of_step (hstart s n hn) ?_
      by_cases hfull : s.outer.length + lists.length = nestingLimit
      · -- the list of arguments itself is the one that is nested too deep
        refine ⟨o, List.mem_cons_self, ho, ?_⟩
        simp [outcome, step, ho, openArguments, hfull]
      · have hopen : Parser.step ⟨s, .typeName slot lists n.value⟩ o =
            .ok ⟨s, .place (.argument slot ⟨n.value, []⟩ lists)⟩ := by
          simp [step, ho, openArguments, hfull, goto]
        exact .of_step hopen (.append (Arguments.tooDeep harguments (by omega) (by omega))
          (ne_typeArgumentsStart hc (by decide) []))

theorem Arguments.tooDeep {ts : List Token} {types : List TypeRef} (h : Arguments ts types) :
    ∀ {s : Scopes} {slot : Slot} {inner : ArgumentList} {outer : List ArgumentList},
      s.outer.length + (outer.length + 1) ≤ nestingLimit →
      nestingLimit < s.outer.length + (outer.length + 1) + TypeRef.depthAll types →
      TooDeep ⟨s, .place (.argument slot inner outer)⟩ ts := by
  cases h with
  | @one ts type hmention =>
      intro s slot inner outer hlists hdepth
      rw [TypeRef.depthAll_singleton] at hdepth
      exact hmention.tooDeep (startsType_argument slot inner outer) hlists hdepth
  | @more ts us sep type types hmention hsep harguments =>
      intro s slot inner outer hlists hdepth
      rw [TypeRef.depthAll] at hdepth
      have hhead := ne_typeArgumentsStart hsep (by decide) us
      by_cases hfirst : s.outer.length + (outer.length + 1) + type.depth ≤ nestingLimit
      · have hread : outcome ⟨s, .place (.argument slot inner outer)⟩ ts =
            .ok (s, .argumentEnd slot (inner.push type) outer) :=
          hmention.outcome_eq_deliver (startsType_argument slot inner outer) hfirst
        have hnext : accept s (.argumentEnd slot (inner.push type) outer) sep =
            goto s (.argument slot (inner.push type) outer) := by simp [accept, hsep]
        exact .of_outcome hread hhead
          (.of_goto hnext (Arguments.tooDeep harguments hlists (by omega)))
      · exact .append (hmention.tooDeep (startsType_argument slot inner outer) hlists
          (Nat.lt_of_not_le hfirst)) hhead

end

theorem Arguments.tooDeep_inputs {ts : List Token} {types : List TypeRef} (h : Arguments ts types)
    {s : Scopes} {signature : Signature} (hlevel : s.outer.length ≤ nestingLimit)
    (hdepth : nestingLimit < s.outer.length + TypeRef.depthAll types) :
    TooDeep ⟨s, .place (.input signature)⟩ ts := by
  induction types generalizing ts signature with
  | nil => exact absurd rfl h.ne_nil
  | cons type types ih =>
      rw [TypeRef.depthAll] at hdepth
      have hrefused {us : List Token} (hm : Mention us type)
          (hdeep : nestingLimit < s.outer.length + type.depth) :
          TooDeep ⟨s, .place (.input signature)⟩ us :=
        hm.tooDeep (startsType_input signature) hlevel hdeep
      cases h with
      | one hmention =>
          rw [TypeRef.depthAll] at hdepth
          exact hrefused hmention (by omega)
      | @more us vs sep _ _ hmention hsep hrest =>
          have hhead := ne_typeArgumentsStart hsep (by decide) vs
          by_cases hfirst : s.outer.length + type.depth ≤ nestingLimit
          · have hread : outcome ⟨s, .place (.input signature)⟩ us =
                .ok (s, .inputEnd (signature.push type)) :=
              hmention.outcome_eq_deliver (startsType_input signature) hfirst
            have hnext : accept s (.inputEnd (signature.push type)) sep =
                goto s (.input (signature.push type)) := by simp [accept, hsep]
            exact .of_outcome hread hhead (.of_goto hnext (ih hrest (by omega)))
          · exact .append (hrefused hmention (Nat.lt_of_not_le hfirst)) hhead

theorem Inputs.tooDeep {ts : List Token} {types : List TypeRef} (h : Inputs ts types)
    {s : Scopes} {signature : Signature} (hlevel : s.outer.length ≤ nestingLimit)
    (hdepth : nestingLimit < s.outer.length + TypeRef.depthAll types) :
    TooDeep ⟨s, .place (.input signature)⟩ ts := by
  cases h with
  | none =>
      rw [TypeRef.depthAll] at hdepth
      omega
  | some harguments => exact harguments.tooDeep_inputs hlevel hdepth
  | trailing harguments hsep =>
      exact .append (harguments.tooDeep_inputs hlevel hdepth)
        (ne_typeArgumentsStart hsep (by decide) [])

theorem Properties.tooDeep {ts : List Token} {properties : List Property}
    (h : Properties ts properties) {s : Scopes} {record : RecordType}
    (hlevel : s.outer.length ≤ nestingLimit)
    (hdepth : nestingLimit < s.outer.length + TypeRef.depthAll (properties.map Property.type))
    (hnodup : (properties.map Property.name).Nodup)
    (hnew : ∀ property ∈ properties, record.properties.contains property.name = false) :
    TooDeep ⟨s, .place (.property record)⟩ ts := by
  induction h generalizing record with
  | nil =>
      rw [List.map_nil, TypeRef.depthAll] at hdepth
      omega
  | @more ts us n type properties hmention hn _ ih =>
      simp only [List.map_cons, TypeRef.depthAll] at hdepth
      obtain ⟨hfirst, hrest⟩ := List.nodup_cons.mp hnodup
      have hhead := ne_typeArgumentsStart rfl (TokenKind.ne_of_isName hn _ rfl) us
      by_cases hfits : s.outer.length + type.depth ≤ nestingLimit
      · have hread : outcome ⟨s, .place (.property record)⟩ ts =
            .ok (s, .propertyName record type) :=
          hmention.outcome_eq_deliver (startsType_property record) hfits
        have hadd : accept s (.propertyName record type) n =
            goto s (.property (record.addProperty ⟨n.value, type⟩)) := by
          have hfresh : record.properties.contains n.value = false := hnew _ List.mem_cons_self
          simp [accept, hn, addProperty, hfresh]
        exact .of_outcome hread hhead (.of_goto hadd
          (ih (by omega) hrest (not_contains_addProperty hfirst hnew)))
      · exact .append (hmention.tooDeep (startsType_property record) hlevel
          (Nat.lt_of_not_le hfits)) hhead

theorem tooDeep_block {s : Scopes} {kind : BlockKind} {n o : Token} {ts : List Token}
    (hn : n.kind = .identifier) (ho : o.kind = .blockStart)
    (h : TooDeep ⟨(s.enterBlock kind n.value).1, .place (s.enterBlock kind n.value).2⟩ ts) :
    TooDeep ⟨s, .place (.blockName kind)⟩ (n :: o :: ts) := by
  obtain ⟨t, ht, hkind, herror⟩ := h
  exact ⟨t, by simp [ht], hkind, (outcome_block hn ho ts).trans herror⟩

mutual

theorem Definition.tooDeep {ts : List Token} {item : Item} (h : Definition ts item) :
    ∀ {s : Scopes}, item.Distinct → s.outer.length + item.scopeDepth ≤ nestingLimit →
      nestingLimit < s.outer.length + item.depth → TooDeep ⟨s, .place .body⟩ ts := by
  cases h with
  | @scope k n o c ts body hk hn ho hbody hc =>
      intro s hdistinct hscopes hdepth
      rw [Item.scopeDepth] at hscopes
      rw [Item.depth] at hdepth
      rw [Item.Distinct] at hdistinct
      have hlt : s.outer.length ≠ nestingLimit := by omega
      have hdefine : s.define ⟨.keyword, "namespace", k.pos, k.len⟩ = .ok (.blockName .scope) := by
        simp [Scopes.define, hlt]
      have hinner := @Body.tooDeep _ _ hbody (s.openScope n.value) hdistinct.1 hdistinct.2
        (by simp only [Scopes.openScope, List.length_cons]; omega)
        (by simp only [Scopes.openScope, List.length_cons]; omega) (fun name _ => rfl)
      refine .of_goto (accept_announced hk hdefine) (tooDeep_block hn ho ?_)
      exact .append hinner (ne_typeArgumentsStart hc (by decide) [])
  | @option k n v hk hn hv =>
      intro s _ hscopes hdepth
      rw [Item.depth] at hdepth
      omega
  | @type k n o c ts properties hk hn ho hproperties hc =>
      intro s hdistinct hscopes hdepth
      rw [Item.depth] at hdepth
      rw [Item.Distinct] at hdistinct
      refine .of_goto (accept_announced hk rfl) (tooDeep_block hn ho ?_)
      have hlevel : s.outer.length ≤ nestingLimit := by omega
      exact .append (hproperties.tooDeep hlevel hdepth hdistinct (fun property _ => rfl))
        (ne_typeArgumentsStart hc (by decide) [])
  | @enum k n o c ts members hk hn ho hmembers hc =>
      intro s _ hscopes hdepth
      rw [Item.depth] at hdepth
      omega
  | @rpc k n o c ts us input output hk hn ho hinputs hc houtput =>
      intro s _ hscopes hdepth
      rw [Item.depth] at hdepth
      have hlevel : s.outer.length ≤ nestingLimit := by omega
      have hname : accept s .rpcName n = goto s (.inputs n) := by simp [accept, hn]
      have hopen : accept s (.inputs n) o = goto s (.input ⟨n, []⟩) := by simp [accept, ho]
      refine .of_goto (accept_announced hk rfl) (.of_goto hname (.of_goto hopen ?_))
      by_cases hfits : s.outer.length + TypeRef.depthAll input ≤ nestingLimit
      · rw [List.append_cons]
        exact .of_outcome (hinputs.outcome_eq hc hfits) houtput.head_ne
          (houtput.tooDeep (startsType_output _) hlevel (by simp only [List.length_nil]; omega))
      · exact .append (hinputs.tooDeep hlevel (Nat.lt_of_not_le hfits))
          (ne_typeArgumentsStart hc (by decide) us)

theorem Body.tooDeep {ts : List Token} {items : List Item} (h : Body ts items) :
    ∀ {s : Scopes}, (Item.rpcNames items).Nodup → Item.DistinctAll items →
      s.outer.length + Item.scopeDepthAll items ≤ nestingLimit →
      nestingLimit < s.outer.length + Item.depthAll items →
      (∀ name ∈ Item.rpcNames items, s.inner.rpcs.contains name = false) →
      TooDeep ⟨s, .place .body⟩ ts := by
  cases h with
  | nil =>
      intro s _ _ hscopes hdepth _
      rw [Item.depthAll] at hdepth
      omega
  | @more ts us item items hitem hitems =>
      intro s hnodup hdistinct hscopes hdepth hnew
      rw [Item.scopeDepthAll] at hscopes
      rw [Item.depthAll] at hdepth
      rw [Item.DistinctAll] at hdistinct
      rw [Item.nodup_rpcNames_cons] at hnodup
      by_cases hfits : s.outer.length + item.depth ≤ nestingLimit
      · have hread := hitem.outcome_eq hdistinct.1 hfits
          (fun name hname => hnew name (Item.mem_rpcNames_cons.mpr (.inl hname)))
        exact .of_outcome hread hitems.head_ne
          (@Body.tooDeep _ _ hitems (s.mapInner (·.declare item)) hnodup.2 hdistinct.2
            (by simp only [Scopes.mapInner]; omega) (by simp only [Scopes.mapInner]; omega)
            (Namespace.not_contains_declare_rpcs hnodup.1 hnew))
      · exact .append (hitem.tooDeep hdistinct.1 (by omega) (Nat.lt_of_not_le hfits))
          hitems.head_ne

end

end Grammar

theorem argumentsTooDeep_of_depth {tokens : List Token} {last : Token}
    (hlast : last.kind = .endOfFile) (htokens : ∀ t ∈ tokens, t.kind ≠ .endOfFile)
    {items : List Item} (hbody : Grammar.Body tokens items)
    (hrpcs : (Item.rpcNames items).Nodup) (hdistinct : Item.DistinctAll items)
    (hscopes : Item.scopeDepthAll items ≤ nestingLimit)
    (hdepth : nestingLimit < Item.depthAll items) :
    ∃ t ∈ tokens, t.kind = .typeArgumentsStart ∧
      (parseTokens (tokens ++ [last])).value = .error ⟨.argumentsTooDeep, t⟩ := by
  have hlevel : Scopes.initial.outer.length = 0 := rfl
  obtain ⟨t, ht, hkind, herror⟩ := @Grammar.Body.tooDeep _ _ hbody .initial hrpcs hdistinct
    (by omega) (by omega) (fun _ _ => rfl)
  refine ⟨t, ht, hkind, ?_⟩
  rw [parseTokens, Parser.run_value hlast htokens, Parser.initial, herror]

theorem parseTokens_of_scopeDepth {tokens : List Token} {last : Token}
    (hlast : last.kind = .endOfFile) (htokens : ∀ t ∈ tokens, t.kind ≠ .endOfFile)
    {items : List Item} (hbody : Grammar.Body tokens items)
    (hrpcs : (Item.rpcNames items).Nodup) (hdistinct : Item.DistinctAll items)
    (hscopes : Item.scopeDepthAll items ≤ nestingLimit) :
    (Item.depthAll items ≤ nestingLimit →
      (parseTokens (tokens ++ [last])).value = .ok (Namespace.root.declareAll items)) ∧
    (nestingLimit < Item.depthAll items →
      ∃ t ∈ tokens, t.kind = .typeArgumentsStart ∧
        (parseTokens (tokens ++ [last])).value = .error ⟨.argumentsTooDeep, t⟩) := by
  constructor
  · intro hdepth
    exact parseTokens_of_items hlast htokens hbody ⟨hrpcs, hdistinct, by omega⟩
  · exact argumentsTooDeep_of_depth hlast htokens hbody hrpcs hdistinct hscopes

def nestedList : Nat → TypeRef
  | 0 => ⟨"int", []⟩
  | depth + 1 => ⟨"list", [nestedList depth]⟩

def nestedListTokens : Nat → List Token
  | 0 => [⟨.keyword, "int", .origin, 0⟩]
  | depth + 1 =>
      ⟨.keyword, "list", .origin, 0⟩ :: ⟨.typeArgumentsStart, "<", .origin, 0⟩ ::
        (nestedListTokens depth ++ [⟨.typeArgumentsEnd, ">", .origin, 0⟩])

def scopedListItems (depth : Nat) : List Item :=
  [.scope "n" [.type "T" [⟨"x", nestedList depth⟩]]]

def scopedListTokens (depth : Nat) : List Token :=
  [⟨.keyword, "namespace", .origin, 0⟩, ⟨.identifier, "n", .origin, 0⟩,
   ⟨.blockStart, "\x7b", .origin, 0⟩, ⟨.keyword, "type", .origin, 0⟩,
   ⟨.identifier, "T", .origin, 0⟩, ⟨.blockStart, "\x7b", .origin, 0⟩] ++ nestedListTokens depth ++
  [⟨.identifier, "x", .origin, 0⟩, ⟨.blockEnd, "\x7d", .origin, 0⟩,
   ⟨.blockEnd, "\x7d", .origin, 0⟩]

theorem depth_nestedList (depth : Nat) : (nestedList depth).depth = depth := by
  induction depth with
  | zero => rw [nestedList, TypeRef.depth]
  | succ depth ih =>
      rw [nestedList, TypeRef.depth_of_ne_nil _ (by simp), TypeRef.depthAll_singleton, ih]

theorem depthAll_scopedListItems (depth : Nat) :
    Item.depthAll (scopedListItems depth) = depth + 1 := by
  simp [scopedListItems, Item.depthAll, Item.depth, TypeRef.depthAll, depth_nestedList]

theorem scopeDepthAll_scopedListItems (depth : Nat) :
    Item.scopeDepthAll (scopedListItems depth) = 1 := by
  simp [scopedListItems, Item.scopeDepthAll, Item.scopeDepth]

theorem argumentDepthAll_scopedListItems (depth : Nat) :
    Item.argumentDepthAll (scopedListItems depth) = depth := by
  simp [scopedListItems, Item.argumentDepthAll, Item.argumentDepth, TypeRef.depthAll,
    depth_nestedList]

theorem distinctAll_scopedListItems (depth : Nat) : Item.DistinctAll (scopedListItems depth) := by
  have hrpcs : (Item.rpcNames [.type "T" [⟨"x", nestedList depth⟩]]).Nodup := List.nodup_nil
  simp [scopedListItems, Item.DistinctAll, Item.Distinct, hrpcs]

theorem mention_nestedListTokens (depth : Nat) :
    Grammar.Mention (nestedListTokens depth) (nestedList depth) := by
  induction depth with
  | zero => exact .name rfl
  | succ depth ih => exact .applied rfl rfl (.one ih) rfl

theorem body_scopedListTokens (depth : Nat) :
    Grammar.Body (scopedListTokens depth) (scopedListItems depth) := by
  have hproperties : Grammar.Properties (nestedListTokens depth ++ [⟨.identifier, "x", .origin, 0⟩])
      [⟨"x", nestedList depth⟩] :=
    .more (mention_nestedListTokens depth) rfl .nil
  have htype : Grammar.Definition
      (⟨.keyword, "type", .origin, 0⟩ :: ⟨.identifier, "T", .origin, 0⟩ ::
        ⟨.blockStart, "\x7b", .origin, 0⟩ ::
        ((nestedListTokens depth ++ [⟨.identifier, "x", .origin, 0⟩]) ++
          [⟨.blockEnd, "\x7d", .origin, 0⟩])) (.type "T" [⟨"x", nestedList depth⟩]) :=
    .type ⟨rfl, rfl⟩ rfl rfl hproperties rfl
  have hscope := @Grammar.Definition.scope ⟨.keyword, "namespace", .origin, 0⟩
    ⟨.identifier, "n", .origin, 0⟩ ⟨.blockStart, "\x7b", .origin, 0⟩
    ⟨.blockEnd, "\x7d", .origin, 0⟩ _ _ ⟨rfl, rfl⟩ rfl rfl (.append_definition .nil htype) rfl
  simpa [scopedListTokens, scopedListItems] using Grammar.Body.append_definition .nil hscope

theorem ne_endOfFile_scopedListTokens (depth : Nat) :
    ∀ t ∈ scopedListTokens depth, t.kind ≠ .endOfFile := by
  have hlist : ∀ t ∈ nestedListTokens depth, t.kind ≠ .endOfFile := by
    induction depth with
    | zero => simp [nestedListTokens]
    | succ depth ih => simpa [nestedListTokens, or_imp, forall_and] using ih
  simpa [scopedListTokens, or_imp, forall_and] using hlist

theorem lists_up_to_the_limit_in_scope :
    (parseTokens (scopedListTokens 255 ++ [⟨.endOfFile, "", .origin, 0⟩])).value =
        .ok (Namespace.root.declareAll (scopedListItems 255)) ∧
      ∃ t ∈ scopedListTokens 256, t.kind = .typeArgumentsStart ∧
        (parseTokens (scopedListTokens 256 ++ [⟨.endOfFile, "", .origin, 0⟩])).value =
          .error ⟨.argumentsTooDeep, t⟩ := by
  have hlimit (depth : Nat) := @parseTokens_of_scopeDepth _ ⟨.endOfFile, "", .origin, 0⟩ rfl
    (ne_endOfFile_scopedListTokens depth) _ (body_scopedListTokens depth) List.nodup_nil
    (distinctAll_scopedListItems depth) (by rw [scopeDepthAll_scopedListItems]; decide)
  refine ⟨(hlimit 255).1 ?_, (hlimit 256).2 ?_⟩
  · rw [depthAll_scopedListItems]
    decide
  · rw [depthAll_scopedListItems]
    decide

theorem lists_at_the_limit_refused_in_scope :
    Grammar.Body (scopedListTokens 256) (scopedListItems 256) ∧
      (Item.rpcNames (scopedListItems 256)).Nodup ∧ Item.DistinctAll (scopedListItems 256) ∧
      Item.scopeDepthAll (scopedListItems 256) = 1 ∧
      Item.argumentDepthAll (scopedListItems 256) = nestingLimit ∧
      ∃ t ∈ scopedListTokens 256, t.kind = .typeArgumentsStart ∧
        (parseTokens (scopedListTokens 256 ++ [⟨.endOfFile, "", .origin, 0⟩])).value =
          .error ⟨.argumentsTooDeep, t⟩ := by
  have hscopes := scopeDepthAll_scopedListItems 256
  have hdepth : nestingLimit < Item.depthAll (scopedListItems 256) := by
    rw [depthAll_scopedListItems]
    decide
  refine ⟨body_scopedListTokens 256, List.nodup_nil, distinctAll_scopedListItems 256, hscopes,
    argumentDepthAll_scopedListItems 256, ?_⟩
  exact argumentsTooDeep_of_depth rfl (ne_endOfFile_scopedListTokens 256)
    (body_scopedListTokens 256) List.nodup_nil (distinctAll_scopedListItems 256)
    (by rw [hscopes]; decide) hdepth

end InterfaceSchema
