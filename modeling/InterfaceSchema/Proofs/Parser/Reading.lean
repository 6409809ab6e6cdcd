import InterfaceSchema.Parser.Step
import InterfaceSchema.Proofs.Parser.Grammar

namespace InterfaceSchema

namespace Parser

def settle (p : Parser) : Except ParseError (Scopes × Place) :=
  match p.focus with
  | .place place => .ok (p.scopes, place)
  | .typeName slot lists name => p.scopes.deliver slot lists ⟨name, []⟩

def outcome (p : Parser) : List Token → Except ParseError (Scopes × Place)
  | [] => p.settle
  | t :: ts =>
      match p.step t with
      | .error error => .error error
      | .ok next => next.outcome ts

theorem step_of_settle {p : Parser} {s : Scopes} {place : Place} {t : Token}
    (h : p.settle = .ok (s, place)) (ht : t.kind ≠ .typeArgumentsStart) :
    p.step t = accept s place t := by
  obtain ⟨scopes, focus⟩ := p
  cases focus with
  | place other =>
      obtain ⟨rfl, rfl⟩ : scopes = s ∧ other = place := by simpa [settle] using h
      rfl
  | typeName slot lists name =>
      change scopes.deliver slot lists ⟨name, []⟩ = _ at h
      simp [step, ht, h]

theorem step_of_settle_error {p : Parser} {error : ParseError} {t : Token}
    (h : p.settle = .error error) (ht : t.kind ≠ .typeArgumentsStart) :
    p.step t = .error error := by
  obtain ⟨scopes, focus⟩ := p
  cases focus with
  | place other => simp [settle] at h
  | typeName slot lists name =>
      change scopes.deliver slot lists ⟨name, []⟩ = _ at h
      simp [step, ht, h]

theorem finish_eq_settle (p : Parser) (t : Token) :
    p.finish t =
      match p.settle with
      | .error error => .error error
      | .ok (s, place) => finishAt s place t := by
  obtain ⟨scopes, focus⟩ := p
  cases focus with
  | place other => rfl
  | typeName slot lists name => rfl

theorem run_value {last eof : Token} (heof : eof.kind = .endOfFile) {ts : List Token}
    (hts : ∀ t ∈ ts, t.kind ≠ .endOfFile) (p : Parser) (reported : List Event) :
    (p.run last reported (ts ++ [eof])).value =
      match p.outcome ts with
      | .error error => .error error
      | .ok (s, place) => finishAt s place eof := by
  induction ts generalizing p reported with
  | nil => simp [run, heof, outcome, finish_eq_settle]
  | cons t ts ih =>
      have ht : t.kind ≠ .endOfFile := hts t List.mem_cons_self
      have hrest : ∀ u ∈ ts, u.kind ≠ .endOfFile := fun u hu => hts u (List.mem_cons_of_mem _ hu)
      rw [List.cons_append, run, if_neg ht, outcome]
      cases p.step t with
      | error error => rfl
      | ok next => exact ih hrest next _

theorem outcome_append_ok {p : Parser} {ts us : List Token} {s : Scopes} {place : Place}
    (h : p.outcome ts = .ok (s, place)) (hus : ∀ t ∈ us.head?, t.kind ≠ .typeArgumentsStart) :
    p.outcome (ts ++ us) = outcome ⟨s, .place place⟩ us := by
  induction ts generalizing p with
  | nil =>
      cases us with
      | nil => exact h
      | cons t us =>
          rw [List.nil_append, outcome, outcome, step_of_settle h (hus t rfl)]
          rfl
  | cons t ts ih =>
      rw [outcome] at h
      rw [List.cons_append, outcome]
      cases hstep : p.step t with
      | error error => simp [hstep] at h
      | ok next => exact ih (by simpa [hstep] using h)

theorem outcome_append_error {p : Parser} {ts us : List Token} {error : ParseError}
    (h : p.outcome ts = .error error) (hus : ∀ t ∈ us.head?, t.kind ≠ .typeArgumentsStart) :
    p.outcome (ts ++ us) = .error error := by
  induction ts generalizing p with
  | nil =>
      cases us with
      | nil => exact h
      | cons t us => rw [List.nil_append, outcome, step_of_settle_error h (hus t rfl)]
  | cons t ts ih =>
      rw [outcome] at h
      rw [List.cons_append, outcome]
      cases hstep : p.step t with
      | error other => simpa [hstep] using h
      | ok next => exact ih (by simpa [hstep] using h)

theorem outcome_cons_of_step {p next : Parser} {t : Token} (ts : List Token)
    (h : p.step t = .ok next) : p.outcome (t :: ts) = next.outcome ts := by
  rw [outcome, h]

theorem outcome_goto {s s' : Scopes} {place place' : Place} {t : Token} (ts : List Token)
    (h : accept s place t = goto s' place') :
    outcome ⟨s, .place place⟩ (t :: ts) = outcome ⟨s', .place place'⟩ ts :=
  outcome_cons_of_step ts h

def StartsType (place : Place) (slot : Slot) (lists : List ArgumentList) : Prop :=
  ∀ (s : Scopes) (n : Token), n.kind.isName → accept s place n = startType s slot lists n

theorem StartsType.outcome_cons {place : Place} {slot : Slot} {lists : List ArgumentList}
    (h : StartsType place slot lists) (s : Scopes) {n : Token} (hn : n.kind.isName)
    (ts : List Token) :
    outcome ⟨s, .place place⟩ (n :: ts) = outcome ⟨s, .typeName slot lists n.value⟩ ts :=
  outcome_cons_of_step ts (h s n hn)

theorem startsType_property (record : RecordType) :
    StartsType (.property record) (.property record) [] := by
  intro s n hn
  simp [accept, hn]

theorem startsType_input (signature : Signature) :
    StartsType (.input signature) (.input signature) [] := by
  intro s n hn
  simp [accept, hn]

theorem startsType_output (signature : Signature) :
    StartsType (.output signature) (.output signature) [] := by
  intro s n hn
  simp [accept, hn]

theorem startsType_argument (slot : Slot) (inner : ArgumentList) (outer : List ArgumentList) :
    StartsType (.argument slot inner outer) slot (inner :: outer) := by
  intro s n hn
  simp [accept, hn]

end Parser

namespace Grammar

open InterfaceSchema.Parser

theorem ne_typeArgumentsStart {k : TokenKind} {t : Token} (ht : t.kind = k)
    (hk : k ≠ .typeArgumentsStart) (ts : List Token) :
    ∀ u ∈ (t :: ts).head?, u.kind ≠ .typeArgumentsStart := by
  intro u hu
  obtain rfl : t = u := by simpa using hu
  rwa [ht]

theorem outcome_closed {p : Parser} {ts : List Token} {s s' : Scopes} {place place' : Place}
    {k : TokenKind} {c : Token} (h : p.outcome ts = .ok (s, place)) (hc : c.kind = k)
    (hk : k ≠ .typeArgumentsStart) (hclose : accept s place c = goto s' place') :
    p.outcome (ts ++ [c]) = .ok (s', place') :=
  (outcome_append_ok h (ne_typeArgumentsStart hc hk [])).trans (outcome_goto [] hclose)

mutual

theorem Mention.outcome_eq_deliver {ts : List Token} {type : TypeRef} (h : Mention ts type) :
    ∀ {s : Scopes} {place : Place} {slot : Slot} {lists : List ArgumentList},
      StartsType place slot lists →
      s.outer.length + lists.length + type.depth ≤ nestingLimit →
      outcome ⟨s, .place place⟩ ts = s.deliver slot lists type := by
  cases h with
  | @name n hn =>
      intro s place slot lists hstart _
      exact hstart.outcome_cons s hn []
  | @applied n o c ts arguments hn ho harguments hc =>
      intro s place slot lists hstart hdepth
      rw [TypeRef.depth_of_ne_nil _ harguments.ne_nil] at hdepth
      have hopen : Parser.step ⟨s, .typeName slot lists n.value⟩ o =
          .ok ⟨s, .place (.argument slot ⟨n.value, []⟩ lists)⟩ := by
        have hlt : s.outer.length + lists.length ≠ nestingLimit := by omega
        simp [step, ho, openArguments, hlt, goto]
      have hread := @Arguments.outcome_eq _ _ harguments s slot ⟨n.value, []⟩ lists (by omega)
      rw [hstart.outcome_cons s hn, outcome_cons_of_step _ hopen,
        outcome_append_ok hread (ne_typeArgumentsStart hc (by decide) [])]
      cases hdeliver : s.deliver slot lists ⟨n.value, arguments⟩ with
      | error error => simp [outcome, step, accept, hc, hdeliver]
      | ok result => simp [outcome, step, accept, hc, hdeliver, goto, settle]

theorem Arguments.outcome_eq {ts : List Token} {types : List TypeRef} (h : Arguments ts types) :
    ∀ {s : Scopes} {slot : Slot} {inner : ArgumentList} {outer : List ArgumentList},
      s.outer.length + (outer.length + 1) + TypeRef.depthAll types ≤ nestingLimit →
      outcome ⟨s, .place (.argument slot inner outer)⟩ ts =
        .ok (s, .argumentEnd slot ⟨inner.name, inner.arguments ++ types⟩ outer) := by
  cases h with
  | @one ts type hmention =>
      intro s slot inner outer hdepth
      rw [TypeRef.depthAll_singleton] at hdepth
      exact hmention.outcome_eq_deliver (startsType_argument slot inner outer) hdepth
  | @more ts us sep type types hmention hsep harguments =>
      intro s slot inner outer hdepth
      rw [TypeRef.depthAll] at hdepth
      have hfirst : outcome ⟨s, .place (.argument slot inner outer)⟩ ts =
          .ok (s, .argumentEnd slot (inner.push type) outer) :=
        hmention.outcome_eq_deliver (startsType_argument slot inner outer)
          (by simp only [List.length_cons]; omega)
      have hnext : accept s (.argumentEnd slot (inner.push type) outer) sep =
          goto s (.argument slot (inner.push type) outer) := by simp [accept, hsep]
      rw [outcome_append_ok hfirst (ne_typeArgumentsStart hsep (by decide) _),
        outcome_goto _ hnext, harguments.outcome_eq (by omega)]
      simp [ArgumentList.push]

end

theorem Arguments.outcome_inputs {ts : List Token} {types : List TypeRef} (h : Arguments ts types)
    {s : Scopes} {signature : Signature}
    (hdepth : s.outer.length + TypeRef.depthAll types ≤ nestingLimit) :
    outcome ⟨s, .place (.input signature)⟩ ts =
      .ok (s, .inputEnd ⟨signature.name, signature.input ++ types⟩) := by
  induction types generalizing ts signature with
  | nil => exact absurd rfl h.ne_nil
  | cons type types ih =>
      rw [TypeRef.depthAll] at hdepth
      have hread {us : List Token} (hm : Mention us type) :
          outcome ⟨s, .place (.input signature)⟩ us =
            .ok (s, .inputEnd (signature.push type)) :=
        hm.outcome_eq_deliver (startsType_input signature) (by simp only [List.length_nil]; omega)
      cases h with
      | one hmention => exact hread hmention
      | @more us vs sep _ _ hmention hsep hrest =>
          have hnext : accept s (.inputEnd (signature.push type)) sep =
              goto s (.input (signature.push type)) := by simp [accept, hsep]
          rw [outcome_append_ok (hread hmention) (ne_typeArgumentsStart hsep (by decide) _),
            outcome_goto _ hnext, ih hrest (by omega)]
          simp [Signature.push]

theorem Inputs.outcome_eq {ts : List Token} {types : List TypeRef} (h : Inputs ts types)
    {s : Scopes} {name c : Token} (hc : c.kind = .argumentsEnd)
    (hdepth : s.outer.length + TypeRef.depthAll types ≤ nestingLimit) :
    outcome ⟨s, .place (.input ⟨name, []⟩)⟩ (ts ++ [c]) = .ok (s, .output ⟨name, types⟩) := by
  have hclose (signature : Signature) : accept s (.input signature) c =
      goto s (.output signature) := by simp [accept, hc, TokenKind.isName]
  cases h with
  | none => exact outcome_goto [] (hclose _)
  | some harguments =>
      have hend : accept s (.inputEnd ⟨name, types⟩) c = goto s (.output ⟨name, types⟩) := by
        simp [accept, hc]
      exact outcome_closed (harguments.outcome_inputs hdepth) hc (by decide) hend
  | @trailing ts sep _ harguments hsep =>
      have hnext : accept s (.inputEnd ⟨name, types⟩) sep = goto s (.input ⟨name, types⟩) := by
        simp [accept, hsep]
      rw [List.append_assoc, List.singleton_append,
        outcome_append_ok (harguments.outcome_inputs hdepth)
          (ne_typeArgumentsStart hsep (by decide) _)]
      exact (outcome_goto _ hnext).trans (outcome_goto [] (hclose _))

theorem contains_addProperty (record : RecordType) (property : Property) (name : String) :
    (record.addProperty property).properties.contains name = true ↔
      record.properties.contains name = true ∨ name = property.name := by
  simp only [RecordType.addProperty, NameMap.contains, NameMap.get?_addIfNew]
  split
  · cases record.properties.get? name <;> simp_all
  · simp_all

theorem contains_ofProperties (name : String) (properties : List Property) (key : String) :
    (RecordType.ofProperties name properties).properties.contains key = true ↔
      key ∈ properties.map Property.name := by
  have hfold (record : RecordType) :
      (properties.foldl RecordType.addProperty record).properties.contains key = true ↔
        record.properties.contains key = true ∨ key ∈ properties.map Property.name := by
    induction properties generalizing record with
    | nil => simp
    | cons property properties ih =>
        rw [List.foldl_cons, ih, contains_addProperty, List.map_cons, List.mem_cons, or_assoc]
  rw [RecordType.ofProperties, hfold, or_iff_right]
  exact Bool.false_ne_true

theorem not_contains_addProperty {record : RecordType} {property : Property}
    {properties : List Property} (hfirst : property.name ∉ properties.map Property.name)
    (hnew : ∀ other ∈ property :: properties, record.properties.contains other.name = false) :
    ∀ other ∈ properties, (record.addProperty property).properties.contains other.name = false := by
  intro other hother
  rw [Bool.eq_false_iff, Ne, contains_addProperty]
  rintro (hcontains | heq)
  · exact absurd hcontains (by simp [hnew other (List.mem_cons_of_mem _ hother)])
  · exact hfirst (heq ▸ List.mem_map_of_mem hother)

theorem Properties.outcome_eq {ts : List Token} {properties : List Property}
    (h : Properties ts properties) {s : Scopes} {record : RecordType}
    (hdepth : s.outer.length + TypeRef.depthAll (properties.map Property.type) ≤ nestingLimit)
    (hnodup : (properties.map Property.name).Nodup)
    (hnew : ∀ property ∈ properties, record.properties.contains property.name = false) :
    outcome ⟨s, .place (.property record)⟩ ts =
      .ok (s, .property (properties.foldl RecordType.addProperty record)) := by
  induction h generalizing record with
  | nil => rfl
  | @more ts us n type properties hmention hn _ ih =>
      simp only [List.map_cons, TypeRef.depthAll] at hdepth
      obtain ⟨hfirst, hrest⟩ := List.nodup_cons.mp hnodup
      have hread : outcome ⟨s, .place (.property record)⟩ ts =
          .ok (s, .propertyName record type) :=
        hmention.outcome_eq_deliver (startsType_property record)
          (by simp only [List.length_nil]; omega)
      have hadd : accept s (.propertyName record type) n =
          goto s (.property (record.addProperty ⟨n.value, type⟩)) := by
        have hfresh : record.properties.contains n.value = false := hnew _ List.mem_cons_self
        simp [accept, hn, addProperty, hfresh]
      have hhead := ne_typeArgumentsStart rfl (TokenKind.ne_of_isName hn _ rfl)
      rw [outcome_append_ok hread (hhead _), outcome_goto _ hadd]
      exact ih (by omega) hrest (not_contains_addProperty hfirst hnew)

theorem Members.outcome_eq {ts : List Token} {members : List String} (h : Members ts members)
    {s : Scopes} {enum : EnumType} :
    outcome ⟨s, .place (.member enum)⟩ ts = .ok (s, .member (enum.pushAll members)) := by
  induction h generalizing enum with
  | nil => rfl
  | @more ts n members hn _ ih =>
      have hpush : accept s (.member enum) n = goto s (.member (enum.push n.value)) := by
        simp [accept, hn]
      rw [outcome_goto _ hpush, ih]
      rfl

theorem accept_announced {s : Scopes} {k : Token} {word : String} (hk : Announces k word)
    {place : Place} (hdefine : s.define ⟨.keyword, word, k.pos, k.len⟩ = .ok place) :
    accept s .body k = goto s place := by
  obtain ⟨kind, value, pos, len⟩ := k
  obtain ⟨rfl, rfl⟩ := hk
  simp [accept, hdefine]

theorem Announces.head_ne {k : Token} {word : String} (hk : Announces k word) (ts : List Token) :
    ∀ u ∈ (k :: ts).head?, u.kind ≠ .typeArgumentsStart :=
  ne_typeArgumentsStart hk.1 (by decide) ts

theorem Definition.head_ne {ts us : List Token} {item : Item} (h : Definition ts item) :
    ∀ u ∈ (ts ++ us).head?, u.kind ≠ .typeArgumentsStart := by
  cases h with
  | scope hk => exact hk.head_ne _
  | option hk => exact hk.head_ne _
  | type hk => exact hk.head_ne _
  | enum hk => exact hk.head_ne _
  | rpc hk => exact hk.head_ne _

theorem Body.head_ne {ts : List Token} {items : List Item} (h : Body ts items) :
    ∀ u ∈ ts.head?, u.kind ≠ .typeArgumentsStart := by
  cases h with
  | nil => simp
  | more hfirst _ => exact hfirst.head_ne

theorem outcome_block {s : Scopes} {kind : BlockKind} {n o : Token} (hn : n.kind = .identifier)
    (ho : o.kind = .blockStart) (ts : List Token) :
    outcome ⟨s, .place (.blockName kind)⟩ (n :: o :: ts) =
      outcome ⟨(s.enterBlock kind n.value).1, .place (s.enterBlock kind n.value).2⟩ ts := by
  have hname : accept s (.blockName kind) n = goto s (.block kind n.value) := by
    simp [accept, hn]
  have hblock : accept s (.block kind n.value) o =
      goto (s.enterBlock kind n.value).1 (s.enterBlock kind n.value).2 := by
    simp [accept, ho]
  rw [outcome_goto _ hname, outcome_goto _ hblock]

theorem addRpc_eq_declare {s : Scopes} {name : String} (input : List TypeRef) (output : TypeRef)
    (h : s.inner.rpcs.contains name = false) :
    s.addRpc ⟨name, input, [output]⟩ = s.mapInner (·.declare (.rpc name input output)) := by
  simp [Scopes.addRpc, Scopes.mapInner, Namespace.declare, NameMap.addIfNew, h]

theorem Mention.head_ne {ts : List Token} {type : TypeRef} (h : Mention ts type) :
    ∀ u ∈ ts.head?, u.kind ≠ .typeArgumentsStart := by
  cases h with
  | name hn | applied hn => exact ne_typeArgumentsStart rfl (TokenKind.ne_of_isName hn _ rfl) _

theorem rpc_outcome {s : Scopes} {k n o c : Token} {ts us : List Token} {input : List TypeRef}
    {output : TypeRef} (hk : Announces k "rpc") (hn : n.kind = .identifier)
    (ho : o.kind = .argumentsStart) (hinputs : Inputs ts input) (hc : c.kind = .argumentsEnd)
    (houtput : Mention us output)
    (hdepth : s.outer.length + max (TypeRef.depthAll input) output.depth ≤ nestingLimit) :
    outcome ⟨s, .place .body⟩ (k :: n :: o :: (ts ++ c :: us)) =
      s.deliver (.output ⟨n, input⟩) [] output := by
  have hname : accept s .rpcName n = goto s (.inputs n) := by simp [accept, hn]
  have hopen : accept s (.inputs n) o = goto s (.input ⟨n, []⟩) := by simp [accept, ho]
  rw [outcome_goto _ (accept_announced hk rfl), outcome_goto _ hname, outcome_goto _ hopen,
    List.append_cons ts c us, outcome_append_ok (hinputs.outcome_eq hc (by omega)) houtput.head_ne]
  exact houtput.outcome_eq_deliver (startsType_output _) (by simp only [List.length_nil]; omega)

mutual

theorem Definition.outcome_eq {ts : List Token} {item : Item} (h : Definition ts item) :
    ∀ {s : Scopes}, item.Distinct → s.outer.length + item.depth ≤ nestingLimit →
      (∀ name, item.rpcName? = some name → s.inner.rpcs.contains name = false) →
      outcome ⟨s, .place .body⟩ ts = .ok (s.mapInner (·.declare item), .body) := by
  cases h with
  | @scope k n o c ts body hk hn ho hbody hc =>
      intro s hdistinct hdepth _
      rw [Item.depth] at hdepth
      rw [Item.Distinct] at hdistinct
      have hlt : s.outer.length ≠ nestingLimit := by omega
      have hread := @Body.outcome_eq _ _ hbody (s.openScope n.value) hdistinct.1 hdistinct.2
        (by simp only [Scopes.openScope, List.length_cons]; omega) (fun name _ => rfl)
      have hclose : accept ((s.openScope n.value).mapInner (·.declareAll body)) .body c =
          goto (s.mapInner (·.declare (.scope n.value body))) .body := by
        simp [accept, hc, closeScope, Scopes.close?, Scopes.mapInner, Scopes.openScope,
          Namespace.declare]
      have hdefine : s.define ⟨.keyword, "namespace", k.pos, k.len⟩ = .ok (.blockName .scope) := by
        simp [Scopes.define, hlt]
      rw [outcome_goto _ (accept_announced hk hdefine), outcome_block hn ho]
      exact outcome_closed hread hc (by decide) hclose
  | @option k n v hk hn hv =>
      intro s _ _ _
      have hname : accept s .optionName n = goto s (.optionValue n.value) := by simp [accept, hn]
      have hvalue : accept s (.optionValue n.value) v =
          goto (s.mapInner (·.declare (.option n.value v.value))) .body := by
        rcases hv with hv | hv <;> simp [accept, hv, Scopes.addOption, Namespace.declare]
      rw [outcome_goto _ (accept_announced hk rfl), outcome_goto _ hname, outcome_goto _ hvalue]
      rfl
  | @type k n o c ts properties hk hn ho hproperties hc =>
      intro s hdistinct hdepth _
      rw [Item.depth] at hdepth
      rw [Item.Distinct] at hdistinct
      have hread := @Properties.outcome_eq _ _ hproperties s (.ofName n.value) hdepth hdistinct
        (fun property _ => rfl)
      have hclose : accept s (.property (.ofProperties n.value properties)) c =
          goto (s.mapInner (·.declare (.type n.value properties))) .body := by
        simp [accept, hc, TokenKind.isName, Scopes.addType, Namespace.declare]
      rw [outcome_goto _ (accept_announced hk rfl), outcome_block hn ho]
      exact outcome_closed hread hc (by decide) hclose
  | @enum k n o c ts members hk hn ho hmembers hc =>
      intro s _ _ _
      have hread := @Members.outcome_eq _ _ hmembers s (.ofName n.value)
      have hclose : accept s (.member (.ofMembers n.value members)) c =
          goto (s.mapInner (·.declare (.enum n.value members))) .body := by
        simp [accept, hc, TokenKind.isName, Scopes.addEnum, Namespace.declare]
      rw [outcome_goto _ (accept_announced hk rfl), outcome_block hn ho]
      exact outcome_closed hread hc (by decide) hclose
  | @rpc k n o c ts us input output hk hn ho hinputs hc houtput =>
      intro s _ hdepth hnew
      rw [Item.depth] at hdepth
      have hfresh : s.inner.rpcs.contains n.value = false := hnew n.value rfl
      rw [rpc_outcome hk hn ho hinputs hc houtput hdepth, ← addRpc_eq_declare input output hfresh]
      simp [Scopes.deliver, hfresh]

theorem Body.outcome_eq {ts : List Token} {items : List Item} (h : Body ts items) :
    ∀ {s : Scopes}, (Item.rpcNames items).Nodup → Item.DistinctAll items →
      s.outer.length + Item.depthAll items ≤ nestingLimit →
      (∀ name ∈ Item.rpcNames items, s.inner.rpcs.contains name = false) →
      outcome ⟨s, .place .body⟩ ts = .ok (s.mapInner (·.declareAll items), .body) := by
  cases h with
  | nil =>
      intro s _ _ _ _
      simp [outcome, settle, Scopes.mapInner, Namespace.declareAll]
  | @more ts us item items hitem hitems =>
      intro s hnodup hdistinct hdepth hnew
      rw [Item.depthAll] at hdepth
      rw [Item.DistinctAll] at hdistinct
      rw [Item.nodup_rpcNames_cons] at hnodup
      have hfirst := @Definition.outcome_eq _ _ hitem s hdistinct.1 (by omega)
        (fun name hname => hnew name (Item.mem_rpcNames_cons.mpr (.inl hname)))
      have hrest := @Body.outcome_eq _ _ hitems (s.mapInner (·.declare item)) hnodup.2 hdistinct.2
        (by simp only [Scopes.mapInner]; omega) (Namespace.not_contains_declare_rpcs hnodup.1 hnew)
      rw [outcome_append_ok hfirst hitems.head_ne, hrest]
      simp [Scopes.mapInner, Namespace.declareAll]

end

theorem Definition.outcome_repeated {ts : List Token} {item : Item} (h : Definition ts item)
    {s : Scopes} {name : String} (hname : item.rpcName? = some name)
    (hcontains : s.inner.rpcs.contains name = true)
    (hdepth : s.outer.length + item.depth ≤ nestingLimit) :
    ∃ t, outcome ⟨s, .place .body⟩ ts = .error ⟨.rpcRepeated name, t⟩ := by
  cases h with
  | @rpc k n o c ts us input output hk hn ho hinputs hc houtput =>
      rw [Item.depth] at hdepth
      obtain rfl : n.value = name := by simpa [Item.rpcName?] using hname
      refine ⟨n, ?_⟩
      rw [rpc_outcome hk hn ho hinputs hc houtput hdepth]
      simp [Scopes.deliver, hcontains]
  | _ => cases hname

theorem Body.outcome_repeated {ts : List Token} {items : List Item} (h : Body ts items)
    {s : Scopes} (hdistinct : Item.DistinctAll items)
    (hdepth : s.outer.length + Item.depthAll items ≤ nestingLimit)
    (hrepeated : (Item.rpcNames items).Nodup →
      ∃ name ∈ Item.rpcNames items, s.inner.rpcs.contains name = true) :
    ∃ name ∈ Item.rpcNames items,
      (s.inner.rpcs.contains name = true ∨ (Item.rpcNames items).Duplicate name) ∧
      ∃ t, outcome ⟨s, .place .body⟩ ts = .error ⟨.rpcRepeated name, t⟩ := by
  induction items generalizing ts s with
  | nil => simp [Item.rpcNames] at hrepeated
  | cons item items ih =>
      cases h with
      | @more us vs _ _ hitem hitems =>
          rw [Item.depthAll] at hdepth
          rw [Item.DistinctAll] at hdistinct
          by_cases hfirst : ∃ name, item.rpcName? = some name ∧ s.inner.rpcs.contains name = true
          · obtain ⟨name, hname, hcontains⟩ := hfirst
            obtain ⟨t, ht⟩ := hitem.outcome_repeated hname hcontains (by omega)
            exact ⟨name, Item.mem_rpcNames_cons.mpr (.inl hname), .inl hcontains, t,
              outcome_append_error ht hitems.head_ne⟩
          · have hnew : ∀ name, item.rpcName? = some name → s.inner.rpcs.contains name = false :=
              fun name hname => Bool.eq_false_iff.mpr fun hc => hfirst ⟨name, hname, hc⟩
            have hread := hitem.outcome_eq hdistinct.1 (by omega) hnew
            have hlater : (Item.rpcNames items).Nodup → ∃ name ∈ Item.rpcNames items,
                (s.inner.declare item).rpcs.contains name = true := by
              intro hnodup
              by_cases hclash : ∃ name, item.rpcName? = some name ∧ name ∈ Item.rpcNames items
              · obtain ⟨name, hname, hmem⟩ := hclash
                exact ⟨name, hmem, (Namespace.contains_declare_rpcs ..).mpr (.inr hname)⟩
              · obtain ⟨name, hmem, hcontains⟩ := hrepeated (Item.nodup_rpcNames_cons.mpr
                  ⟨fun name hname hmem => hclash ⟨name, hname, hmem⟩, hnodup⟩)
                refine ⟨name, ?_, (Namespace.contains_declare_rpcs ..).mpr (.inl hcontains)⟩
                exact (Item.mem_rpcNames_cons.mp hmem).resolve_left
                  fun hname => hfirst ⟨name, hname, hcontains⟩
            obtain ⟨name, hmem, hname, t, ht⟩ := @ih vs hitems (s.mapInner (·.declare item))
              hdistinct.2 (by simp only [Scopes.mapInner]; omega) hlater
            refine ⟨name, Item.mem_rpcNames_cons.mpr (.inr hmem), ?_, t, ?_⟩
            · rw [Scopes.mapInner, Namespace.contains_declare_rpcs] at hname
              rw [Item.duplicate_rpcNames_cons]
              rcases hname with (hcontains | hname) | hduplicate
              · exact .inl hcontains
              · exact .inr (.inl ⟨hname, hmem⟩)
              · exact .inr (.inr hduplicate)
            · rw [outcome_append_ok hread hitems.head_ne, ht]

end Grammar

end InterfaceSchema
