import InterfaceSchema.Proofs.Compilation.Meaning

namespace InterfaceSchema

def Identifier (name : String) : Prop :=
  ∃ l : Lexeme, l.Valid ∧ l.kind = .identifier ∧ String.ofList l.value = name

def Word (name : String) : Prop :=
  ∃ c cs, name = String.ofList (c :: cs) ∧ isWordStart c = true ∧ ∀ d ∈ cs, isWordPart d = true

theorem bracketKind?_isName {c : Char} {kind : TokenKind} (h : bracketKind? c = some kind) :
    kind.isName = false := by
  unfold bracketKind? at h
  repeat' split at h
  all_goals cases h
  all_goals rfl

theorem Identifier.not_mem_keywords {name : String} (h : Identifier name) : name ∉ keywords := by
  obtain ⟨l, hl, hkind, rfl⟩ := h
  intro hkeyword
  cases hl with
  | bracket hbracket =>
    have hname := bracketKind?_isName hbracket
    cases hname.symm.trans (congrArg TokenKind.isName hkind)
  | @word c cs =>
    have hword : wordKindOf (c :: cs) = .keyword := if_pos (List.contains_iff_mem.mpr hkeyword)
    cases hword.symm.trans hkind
  | _ => cases hkind

theorem Builtin.ofWord?_eq_none {name : String} (h : ∀ b : Builtin, b.word ≠ name) :
    ofWord? name = none :=
  List.find?_eq_none.mpr fun b _ hname => h b (eq_of_beq hname)

theorem Identifier.ofWord?_eq_none {name : String} (h : Identifier name) :
    Builtin.ofWord? name = none := by
  refine Builtin.ofWord?_eq_none fun b hname => h.not_mem_keywords ?_
  exact List.mem_append_right _ (hname ▸ List.mem_map_of_mem b.mem_all)

theorem Lexeme.Valid.word_value {l : Lexeme} (h : l.Valid) (hkind : l.kind.isName = true) :
    Word (String.ofList l.value) := by
  cases h with
  | bracket hbracket => exact absurd hkind (Bool.eq_false_iff.mp (bracketKind?_isName hbracket))
  | @word c cs hstart hparts => exact ⟨c, cs, rfl, hstart, hparts⟩
  | _ => cases hkind

theorem Identifier.word {name : String} (h : Identifier name) : Word name := by
  obtain ⟨l, hl, hkind, rfl⟩ := h
  exact hl.word_value (hkind ▸ rfl)

theorem Identifier.title {name : String} (h : Identifier name) : Word name ∧ name ∉ keywords :=
  ⟨h.word, h.not_mem_keywords⟩

namespace TypeRef

mutual

def names : TypeRef → List String
  | ⟨name, arguments⟩ => name :: namesAll arguments

def namesAll : List TypeRef → List String
  | [] => []
  | type :: types => type.names ++ namesAll types

end

theorem names_subset_namesAll {type : TypeRef} {types : List TypeRef} (h : type ∈ types) :
    type.names ⊆ namesAll types := by
  induction types with
  | nil => cases h
  | cons first rest ih =>
    rw [namesAll]
    rcases List.mem_cons.mp h with rfl | h
    · exact List.subset_append_left _ _
    · exact List.Subset.trans (ih h) (List.subset_append_right _ _)

theorem names_subset_of_mem {name : String} {arguments : List TypeRef} {type : TypeRef}
    (h : type ∈ arguments) : type.names ⊆ (TypeRef.mk name arguments).names := by
  rw [names]
  exact List.Subset.trans (names_subset_namesAll h) (List.subset_cons_self _ _)

theorem name_mem_names (name : String) (arguments : List TypeRef) :
    name ∈ (TypeRef.mk name arguments).names := by
  rw [names]
  exact List.mem_cons_self

def Worded (type : TypeRef) : Prop :=
  ∀ name ∈ type.names, Word name

end TypeRef

-- What is defined has an identifier for its name. Every other name is a word, which can be a
-- keyword.
mutual

def Item.Worded : Item → Prop
  | .scope name body => Identifier name ∧ WordedAll body
  | .option key _ => Identifier key
  | .type name properties =>
      Identifier name ∧ ∀ property ∈ properties, Word property.name ∧ property.type.Worded
  | .enum name members => Identifier name ∧ ∀ member ∈ members, Word member
  | .rpc name input output => Identifier name ∧ (∀ type ∈ input, type.Worded) ∧ output.Worded

def Item.WordedAll : List Item → Prop
  | [] => True
  | item :: items => item.Worded ∧ WordedAll items

end

namespace Token

def Spelled (t : Token) : Prop :=
  ∃ l : Lexeme, l.Valid ∧ l.kind = t.kind ∧ String.ofList l.value = t.value

theorem Spelled.identifier {t : Token} (h : t.Spelled) (hkind : t.kind = .identifier) :
    Identifier t.value := by
  obtain ⟨l, hl, hsame, hvalue⟩ := h
  exact ⟨l, hl, hsame.trans hkind, hvalue⟩

theorem Spelled.word {t : Token} (h : t.Spelled) (hkind : t.kind.isName) : Word t.value := by
  obtain ⟨l, hl, hsame, hvalue⟩ := h
  exact hvalue ▸ hl.word_value (hsame ▸ hkind)

end Token

namespace Grammar

def Spelled (ts : List Token) : Prop :=
  ∀ t ∈ ts, t.Spelled

variable {ts us : List Token} {t : Token}

theorem Spelled.of_append (h : Spelled (ts ++ us)) : Spelled ts ∧ Spelled us :=
  List.forall_mem_append.mp h

theorem Spelled.of_cons (h : Spelled (t :: ts)) : t.Spelled ∧ Spelled ts :=
  List.forall_mem_cons.mp h

mutual

theorem Mention.worded {ts : List Token} {type : TypeRef} (h : Mention ts type)
    (hts : Spelled ts) : type.Worded := by
  cases h with
  | name hn =>
    intro name hname
    rw [TypeRef.names, TypeRef.namesAll] at hname
    exact List.mem_singleton.mp hname ▸ hts.of_cons.1.word hn
  | applied hn _ harguments _ =>
    have hinner := hts.of_cons.2.of_cons.2.of_append.1
    intro name hname
    rw [TypeRef.names] at hname
    rcases List.mem_cons.mp hname with rfl | hname
    · exact hts.of_cons.1.word hn
    · exact harguments.worded hinner name hname

theorem Arguments.worded {ts : List Token} {types : List TypeRef} (h : Arguments ts types)
    (hts : Spelled ts) : ∀ name ∈ TypeRef.namesAll types, Word name := by
  cases h with
  | one htype =>
    intro name hname
    rw [TypeRef.namesAll, TypeRef.namesAll, List.append_nil] at hname
    exact htype.worded hts name hname
  | more htype _ htypes =>
    obtain ⟨hfirst, hrest⟩ := hts.of_append
    intro name hname
    rw [TypeRef.namesAll] at hname
    rcases List.mem_append.mp hname with hname | hname
    · exact htype.worded hfirst name hname
    · exact htypes.worded hrest.of_cons.2 name hname

end

theorem Inputs.worded {types : List TypeRef} (h : Inputs ts types) (hts : Spelled ts) :
    ∀ type ∈ types, type.Worded := by
  intro type htype name hname
  have hall := TypeRef.names_subset_namesAll htype hname
  cases h with
  | none => cases htype
  | some htypes => exact htypes.worded hts name hall
  | trailing htypes _ => exact htypes.worded hts.of_append.1 name hall

theorem Properties.worded {properties : List Property} (h : Properties ts properties)
    (hts : Spelled ts) : ∀ property ∈ properties, Word property.name ∧ property.type.Worded := by
  induction h with
  | nil => exact nofun
  | more htype hn _ ih =>
    obtain ⟨hfirst, hrest⟩ := hts.of_append
    refine List.forall_mem_cons.mpr ⟨⟨hrest.of_cons.1.word hn, htype.worded hfirst⟩, ?_⟩
    exact ih hrest.of_cons.2

theorem Members.worded {members : List String} (h : Members ts members) (hts : Spelled ts) :
    ∀ member ∈ members, Word member := by
  induction h with
  | nil => exact nofun
  | more hn _ ih => exact List.forall_mem_cons.mpr ⟨hts.of_cons.1.word hn, ih hts.of_cons.2⟩

mutual

theorem Definition.worded {ts : List Token} {item : Item} (h : Definition ts item)
    (hts : Spelled ts) : item.Worded := by
  cases h with
  | scope _ hn _ hbody _ =>
    obtain ⟨hname, hrest⟩ := hts.of_cons.2.of_cons
    rw [Item.Worded]
    exact ⟨hname.identifier hn, hbody.worded hrest.of_cons.2.of_append.1⟩
  | option _ hn _ => exact hts.of_cons.2.of_cons.1.identifier hn
  | type _ hn _ hproperties _ =>
    obtain ⟨hname, hrest⟩ := hts.of_cons.2.of_cons
    exact ⟨hname.identifier hn, hproperties.worded hrest.of_cons.2.of_append.1⟩
  | enum _ hn _ hmembers _ =>
    obtain ⟨hname, hrest⟩ := hts.of_cons.2.of_cons
    exact ⟨hname.identifier hn, hmembers.worded hrest.of_cons.2.of_append.1⟩
  | rpc _ hn _ hinputs _ houtput =>
    obtain ⟨hname, hrest⟩ := hts.of_cons.2.of_cons
    obtain ⟨hinner, hlast⟩ := hrest.of_cons.2.of_append
    exact ⟨hname.identifier hn, hinputs.worded hinner, houtput.worded hlast.of_cons.2⟩

theorem Body.worded {ts : List Token} {items : List Item} (h : Body ts items) (hts : Spelled ts) :
    Item.WordedAll items := by
  cases h with
  | nil => exact trivial
  | more hitem hitems =>
    rw [Item.WordedAll]
    exact ⟨hitem.worded hts.of_append.1, hitems.worded hts.of_append.2⟩

end

end Grammar

theorem RecordType.name_ofProperties (name : String) (properties : List Property) :
    (ofProperties name properties).name = name := by
  have hfold : ∀ type : RecordType, (properties.foldl addProperty type).name = type.name := by
    induction properties with
    | nil => exact fun _ => rfl
    | cons property properties ih => exact fun type => ih (type.addProperty property)
  exact hfold (.ofName name)

namespace Namespace

structure Titled (ns : Namespace) : Prop extends Indexed ns where
  childTitle : ∀ {key}, ns.children.contains key = true → Identifier key
  optionTitle : ∀ {key}, ns.options.contains key = true → Identifier key
  typeTitle : ∀ {key}, ns.types.contains key = true → Identifier key
  enumTitle : ∀ {key}, ns.enums.contains key = true → Identifier key
  rpcTitle : ∀ {key}, ns.rpcs.contains key = true → Identifier key

theorem Titled.ofName (name : String) : (Namespace.ofName name).Titled :=
  { Indexed.ofName name with
    childTitle := nofun
    optionTitle := nofun
    typeTitle := nofun
    enumTitle := nofun
    rpcTitle := nofun }

theorem Titled.merge {a b : Namespace} (ha : a.Titled) (hb : b.Titled) :
    (a.merge b).Titled where
  toIndexed := ha.toIndexed.merge hb.toIndexed
  childTitle := by
    intro key h
    rw [NameMap.contains, hb.get?_merge_children, Option.isSome_merge, Bool.or_eq_true] at h
    exact h.elim ha.childTitle hb.childTitle
  optionTitle := by
    intro key h
    rw [NameMap.contains, hb.get?_merge_options, Option.isSome_or, Bool.or_eq_true] at h
    exact h.elim hb.optionTitle ha.optionTitle
  typeTitle := by
    intro key h
    rw [NameMap.contains, hb.get?_merge_types, Option.isSome_merge, Bool.or_eq_true] at h
    exact h.elim ha.typeTitle hb.typeTitle
  enumTitle := by
    intro key h
    rw [NameMap.contains, hb.get?_merge_enums, Option.isSome_merge, Bool.or_eq_true] at h
    exact h.elim ha.enumTitle hb.enumTitle
  rpcTitle := by
    intro key h
    rw [NameMap.contains, hb.get?_merge_rpcs, Option.isSome_or, Bool.or_eq_true] at h
    exact h.elim ha.rpcTitle hb.rpcTitle

theorem Everywhere.merge_titled {a b : Namespace} (ha : a.Everywhere Titled)
    (hb : b.Everywhere Titled) : (a.merge b).Everywhere Titled :=
  ha.merge (fun _ => Titled.toIndexed) (fun _ _ => Titled.merge) hb

theorem title_of_contains_insert {α : Type} {m : NameMap α} {name key : String} {value : α}
    (hm : ∀ {key}, m.contains key = true → Identifier key) (hname : Identifier name)
    (h : (m.insert name value).contains key = true) : Identifier key := by
  rcases (NameMap.contains_insert m name key value).mp h with rfl | h
  · exact hname
  · exact hm h

mutual

theorem titled_declare (item : Item) (hitem : item.Worded) : ∀ {ns : Namespace},
    ns.Everywhere Titled → (ns.declare item).Everywhere Titled := by
  intro ns h
  have halone := Titled.ofName ns.name
  cases item with
  | scope name body =>
    rw [Item.Worded] at hitem
    have hbody := titled_declareAll body hitem.2 (.ofName name (.ofName name))
    have htitle : Identifier ((ofName name).declareAll body).name :=
      (declareAll_name (ofName name) body).symm ▸ hitem.1
    rw [declare_eq_merge ns _ (fun _ hname => by cases hname)]
    refine h.merge_titled ?_
    rw [declare]
    refine .intro { halone with
      children := NameMap.Indexed.empty.insert ((ofName name).declareAll body)
      childTitle := title_of_contains_insert nofun htitle } ?_
    intro key child hchild
    exact NameMap.get?_insert_empty hchild ▸ hbody
  | option key value =>
    rw [declare]
    exact .intro { h.here with
      options := h.here.options.insert key value
      optionTitle := title_of_contains_insert h.here.optionTitle hitem } h.child
  | type name properties =>
    have htitle : Identifier (RecordType.ofProperties name properties).name :=
      (RecordType.name_ofProperties name properties).symm ▸ hitem.1
    rw [declare_eq_merge ns _ (fun _ hname => by cases hname)]
    refine h.merge_titled ?_
    rw [declare]
    refine .intro { halone with
      types := NameMap.Indexed.empty.insert (RecordType.ofProperties name properties)
      typeTitle := title_of_contains_insert nofun htitle
      properties := ?_ } nofun
    intro key type htype
    exact NameMap.get?_insert_empty htype ▸ RecordType.indexed_ofProperties name properties
  | enum name members =>
    have htitle : Identifier (EnumType.ofMembers name members).name :=
      (EnumType.pushAll_name _ members).symm ▸ hitem.1
    rw [declare_eq_merge ns _ (fun _ hname => by cases hname)]
    refine h.merge_titled ?_
    rw [declare]
    exact .intro { halone with
      enums := NameMap.Indexed.empty.insert (EnumType.ofMembers name members)
      enumTitle := title_of_contains_insert nofun htitle } nofun
  | rpc name input output =>
    rw [declare]
    exact .intro { h.here with
      rpcs := h.here.rpcs.insert ⟨name, input, [output]⟩
      rpcTitle := title_of_contains_insert h.here.rpcTitle hitem.1 } h.child

theorem titled_declareAll (items : List Item) (hitems : Item.WordedAll items) :
    ∀ {ns : Namespace}, ns.Everywhere Titled →
      (ns.declareAll items).Everywhere Titled := by
  intro ns h
  cases items with
  | nil => rwa [declareAll]
  | cons item items =>
    rw [Item.WordedAll] at hitems
    rw [declareAll]
    exact titled_declareAll items hitems.2 (titled_declare item hitems.1 h)

end

end Namespace

theorem Writes.worded {cs : List Char} {items : List Item} (h : Writes cs items) :
    Item.WordedAll items := by
  obtain ⟨ls, hcut, hbody⟩ := h
  refine (hbody .origin).worded fun t ht => ?_
  obtain ⟨before, l, after, rfl, rfl⟩ := exists_of_mem_lexemeTokens (List.mem_of_mem_filter ht)
  exact ⟨l, hcut.valid_of_mem l (by simp), rfl, rfl⟩

theorem Namespace.titled_of_parseSource {text : String} {root : Namespace}
    (h : (parseSource text).value = .ok root) :
    root.Everywhere Titled := by
  obtain ⟨items, hitems, -, rfl⟩ := writes_of_parseSource h
  exact titled_declareAll items hitems.worded (.ofName rootName (.ofName rootName))

theorem Namespace.titled_of_compileSources {sources : List (String × String)} {ns : Namespace}
    (h : (compileSources sources).value = .ok ns) :
    ns.Everywhere Titled :=
  compileSources_induction (.ofName rootName (.ofName rootName)) titled_of_parseSource
    Everywhere.merge_titled h

end InterfaceSchema
