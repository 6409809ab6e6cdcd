import InterfaceSchema.Package.Outline
import InterfaceSchema.Proofs.Compilation.Shape
import InterfaceSchema.Proofs.Json.RoundTrip
import InterfaceSchema.Proofs.Package.Unresolved

namespace InterfaceSchema

namespace Json

inductive Step where
  | index (i : Nat)
  | field (name : String)
  | named (name : String)
  deriving DecidableEq, Repr

def field? (name : String) : Json → Option Json
  | .object fields => (namedFields? fields).bind (·.lookup name)
  | _ => none

def Step.follow? : Step → Json → Option Json
  | index i, .array items => items[i]?
  | field name, document => document.field? name
  | named name, .array items =>
      items.find? fun item => (item.field? "name").bind text? == some name
  | _, _ => none

def follow? (document : Json) : List Step → Option Json
  | [] => some document
  | step :: path => (step.follow? document).bind (follow? · path)

theorem field?_ofFields (fields : List (String × Json)) (name : String) :
    (ofFields fields).field? name = fields.lookup name := by
  rw [ofFields, field?, namedFields?_ofFields, Option.bind_some]

theorem Step.follow?_field (fields : List (String × Json)) (name : String) :
    (field name).follow? (ofFields fields) = fields.lookup name :=
  field?_ofFields fields name

theorem follow?_cons {document next : Json} {step : Step} (h : step.follow? document = some next)
    (path : List Step) : document.follow? (step :: path) = next.follow? path := by
  rw [follow?, h, Option.bind_some]

theorem Step.follow?_named {α : Type} {nameOf : α → String} {m : NameMap α}
    (h : m.Indexed nameOf) (item : α → Json)
    (hitem : ∀ value, (item value).field? "name" = some (ofText (nameOf value)))
    {name : String} {value : α} (hget : m.get? name = some value) :
    (Step.named name).follow? (.array (m.values.map item)) = some (item value) := by
  obtain ⟨hvalue, rfl⟩ := h.get?_eq_some_iff.mp hget
  -- No two values share a name, so that the first one found is the one that the map holds.
  have hfind : m.values.find? (nameOf · == nameOf value) = some value := by
    have hsome : (m.values.find? (nameOf · == nameOf value)).isSome = true :=
      List.find?_isSome.mpr ⟨value, hvalue, beq_self_eq_true (nameOf value)⟩
    obtain ⟨found, hfound⟩ := Option.isSome_iff_exists.mp hsome
    have hname : nameOf found = nameOf value := by simpa using List.find?_some hfound
    have hsame := h.get?_name (List.mem_of_find?_eq_some hfound)
    rw [hname, hget] at hsame
    rw [hfound, Option.some.inj hsame]
  rw [Step.follow?, List.find?_map]
  simp only [Function.comp_def, hitem, Option.bind_some, text?_ofText, Option.some_beq_some]
  rw [hfind, Option.map_some]

end Json

namespace ResolvedType

def names : ResolvedType → List String
  | simple name => [name]
  | list element => element.names
  | map key value => key.names ++ value.names
  | record name _ => [name]
  | enum name _ => [name]
  | _ => []

theorem question_mem_text {r : ResolvedType} (h : ∀ name ∈ r.names, '?' ∉ name.toList) :
    '?' ∈ r.text.toList ↔ unknown.PartOf r := by
  induction r with
  | list element ih => simp [text, partOf_list, ih h]
  | map key value ihkey ihvalue =>
    obtain ⟨hkey, hvalue⟩ := List.forall_mem_append.mp h
    simp [text, partOf_map, ihkey hkey, ihvalue hvalue]
  | unknown => exact iff_of_true (by decide) .whole
  | simple name => exact iff_of_false (h name (List.mem_singleton_self name)) nofun
  | record name package => exact iff_of_false (h name (List.mem_singleton_self name)) nofun
  | enum name package => exact iff_of_false (h name (List.mem_singleton_self name)) nofun
  | _ => exact iff_of_false (by decide) nofun

end ResolvedType

namespace Registry

variable (r : Registry) (scopes : List PackageId)

theorem names_resolveDeclared_subset (name : String) :
    (r.resolveDeclared scopes name).names ⊆ [name] := by
  rw [resolveDeclared]
  split
  · exact List.nil_subset _
  · exact List.Subset.refl _
  · exact List.Subset.refl _

theorem names_resolve_subset (type : TypeRef) : (r.resolve scopes type).names ⊆ type.names := by
  induction type using resolve_induction r scopes with
  | list name element _ ih =>
    exact List.Subset.trans ih (TypeRef.names_subset_of_mem List.mem_cons_self)
  | keyedMap name key _ ih =>
    refine List.append_subset.mpr ⟨?_, List.nil_subset _⟩
    exact List.Subset.trans ih (TypeRef.names_subset_of_mem List.mem_cons_self)
  | map name key value rest _ ihkey ihvalue =>
    refine List.append_subset.mpr ⟨?_, ?_⟩
    · exact List.Subset.trans ihkey (TypeRef.names_subset_of_mem List.mem_cons_self)
    · exact List.Subset.trans ihvalue
        (TypeRef.names_subset_of_mem (List.mem_cons_of_mem _ List.mem_cons_self))
  | simple name arguments =>
    exact List.cons_subset.mpr ⟨TypeRef.name_mem_names name arguments, List.nil_subset _⟩
  | declared name arguments =>
    exact List.Subset.trans (names_resolveDeclared_subset r scopes name)
      (List.cons_subset.mpr ⟨TypeRef.name_mem_names name arguments, List.nil_subset _⟩)
  | _ => exact List.nil_subset _

end Registry

theorem Word.question_not_mem {name : String} (h : Word name) : '?' ∉ name.toList := by
  obtain ⟨c, cs, rfl, hstart, hparts⟩ := h
  rw [String.toList_ofList]
  intro hmem
  rcases List.mem_cons.mp hmem with rfl | hmem
  · exact absurd hstart (by decide)
  · exact absurd (hparts '?' hmem) (by decide)

def Side.word : Side → String
  | input => "input"
  | output => "output"

def Occurrence.path : Occurrence → List Json.Step
  | property type name =>
      [.field "types", .named type, .field "properties", .named name, .field "type"]
  | argument rpc side i => [.field "rpcs", .named rpc, .field side.word, .index i]

def Mention.path (m : Mention) : List Json.Step :=
  .index m.package.id :: m.place.path

namespace PackageTree

open Json (Textual ofText ofFields)

variable (t : PackageTree) {p : Package}

theorem textual_outlineRecord (p : Package) (type : RecordType) :
    (t.outlineRecord p type).Textual := by
  refine .fields (List.forall_mem_cons.mpr ⟨.text _, List.forall_mem_singleton.mpr (.array ?_)⟩)
  exact List.forall_mem_map.mpr fun property _ =>
    .fields (List.forall_mem_cons.mpr ⟨.text _, List.forall_mem_singleton.mpr (.text _)⟩)

theorem textual_outlineEnum (enum : EnumType) : (outlineEnum enum).Textual :=
  .fields (List.forall_mem_cons.mpr
    ⟨.text _, List.forall_mem_singleton.mpr (Json.textual_ofTexts enum.members)⟩)

theorem textual_outlineRpc (p : Package) (rpc : Rpc) : (t.outlineRpc p rpc).Textual := by
  have htypes (types : List TypeRef) : (Json.array (types.map (t.outlineType p))).Textual :=
    .array (List.forall_mem_map.mpr fun _ _ => .text _)
  refine .fields ?_
  simp only [List.forall_mem_cons]
  exact ⟨.text _, htypes rpc.input, htypes rpc.output, List.forall_mem_nil _⟩

theorem textual_outlinePackage (p : Package) : (t.outlinePackage p).Textual := by
  have hoptions : (p.scope.options.encode ofText).Textual :=
    .fields (List.forall_mem_map.mpr fun _ _ => .text _)
  refine .fields ?_
  simp only [List.forall_mem_cons]
  exact ⟨.text _, .text _, .text _, .text _, .text _, Json.textual_ofTexts _,
    Json.textual_ofTexts _, hoptions,
    .array (List.forall_mem_map.mpr fun type _ => t.textual_outlineRecord p type),
    .array (List.forall_mem_map.mpr fun enum _ => textual_outlineEnum enum),
    .array (List.forall_mem_map.mpr fun rpc _ => t.textual_outlineRpc p rpc),
    List.forall_mem_nil _⟩

theorem textual_outline : t.outline.Textual :=
  .array (List.forall_mem_map.mpr fun p _ => t.textual_outlinePackage p)

theorem outlineRecord_name (p : Package) (type : RecordType) :
    (t.outlineRecord p type).field? "name" = some (ofText type.name) :=
  Json.field?_ofFields _ _

theorem outlineRpc_name (p : Package) (rpc : Rpc) :
    (t.outlineRpc p rpc).field? "name" = some (ofText rpc.name) :=
  Json.field?_ofFields _ _

theorem follow?_property (h : p.scope.Indexed) {record : RecordType} {property : Property}
    {name key : String} (hrecord : p.scope.types.get? name = some record)
    (hproperty : record.properties.get? key = some property) :
    (t.outlinePackage p).follow? (Occurrence.property name key).path =
      some (t.outlineType p property.type) := by
  have htypes : (Json.Step.field "types").follow? (t.outlinePackage p) =
      some (.array (p.scope.types.values.map (t.outlineRecord p))) :=
    Json.Step.follow?_field _ _
  have hproperties : (Json.Step.field "properties").follow? (t.outlineRecord p record) =
      some (.array (record.properties.values.map fun property =>
        ofFields [("name", ofText property.name), ("type", t.outlineType p property.type)])) :=
    Json.Step.follow?_field _ _
  have htype : (Json.Step.field "type").follow?
      (ofFields [("name", ofText property.name), ("type", t.outlineType p property.type)]) =
        some (t.outlineType p property.type) :=
    Json.Step.follow?_field _ _
  rw [Occurrence.path, Json.follow?_cons htypes,
    Json.follow?_cons (Json.Step.follow?_named h.types _ (t.outlineRecord_name p) hrecord),
    Json.follow?_cons hproperties,
    Json.follow?_cons (Json.Step.follow?_named (h.properties hrecord) _
      (fun property => Json.field?_ofFields _ _) hproperty),
    Json.follow?_cons htype, Json.follow?]

theorem follow?_argument (h : p.scope.Indexed) {rpc : Rpc} {name : String}
    (hrpc : p.scope.rpcs.get? name = some rpc) {side : Side} {index : Nat} {type : TypeRef}
    (htype : (rpc.typesOn side)[index]? = some type) :
    (t.outlinePackage p).follow? (Occurrence.argument name side index).path =
      some (t.outlineType p type) := by
  have hrpcs : (Json.Step.field "rpcs").follow? (t.outlinePackage p) =
      some (.array (p.scope.rpcs.values.map (t.outlineRpc p))) :=
    Json.Step.follow?_field _ _
  have hnamed := Json.Step.follow?_named h.rpcs _ (t.outlineRpc_name p) hrpc
  have hside : (Json.Step.field side.word).follow? (t.outlineRpc p rpc) =
      some (.array ((rpc.typesOn side).map (t.outlineType p))) := by
    cases side <;> exact Json.Step.follow?_field _ _
  have hitem : (Json.Step.index index).follow?
      (.array ((rpc.typesOn side).map (t.outlineType p))) = some (t.outlineType p type) := by
    rw [Json.Step.follow?, List.getElem?_map, htype, Option.map_some]
  rw [Occurrence.path, Json.follow?_cons hrpcs, Json.follow?_cons hnamed,
    Json.follow?_cons hside, Json.follow?_cons hitem, Json.follow?]

theorem follow?_outline {t : PackageTree} {m : Mention}
    (hpackage : t.get? m.package.id = some m.package) (h : m.package.scope.Indexed)
    (htype : m.package.scope.typeIn? m.place = some m.type) :
    t.outline.follow? m.path = some (t.outlineType m.package m.type) := by
  have hindex : (Json.Step.index m.package.id).follow? t.outline =
      some (t.outlinePackage m.package) := by
    rw [outline, Json.Step.follow?, List.getElem?_map, ← get?, hpackage, Option.map_some]
  rw [Mention.path, Json.follow?_cons hindex]
  cases hplace : m.place with
  | property name key =>
    rw [hplace] at htype
    obtain ⟨record, hrecord, hkey⟩ := Option.bind_eq_some_iff.mp htype
    obtain ⟨property, hproperty, heq⟩ := Option.map_eq_some_iff.mp hkey
    rw [t.follow?_property h hrecord hproperty, heq]
  | argument name side index =>
    rw [hplace] at htype
    obtain ⟨rpc, hrpc, hget⟩ := Option.bind_eq_some_iff.mp htype
    exact t.follow?_argument h hrpc hget

theorem exists_lawful {sources : List (String × String)} {root : Namespace}
    (h : (compileSources sources).value = .ok root) {config : Config}
    (hp : p ∈ (build config root).value.packages) : ∃ level, p.scope.Lawful level := by
  have hscope : p.scope ∈ root.walk.map Prod.snd := by
    rw [← map_scope_packages config root]
    exact List.mem_map_of_mem hp
  obtain ⟨⟨path, scope⟩, hwalk, heq⟩ := List.mem_map.mp hscope
  obtain ⟨-, hsound, -⟩ := Namespace.shapedFrom_of_compileSources h
  have hpath := (Namespace.mem_walk hsound.wellFormed.orderedChildren).mp hwalk
  exact ⟨path.length, Namespace.Lawful.of_scopeAt? h (heq ▸ hpath)⟩

theorem unresolved_exact {sources : List (String × String)} {root : Namespace}
    (h : (compileSources sources).value = .ok root) {config : Config} {t : PackageTree}
    {events : List Event} (hbuild : build config root = ⟨t, events⟩) :
    ∃ mentions : List Mention, mentions.Pairwise Mention.Precedes ∧
      (∀ m, m ∈ mentions ↔ t.packages[m.package.id]? = some m.package ∧
        m.package.scope.typeIn? m.place = some m.type) ∧
      t.unresolved = (mentions.filter (t.Unknown ·)).map Mention.unresolved ∧
      (events.filter Event.isTypeUnresolved).map (fun event => (event.level, event.message)) =
        (mentions.filter (t.Unknown ·)).map (fun m => (.warn, m.warning)) ∧
      ∃ document, Json.parse? t.outlineText = some document ∧ ∀ m ∈ mentions, ∃ text,
        (document.follow? m.path).bind Json.text? = some text ∧
          text = (t.resolve m.package m.type).text ∧ ('?' ∈ text.toList ↔ t.Unknown m) := by
  obtain rfl : (build config root).value = t := congrArg Logged.value hbuild
  obtain rfl : (build config root).events = events := congrArg Logged.events hbuild
  have hindexed : ∀ p ∈ (build config root).value.packages, p.scope.Indexed := by
    intro p hp
    obtain ⟨level, hlawful⟩ := exists_lawful h hp
    exact hlawful.indexed
  refine ⟨_, pairwise_mentions config root hindexed, fun m => (mem_mentions hindexed).trans ?_,
    unresolved_eq config root, ?_, _, Json.parse?_pretty (textual_outline _), ?_⟩
  · exact and_congr_left fun _ => ⟨get?_id_of_mem, List.mem_of_getElem?⟩
  · rw [warnings_eq, List.map_map]
    rfl
  · intro m hm
    obtain ⟨hp, htype⟩ := (mem_mentions hindexed).mp hm
    have hread := follow?_outline (get?_id_of_mem hp) (hindexed _ hp) htype
    obtain ⟨level, hlawful⟩ := exists_lawful h hp
    obtain ⟨hwords, -⟩ := hlawful.mentions m.type
      (Namespace.mentions_of_typeIn? hlawful.indexed htype)
    refine ⟨_, ?_, rfl, ResolvedType.question_mem_text fun name hname => ?_⟩
    · rw [hread, Option.bind_some, outlineType, Json.text?_ofText]
    · exact (hwords name (Registry.names_resolve_subset _ _ _ hname)).question_not_mem

theorem unresolved_of_two_mentions :
    ∃ (root : Namespace) (mentions : List Mention),
      (compileSources [("s", "type T\x7bU x T y\x7drpc f()list<V>")]).value =
        .ok root ∧
      mentions.Pairwise Mention.Precedes ∧
      (mentions.filter ((build .standard root).value.Unknown ·)).map Mention.unresolved =
        [⟨0, "T.x", "U"⟩, ⟨0, "rpc f", "list<V>"⟩] := by
  have hcompile : (compileSources [("s", "type T\x7bU x T y\x7drpc f()list<V>")]).value =
      .ok (Namespace.root.declareAll [.type "T" [⟨"x", ⟨"U", []⟩⟩, ⟨"y", ⟨"T", []⟩⟩],
        .rpc "f" [] ⟨"list", [⟨"V", []⟩]⟩]) := by decide +kernel
  obtain ⟨mentions, hsorted, -, hunresolved, -⟩ :=
    @unresolved_exact _ _ hcompile .standard _ _ rfl
  exact ⟨_, mentions, hcompile, hsorted, hunresolved.symm.trans rfl⟩

end PackageTree

end InterfaceSchema
