import InterfaceSchema.Schema.Encoding
import InterfaceSchema.Proofs.Json.RoundTrip
import InterfaceSchema.Proofs.Schema.Merge

namespace InterfaceSchema

theorem NameMap.Ordered.ofList_entries {α : Type} {m : NameMap α} (h : m.Ordered) :
    NameMap.ofList m.entries = m := by
  refine (NameMap.ordered_empty.insertAll m.entries).ext h fun key => ?_
  rw [h.get?_insertAll, NameMap.get?_empty, Option.or_none]

namespace Json

variable {α : Type} {depth : Nat}

theorem depthOfItems_le_iff {items : List Json} :
    depthOfItems items ≤ depth ↔ ∀ item ∈ items, item.depth ≤ depth := by
  induction items with
  | nil => simp [depthOfItems]
  | cons item items ih => simp [depthOfItems, ih]

theorem depthOfFields_le_iff {fields : List (String × Json)} :
    depthOfFields fields ≤ depth ↔ ∀ field ∈ fields, field.2.depth ≤ depth := by
  induction fields with
  | nil => simp [depthOfFields]
  | cons field fields ih => simp [depthOfFields, ih]

theorem depth_array_le_iff {items : List Json} :
    (Json.array items).depth ≤ depth + 1 ↔ ∀ item ∈ items, item.depth ≤ depth := by
  rw [Json.depth, Nat.add_comm, Nat.add_le_add_iff_right, depthOfItems_le_iff]

theorem depth_ofFields_le_iff {fields : List (String × Json)} :
    (ofFields fields).depth ≤ depth + 1 ↔ ∀ field ∈ fields, field.2.depth ≤ depth := by
  rw [ofFields, Json.depth, Nat.add_comm, Nat.add_le_add_iff_right, depthOfFields_le_iff,
    List.forall_mem_map]

theorem depth_ofFields_pos (fields : List (String × Json)) : 0 < (ofFields fields).depth := by
  rw [ofFields, Json.depth, Nat.add_comm]
  exact Nat.succ_pos _

def ReadsWithin (depth : Nat) (encode : α → Json) (item? : Json → Option α) (x : α) : Prop :=
  item? (encode x) = if (encode x).depth ≤ depth then some x else none

def Recovers (decode? : Nat → Json → Option α) (encode : α → Json) (x : α) : Prop :=
  ∀ depth, ReadsWithin depth encode (decode? depth) x

theorem readsWithin_zero {encode : α → Json} {x : α} (h : 0 < (encode x).depth) :
    ReadsWithin 0 encode (fun _ => none) x :=
  (if_neg (Nat.not_le.mpr h)).symm

theorem depth_ofText (s : String) : (ofText s).depth = 0 :=
  rfl

theorem readsWithin_text (depth : Nat) (s : String) : ReadsWithin depth ofText text? s := by
  have hdepth : (ofText s).depth ≤ depth := Nat.zero_le depth
  rw [ReadsWithin, text?_ofText, if_pos hdepth]

theorem record?_ofFields {fields : List (String × Json)} (h : (fields.map Prod.fst).Nodup) :
    record? (fields.map Prod.fst) (ofFields fields) =
      some (fields.map fun field => some field.2) := by
  have honce : ((fields.map Prod.fst).all fun name => fields.countP (·.1 == name) ≤ 1) = true := by
    refine List.all_eq_true.mpr fun name _ => decide_eq_true ?_
    have hcount := List.nodup_iff_count_le_one.mp h name
    rwa [List.count, List.countP_map] at hcount
  rw [ofFields, record?, namedFields?_ofFields]
  simp only [honce, if_true, List.map_map]
  exact congrArg some (List.map_congr_left fun field hfield => List.lookup_of_mem h hfield)

theorem listField?_array {items : List α} {encode : α → Json} {item? : Json → Option α}
    (h : ∀ item ∈ items, ReadsWithin (depth - 1) encode item? item) :
    listField? depth item? (some (.array (items.map encode))) =
      if (Json.array (items.map encode)).depth ≤ depth then some items else none := by
  cases depth with
  | zero => simp [listField?, Json.depth]
  | succ depth =>
    rw [listField?, if_neg (Nat.succ_ne_zero depth), List.mapM_eq_ite h]
    simp only [depth_array_le_iff, List.forall_mem_map, List.map_id']
    rfl

theorem mapField?_ofFields (depth : Nat) (item? : Json → Option α)
    (fields : List (String × Json)) :
    mapField? (depth + 1) item? (some (ofFields fields)) =
      (fields.mapM fun field => (item? field.2).map fun value => (field.1, value)).map
        NameMap.ofList := by
  simp [mapField?, ofFields, namedFields?_ofFields]

theorem mapField?_encode {m : NameMap α} (hm : m.Ordered) {encode : α → Json}
    {item? : Json → Option α}
    (h : ∀ value ∈ m.values, ReadsWithin (depth - 1) encode item? value) :
    mapField? depth item? (some (m.encode encode)) =
      if (m.encode encode).depth ≤ depth then some m else none := by
  cases depth with
  | zero => simp [mapField?, NameMap.encode, ofFields, Json.depth]
  | succ depth =>
    have hentries : ∀ entry ∈ m.entries,
        (item? (encode entry.2)).map (fun value => (entry.1, value)) =
          if (encode entry.2).depth ≤ depth then some (id entry) else none := by
      intro entry hentry
      have hread : ReadsWithin depth encode item? entry.2 := h _ (List.mem_map_of_mem hentry)
      rw [hread]
      split <;> rfl
    rw [NameMap.encode, mapField?_ofFields, List.mapM_eq_ite hentries, List.map_id]
    simp only [depth_ofFields_le_iff, List.forall_mem_map]
    split
    · exact congrArg some hm.ofList_entries
    · rfl

theorem record?_named {key : String} (hkey : key ≠ "name") (name : String) (document : Json) :
    record? ["name", key] (ofFields [("name", ofText name), (key, document)]) =
      some [some (ofText name), some document] :=
  @record?_ofFields [("name", ofText name), (key, document)] (by simpa using hkey.symm)

theorem readsWithin_named {β : Type} {key name : String} (hkey : key ≠ "name")
    {field? : Option Json → Option β} {make : String → β → α} {encode : α → Json} {value : β}
    {document : Json}
    (hencode : encode (make name value) = ofFields [("name", ofText name), (key, document)])
    (hfield : field? (some document) = if document.depth ≤ depth then some value else none) :
    ReadsWithin (depth + 1) encode (named? key field? make) (make name value) := by
  rw [ReadsWithin, hencode, named?, record?_named hkey]
  simp only [text?_ofText, hfield, depth_ofFields_le_iff]
  by_cases hdepth : document.depth ≤ depth <;> simp [hdepth, depth_ofText]

end Json

open Json

namespace TypeRef

theorem encodeAll_eq_map (types : List TypeRef) : encodeAll types = types.map encode := by
  induction types with
  | nil => rfl
  | cons type types ih => rw [encodeAll, List.map_cons, ih]

theorem encode_eq (name : String) (arguments : List TypeRef) :
    encode ⟨name, arguments⟩ =
      ofFields [("name", ofText name), ("arguments", .array (arguments.map encode))] := by
  rw [encode, encodeAll_eq_map]

theorem depth_encode_pos (type : TypeRef) : 0 < type.encode.depth := by
  obtain ⟨name, arguments⟩ := type
  rw [encode_eq]
  exact depth_ofFields_pos _

theorem recovers (type : TypeRef) : Recovers decode? encode type := by
  intro depth
  induction depth using Nat.strongRecOn generalizing type with
  | ind depth ih =>
    obtain ⟨name, arguments⟩ := type
    match depth with
    | 0 => exact readsWithin_zero (depth_encode_pos _)
    | 1 =>
      refine readsWithin_named (by decide) (encode_eq name arguments) (listField?_array ?_)
      exact fun argument _ => readsWithin_zero argument.depth_encode_pos
    | depth + 2 =>
      refine readsWithin_named (by decide) (encode_eq name arguments) (listField?_array ?_)
      exact fun argument _ => ih depth (by omega) argument

end TypeRef

theorem Property.recovers (property : Property) : Recovers decode? encode property := by
  intro depth
  cases depth with
  | zero => exact readsWithin_zero (depth_ofFields_pos _)
  | succ depth => exact readsWithin_named (by decide) rfl (property.type.recovers depth)

theorem RecordType.recovers {type : RecordType} (h : type.properties.Ordered) :
    Recovers decode? encode type := by
  intro depth
  cases depth with
  | zero => exact readsWithin_zero (depth_ofFields_pos _)
  | succ depth =>
    refine readsWithin_named (by decide) rfl (mapField?_encode h ?_)
    exact fun property _ => property.recovers (depth - 1)

theorem EnumType.recovers (enum : EnumType) : Recovers decode? encode enum := by
  intro depth
  cases depth with
  | zero => exact readsWithin_zero (depth_ofFields_pos _)
  | succ depth =>
    refine readsWithin_named (by decide) rfl (listField?_array ?_)
    exact fun member _ => readsWithin_text (depth - 1) member

theorem Rpc.recovers (rpc : Rpc) : Recovers decode? encode rpc := by
  intro depth
  cases depth with
  | zero => exact readsWithin_zero (depth_ofFields_pos _)
  | succ depth =>
    have hrecord := @record?_ofFields
      [("name", ofText rpc.name), ("input", .array (rpc.input.map TypeRef.encode)),
       ("output", .array (rpc.output.map TypeRef.encode))] (by simp)
    have htypes (types : List TypeRef) := @listField?_array _ depth types _ _ fun type _ =>
      type.recovers (depth - 1)
    simp only [List.map_cons, List.map_nil] at hrecord
    rw [ReadsWithin, encode, decode?, TypeRef.encodeAll_eq_map, TypeRef.encodeAll_eq_map, hrecord]
    simp only [text?_ofText, htypes, depth_ofFields_le_iff]
    by_cases hinput : (Json.array (rpc.input.map TypeRef.encode)).depth ≤ depth <;>
      by_cases houtput : (Json.array (rpc.output.map TypeRef.encode)).depth ≤ depth <;>
      simp [hinput, houtput, depth_ofText]

namespace Namespace

structure Ordered (ns : Namespace) : Prop where
  children : ns.children.Ordered
  options : ns.options.Ordered
  types : ns.types.Ordered
  properties : ∀ type ∈ ns.types.values, type.properties.Ordered
  enums : ns.enums.Ordered
  rpcs : ns.rpcs.Ordered

-- Only entries in order make a map, so this holds of every namespace that is built from maps.
def OrderedThroughout (ns : Namespace) : Prop :=
  ns.Everywhere Ordered

theorem OrderedThroughout.child {ns child : Namespace} (h : ns.OrderedThroughout)
    (hchild : child ∈ ns.children.values) : child.OrderedThroughout := by
  obtain ⟨entry, hentry, rfl⟩ := List.mem_map.mp hchild
  exact Everywhere.child h (h.here.children.get?_eq_some_iff.mpr hentry)

theorem encodeEntries_eq_map (entries : List (String × Namespace)) :
    encodeEntries entries = entries.map fun entry => (entry.1, encode entry.2) := by
  induction entries with
  | nil => rfl
  | cons entry entries ih => rw [encodeEntries, List.map_cons, ih]

theorem encode_eq (ns : Namespace) :
    ns.encode = ofFields
      [("name", ofText ns.name), ("children", ns.children.encode encode),
       ("options", ns.options.encode ofText), ("types", ns.types.encode RecordType.encode),
       ("enums", ns.enums.encode EnumType.encode), ("rpcs", ns.rpcs.encode Rpc.encode)] := by
  cases ns
  rw [encode, encodeEntries_eq_map]
  rfl

theorem depth_encode_pos (ns : Namespace) : 0 < ns.encode.depth := by
  rw [encode_eq]
  exact depth_ofFields_pos _

theorem readsWithin_decodeRecord? {depth : Nat} {child? : Json → Option Namespace}
    {ns : Namespace} (h : ns.Ordered)
    (hchild : ∀ child ∈ ns.children.values, ReadsWithin (depth - 1) encode child? child) :
    ReadsWithin (depth + 1) encode (decodeRecord? depth child?) ns := by
  have hrecord := @record?_ofFields
    [("name", ofText ns.name), ("children", ns.children.encode encode),
     ("options", ns.options.encode ofText), ("types", ns.types.encode RecordType.encode),
     ("enums", ns.enums.encode EnumType.encode), ("rpcs", ns.rpcs.encode Rpc.encode)]
    (by simp)
  have hchildren := mapField?_encode h.children hchild
  have hoptions := @mapField?_encode _ depth _ h.options _ _ fun value _ =>
    readsWithin_text (depth - 1) value
  have htypes := @mapField?_encode _ depth _ h.types _ _ fun type htype =>
    RecordType.recovers (h.properties type htype) (depth - 1)
  have henums := @mapField?_encode _ depth _ h.enums _ _ fun enum _ =>
    enum.recovers (depth - 1)
  have hrpcs := @mapField?_encode _ depth _ h.rpcs _ _ fun rpc _ => rpc.recovers (depth - 1)
  simp only [List.map_cons, List.map_nil] at hrecord
  rw [ReadsWithin, encode_eq, decodeRecord?, fieldNames, hrecord]
  simp only [text?_ofText, hchildren, hoptions, htypes, henums, hrpcs, depth_ofFields_le_iff]
  obtain ⟨name, children, options, types, enums, rpcs⟩ := ns
  by_cases h₁ : (children.encode encode).depth ≤ depth
  case neg => simp [h₁]
  by_cases h₂ : (options.encode ofText).depth ≤ depth
  case neg => simp [h₁, h₂]
  by_cases h₃ : (types.encode RecordType.encode).depth ≤ depth
  case neg => simp [h₁, h₂, h₃]
  by_cases h₄ : (enums.encode EnumType.encode).depth ≤ depth
  case neg => simp [h₁, h₂, h₃, h₄]
  by_cases h₅ : (rpcs.encode Rpc.encode).depth ≤ depth
  case neg => simp [h₁, h₂, h₃, h₄, h₅]
  simp [h₁, h₂, h₃, h₄, h₅, depth_ofText]

theorem recovers {ns : Namespace} (h : ns.OrderedThroughout) : Recovers decode? encode ns := by
  intro depth
  induction depth using Nat.strongRecOn generalizing ns with
  | ind depth ih =>
    match depth with
    | 0 => exact readsWithin_zero ns.depth_encode_pos
    | 1 =>
      refine readsWithin_decodeRecord? h.here ?_
      exact fun child _ => readsWithin_zero child.depth_encode_pos
    | depth + 2 =>
      refine readsWithin_decodeRecord? h.here ?_
      exact fun child hchild => ih depth (by omega) (h.child hchild)

end Namespace

theorem NameMap.textual_encode {α : Type} {item : α → Json} {m : NameMap α}
    (h : ∀ value ∈ m.values, (item value).Textual) : (m.encode item).Textual :=
  .fields (List.forall_mem_map.mpr fun entry hentry => h entry.2 (List.mem_map_of_mem hentry))

mutual

theorem TypeRef.textual_encode : ∀ type : TypeRef, type.encode.Textual
  | ⟨name, arguments⟩ => by
    rw [TypeRef.encode]
    refine .fields (List.forall_mem_cons.mpr ⟨.text name, List.forall_mem_singleton.mpr ?_⟩)
    exact .array (TypeRef.textual_encodeAll arguments)

theorem TypeRef.textual_encodeAll : ∀ types : List TypeRef,
    ∀ document ∈ TypeRef.encodeAll types, document.Textual
  | [] => fun _ hdocument => by cases hdocument
  | type :: types => by
    rw [TypeRef.encodeAll]
    exact List.forall_mem_cons.mpr ⟨type.textual_encode, TypeRef.textual_encodeAll types⟩

end

theorem Property.textual_encode (property : Property) : property.encode.Textual := by
  apply Textual.fields
  simpa using ⟨.text property.name, property.type.textual_encode⟩

theorem RecordType.textual_encode (type : RecordType) : type.encode.Textual := by
  apply Textual.fields
  simpa using ⟨.text type.name,
    NameMap.textual_encode fun property _ => Property.textual_encode property⟩

theorem EnumType.textual_encode (enum : EnumType) : enum.encode.Textual := by
  apply Textual.fields
  simpa using ⟨.text enum.name, textual_ofTexts enum.members⟩

theorem Rpc.textual_encode (rpc : Rpc) : rpc.encode.Textual := by
  apply Textual.fields
  simpa using ⟨.text rpc.name, .array (TypeRef.textual_encodeAll rpc.input),
    .array (TypeRef.textual_encodeAll rpc.output)⟩

namespace Namespace

mutual

theorem textual_encode : ∀ ns : Namespace, ns.encode.Textual
  | ⟨name, ⟨children⟩, options, types, enums, rpcs⟩ => by
    rw [encode]
    apply Textual.fields
    simpa using ⟨.text name, .fields (textual_encodeEntries children),
      NameMap.textual_encode fun value _ => .text value,
      NameMap.textual_encode fun type _ => type.textual_encode,
      NameMap.textual_encode fun enum _ => enum.textual_encode,
      NameMap.textual_encode fun rpc _ => rpc.textual_encode⟩

theorem textual_encodeEntries : ∀ entries : List (String × Namespace),
    ∀ field ∈ encodeEntries entries, field.2.Textual
  | [] => fun _ hfield => by cases hfield
  | (key, child) :: entries => by
    rw [encodeEntries]
    exact List.forall_mem_cons.mpr ⟨textual_encode child, textual_encodeEntries entries⟩

end

theorem ofText?_toText {ns : Namespace} (h : ns.OrderedThroughout) :
    ofText? ns.toText = if ns.encode.depth ≤ Json.depthLimit then some ns else none := by
  rw [ofText?, toText, parse?_pretty ns.textual_encode, Option.bind_some]
  exact recovers h Json.depthLimit

theorem round_trip_of_foreign_keys :
    ∃ ns : Namespace, ns.OrderedThroughout ∧ ns.encode.depth = 8 ∧
      ns.children.entries.map (fun entry => (entry.1, entry.2.name)) = [("", "\"\n")] ∧
      ns.rpcs.values.map Rpc.output = [[]] ∧ ns.enums.values.map EnumType.members = [["x", "x"]] ∧
      ofText? ns.toText = some ns := by
  have hsingle {α : Type} (key : String) (value : α) : (NameMap.mk [(key, value)]).Ordered :=
    List.pairwise_singleton _ _
  have hempty {α : Type} : (NameMap.empty : NameMap α).Ordered := NameMap.ordered_empty
  have hnone : ∀ type ∈ (NameMap.empty : NameMap RecordType).values, type.properties.Ordered :=
    fun _ htype => by cases htype
  have hchild : OrderedThroughout ⟨"\"\n", .empty, ⟨[("k", "\\")]⟩, .empty, .empty, .empty⟩ :=
    .intro ⟨hempty, hsingle _ _, hempty, hnone, hempty, hempty⟩ (fun hget => by cases hget)
  have hroot : OrderedThroughout
      ⟨"", ⟨[("", ⟨"\"\n", .empty, ⟨[("k", "\\")]⟩, .empty, .empty, .empty⟩)]⟩, .empty, .empty,
        ⟨[("E", ⟨"F", ["x", "x"]⟩)]⟩, ⟨[("f", ⟨"g", [⟨"list", [⟨"T", []⟩]⟩], []⟩)]⟩⟩ :=
    .intro ⟨hsingle _ _, hempty, hempty, hnone, hsingle _ _, hsingle _ _⟩
      (fun hget => NameMap.get?_insert_empty hget ▸ hchild)
  refine ⟨_, hroot, rfl, rfl, rfl, rfl, ?_⟩
  rw [ofText?_toText hroot]
  exact if_pos (by decide)

end Namespace

end InterfaceSchema
