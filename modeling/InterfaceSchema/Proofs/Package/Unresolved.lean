import InterfaceSchema.Proofs.Package.Preorder
import InterfaceSchema.Proofs.Package.References
import InterfaceSchema.Proofs.Package.Registry
import InterfaceSchema.Proofs.Schema.Merge

namespace InterfaceSchema

inductive Side where
  | input
  | output
  deriving DecidableEq, Repr

inductive Occurrence where
  | property (type name : String)
  | argument (rpc : String) (side : Side) (index : Nat)
  deriving DecidableEq, Repr

namespace Occurrence

def declaration : Occurrence → String
  | property type name => type ++ "." ++ name
  | argument rpc _ _ => "rpc " ++ rpc

-- Properties come first, by type and name; then procedures, by name and with inputs before outputs.
inductive Before : Occurrence → Occurrence → Prop
  | type {a b x y : String} : a < b → Before (.property a x) (.property b y)
  | property {a x y : String} : x < y → Before (.property a x) (.property a y)
  | kind {a x f : String} {s : Side} {i : Nat} : Before (.property a x) (.argument f s i)
  | rpc {f g : String} {s t : Side} {i j : Nat} : f < g → Before (.argument f s i) (.argument g t j)
  | side {f : String} {i j : Nat} : Before (.argument f .input i) (.argument f .output j)
  | index {f : String} {s : Side} {i j : Nat} :
      i < j → Before (.argument f s i) (.argument f s j)

end Occurrence

def Rpc.typesOn (rpc : Rpc) : Side → List TypeRef
  | .input => rpc.input
  | .output => rpc.output

def RecordType.occurrences (type : RecordType) : List (Occurrence × TypeRef) :=
  type.properties.values.map fun property => (.property type.name property.name, property.type)

def Rpc.occurrencesOn (rpc : Rpc) (side : Side) : List (Occurrence × TypeRef) :=
  (rpc.typesOn side).zipIdx.map fun x => (.argument rpc.name side x.2, x.1)

def Rpc.occurrences (rpc : Rpc) : List (Occurrence × TypeRef) :=
  rpc.occurrencesOn .input ++ rpc.occurrencesOn .output

theorem RecordType.mem_occurrences {type : RecordType} (h : type.properties.Indexed Property.name)
    {place : Occurrence} {mentioned : TypeRef} :
    (place, mentioned) ∈ type.occurrences ↔ ∃ name property, place = .property type.name name ∧
      type.properties.get? name = some property ∧ property.type = mentioned := by
  rw [occurrences, List.mem_map]
  constructor
  · rintro ⟨property, hproperty, hplace⟩
    obtain ⟨rfl, rfl⟩ := Prod.mk.inj hplace
    exact ⟨property.name, property, rfl, h.get?_name hproperty, rfl⟩
  · rintro ⟨name, property, rfl, hget, rfl⟩
    obtain ⟨hproperty, rfl⟩ := h.get?_eq_some_iff.mp hget
    exact ⟨property, hproperty, rfl⟩

theorem RecordType.pairwise_occurrences {type : RecordType}
    (h : type.properties.Indexed Property.name) :
    type.occurrences.Pairwise fun x y => x.1.Before y.1 :=
  List.pairwise_map.mpr (h.pairwise_values.imp .property)

theorem Rpc.mem_occurrencesOn {rpc : Rpc} {side : Side} {place : Occurrence} {type : TypeRef} :
    (place, type) ∈ rpc.occurrencesOn side ↔
      ∃ index, place = .argument rpc.name side index ∧ (rpc.typesOn side)[index]? = some type := by
  rw [occurrencesOn, List.mem_map]
  constructor
  · rintro ⟨⟨type, index⟩, hmem, hplace⟩
    obtain ⟨rfl, rfl⟩ := Prod.mk.inj hplace
    exact ⟨index, rfl, List.mem_zipIdx_iff_getElem?.mp hmem⟩
  · rintro ⟨index, rfl, hget⟩
    exact ⟨(type, index), List.mem_zipIdx_iff_getElem?.mpr hget, rfl⟩

theorem Rpc.pairwise_occurrencesOn (rpc : Rpc) (side : Side) :
    (rpc.occurrencesOn side).Pairwise fun x y => x.1.Before y.1 := by
  have hindex : (rpc.typesOn side).zipIdx.Pairwise fun x y => x.2 < y.2 := by
    rw [← List.pairwise_map, List.zipIdx_map_snd]
    exact List.pairwise_lt_range'
  exact List.pairwise_map.mpr (hindex.imp .index)

theorem Rpc.map_occurrencesOn (rpc : Rpc) (side : Side) :
    ((rpc.occurrencesOn side).map fun x => Reference.mk x.1.declaration x.2) =
      (rpc.typesOn side).map (Reference.mk ("rpc " ++ rpc.name)) := by
  rw [occurrencesOn, List.map_map]
  conv_rhs => rw [← List.zipIdx_map_fst 0 (rpc.typesOn side), List.map_map]
  rfl

theorem Rpc.mem_occurrences {rpc : Rpc} {place : Occurrence} {type : TypeRef} :
    (place, type) ∈ rpc.occurrences ↔ ∃ side index, place = .argument rpc.name side index ∧
      (rpc.typesOn side)[index]? = some type := by
  rw [occurrences, List.mem_append, mem_occurrencesOn, mem_occurrencesOn]
  constructor
  · rintro (h | h)
    · exact ⟨.input, h⟩
    · exact ⟨.output, h⟩
  · rintro ⟨_ | _, h⟩
    · exact .inl h
    · exact .inr h

theorem Rpc.pairwise_occurrences (rpc : Rpc) :
    rpc.occurrences.Pairwise fun x y => x.1.Before y.1 := by
  refine List.pairwise_append.mpr
    ⟨rpc.pairwise_occurrencesOn .input, rpc.pairwise_occurrencesOn .output, ?_⟩
  rintro ⟨place, type⟩ h ⟨other, type'⟩ h'
  obtain ⟨i, rfl, -⟩ := mem_occurrencesOn.mp h
  obtain ⟨j, rfl, -⟩ := mem_occurrencesOn.mp h'
  exact .side

namespace Namespace

def typeIn? (ns : Namespace) : Occurrence → Option TypeRef
  | .property type name =>
      (ns.types.get? type).bind fun record => (record.properties.get? name).map Property.type
  | .argument rpc side index => (ns.rpcs.get? rpc).bind fun rpc => (rpc.typesOn side)[index]?

def occurrences (ns : Namespace) : List (Occurrence × TypeRef) :=
  ns.types.values.flatMap RecordType.occurrences ++ ns.rpcs.values.flatMap Rpc.occurrences

theorem references_eq (ns : Namespace) :
    ns.references = ns.occurrences.map fun x => ⟨x.1.declaration, x.2⟩ := by
  have hrpc (rpc : Rpc) : rpc.types.map (Reference.mk ("rpc " ++ rpc.name)) =
      rpc.occurrences.map fun x => ⟨x.1.declaration, x.2⟩ := by
    rw [Rpc.occurrences, List.map_append, Rpc.map_occurrencesOn, Rpc.map_occurrencesOn,
      ← List.map_append]
    rfl
  rw [occurrences, List.map_append, List.map_flatMap, List.map_flatMap, references]
  simp only [RecordType.occurrences, List.map_map, ← hrpc]
  rfl

variable {ns : Namespace}

theorem mem_occurrences (h : ns.Indexed) {place : Occurrence} {type : TypeRef} :
    (place, type) ∈ ns.occurrences ↔ ns.typeIn? place = some type := by
  rw [occurrences, List.mem_append, List.mem_flatMap, List.mem_flatMap]
  constructor
  · rintro (⟨record, hrecord, hplace⟩ | ⟨rpc, hrpc, hplace⟩)
    · have hget := h.types.get?_name hrecord
      obtain ⟨name, property, rfl, hproperty, rfl⟩ :=
        (RecordType.mem_occurrences (h.properties hget)).mp hplace
      rw [typeIn?, hget, Option.bind_some, hproperty, Option.map_some]
    · obtain ⟨side, index, rfl, htype⟩ := Rpc.mem_occurrences.mp hplace
      rw [typeIn?, h.rpcs.get?_name hrpc, Option.bind_some, htype]
  · intro htype
    cases place with
    | property record name =>
      obtain ⟨record, hget, hname⟩ := Option.bind_eq_some_iff.mp htype
      obtain ⟨property, hproperty, rfl⟩ := Option.map_eq_some_iff.mp hname
      obtain ⟨hrecord, rfl⟩ := h.types.get?_eq_some_iff.mp hget
      exact .inl ⟨record, hrecord, (RecordType.mem_occurrences (h.properties hget)).mpr
        ⟨name, property, rfl, hproperty, rfl⟩⟩
    | argument rpc side index =>
      obtain ⟨rpc, hget, hindex⟩ := Option.bind_eq_some_iff.mp htype
      obtain ⟨hrpc, rfl⟩ := h.rpcs.get?_eq_some_iff.mp hget
      exact .inr ⟨rpc, hrpc, Rpc.mem_occurrences.mpr ⟨side, index, rfl, hindex⟩⟩

theorem mentions_of_typeIn? (h : ns.Indexed) {place : Occurrence} {type : TypeRef}
    (htype : ns.typeIn? place = some type) : ns.Mentions type := by
  refine mentions_iff.mpr ⟨⟨place.declaration, type⟩, ?_, rfl⟩
  rw [references_eq]
  exact List.mem_map.mpr ⟨_, (mem_occurrences h).mpr htype, rfl⟩

theorem pairwise_occurrences (h : ns.Indexed) :
    ns.occurrences.Pairwise fun x y => x.1.Before y.1 := by
  refine List.pairwise_append.mpr ⟨List.pairwise_flatMap.mpr ⟨?_, ?_⟩,
    List.pairwise_flatMap.mpr ⟨fun rpc _ => rpc.pairwise_occurrences, ?_⟩, ?_⟩
  · exact fun record hrecord =>
      RecordType.pairwise_occurrences (h.properties (h.types.get?_name hrecord))
  · refine h.types.pairwise_values.imp fun {a b} hab x hx y hy => ?_
    obtain ⟨p, -, rfl⟩ := List.mem_map.mp hx
    obtain ⟨q, -, rfl⟩ := List.mem_map.mp hy
    exact .type hab
  · refine h.rpcs.pairwise_values.imp fun {a b} hab x hx y hy => ?_
    obtain ⟨side, i, hplace, -⟩ := Rpc.mem_occurrences.mp hx
    obtain ⟨side', j, hplace', -⟩ := Rpc.mem_occurrences.mp hy
    rw [hplace, hplace']
    exact .rpc hab
  · intro x hx y hy
    obtain ⟨record, -, hx⟩ := List.mem_flatMap.mp hx
    obtain ⟨p, -, rfl⟩ := List.mem_map.mp hx
    obtain ⟨rpc, -, hy⟩ := List.mem_flatMap.mp hy
    obtain ⟨side, j, hplace, -⟩ := Rpc.mem_occurrences.mp hy
    rw [hplace]
    exact .kind

end Namespace

structure Mention where
  package : Package
  place : Occurrence
  type : TypeRef

namespace Mention

def reference (m : Mention) : Reference :=
  ⟨m.place.declaration, m.type⟩

def unresolved (m : Mention) : Unresolved :=
  ⟨m.package.id, m.place.declaration, m.type.text⟩

def warning (m : Mention) : String :=
  "package `" ++ m.package.name ++ "`: cannot resolve type `" ++ m.type.text ++ "` in " ++
    m.place.declaration

def Precedes (m n : Mention) : Prop :=
  m.package.id < n.package.id ∨ m.package.id = n.package.id ∧ m.place.Before n.place

end Mention

instance ResolvedType.decidableUnknownPartOf (r : ResolvedType) : Decidable (unknown.PartOf r) :=
  decidable_of_iff (¬ r.isKnown = true) (by rw [isKnown_iff, not_not])

def Package.mentions (p : Package) : List Mention :=
  p.scope.occurrences.map fun x => ⟨p, x.1, x.2⟩

def Event.isTypeUnresolved : Event → Bool
  | typeUnresolved .. => true
  | _ => false

theorem Package.isTypeUnresolved_of_mem_layout {config : Config} {parent : Option Package}
    {id : PackageId} {n : Nat} {ns : Namespace} {event : Event}
    (h : event ∈ (layout config parent id n ns).events) :
    event.isTypeUnresolved = false := by
  induction ns using Namespace.induction generalizing parent id n event with
  | step ns ih =>
    rw [events_layout, List.mem_append, List.mem_append] at h
    rcases h with (h | h) | h
    · rcases Registry.mem_events_declare h with ⟨kind, name, rfl⟩ | ⟨name, rfl⟩
      all_goals rfl
    · rw [(layoutChildren_eq_flatMap config _ _ _ _).2.2] at h
      obtain ⟨l, hl, hevent⟩ := List.mem_flatMap.mp h
      obtain ⟨entry, hentry, id, m, -, rfl⟩ := exists_of_mem_layouts hl
      exact ih entry.2 (List.mem_map_of_mem hentry) hevent
    · obtain ⟨p, -, rfl⟩ := exists_of_mem_sharedPaths h
      rfl

namespace PackageTree

variable {t : PackageTree} {m : Mention}

def mentions (t : PackageTree) : List Mention :=
  t.packages.flatMap Package.mentions

def Unknown (t : PackageTree) (m : Mention) : Prop :=
  ResolvedType.unknown.PartOf (t.resolve m.package m.type)

instance (t : PackageTree) : DecidablePred t.Unknown :=
  fun m => (t.resolve m.package m.type).decidableUnknownPartOf

theorem mem_mentions (h : ∀ p ∈ t.packages, p.scope.Indexed) :
    m ∈ t.mentions ↔
      m.package ∈ t.packages ∧ m.package.scope.typeIn? m.place = some m.type := by
  rw [mentions, List.mem_flatMap]
  constructor
  · rintro ⟨p, hp, hm⟩
    obtain ⟨x, hx, rfl⟩ := List.mem_map.mp hm
    exact ⟨hp, (Namespace.mem_occurrences (h p hp)).mp hx⟩
  · rintro ⟨hp, htype⟩
    exact ⟨m.package, hp, List.mem_map.mpr
      ⟨_, (Namespace.mem_occurrences (h m.package hp)).mpr htype, rfl⟩⟩

theorem pairwise_mentions (config : Config) (root : Namespace)
    (h : ∀ p ∈ (build config root).value.packages, p.scope.Indexed) :
    (build config root).value.mentions.Pairwise Mention.Precedes := by
  refine List.pairwise_flatMap.mpr ⟨fun p hp => ?_, ?_⟩
  · refine List.pairwise_map.mpr ((Namespace.pairwise_occurrences (h p hp)).imp ?_)
    exact fun hbefore => .inr ⟨rfl, hbefore⟩
  · have hids : (build config root).value.packages.Pairwise fun p q => p.id < q.id := by
      rw [← List.pairwise_map, map_id_packages]
      exact List.pairwise_lt_range
    refine hids.imp fun hlt m hm n hn => ?_
    obtain ⟨x, -, rfl⟩ := List.mem_map.mp hm
    obtain ⟨y, -, rfl⟩ := List.mem_map.mp hn
    exact .inl hlt

theorem unknownReferences_eq (t : PackageTree) (p : Package) :
    p.unknownReferences t.registry =
      (p.mentions.filter (t.Unknown ·)).map Mention.reference := by
  rw [Package.unknownReferences, Namespace.references_eq, Package.mentions, List.filter_map,
    List.filter_map, List.map_map]
  refine congrArg (List.map _) (List.filter_congr fun x _ => ?_)
  change (!(t.resolve p x.2).isKnown) = decide (ResolvedType.unknown.PartOf (t.resolve p x.2))
  rw [Bool.eq_iff_iff, Bool.not_eq_true', decide_eq_true_iff, ← Bool.not_eq_true,
    ResolvedType.isKnown_iff, not_not]

-- The unresolved references and the warnings differ in what they make of an unknown mention.
theorem flatMap_unknownReferences {α : Type} (t : PackageTree) (f : Package → Reference → α) :
    (t.packages.flatMap fun p => (p.unknownReferences t.registry).map (f p)) =
      (t.mentions.filter (t.Unknown ·)).map fun m => f m.package m.reference := by
  rw [mentions, List.filter_flatMap, List.map_flatMap]
  refine List.flatMap_congr fun p _ => ?_
  rw [unknownReferences_eq, List.map_map]
  refine List.map_congr_left fun m hm => ?_
  obtain ⟨x, -, rfl⟩ := List.mem_map.mp (List.mem_filter.mp hm).1
  rfl

theorem unresolved_eq (config : Config) (root : Namespace) :
    (build config root).value.unresolved =
      ((build config root).value.mentions.filter ((build config root).value.Unknown ·)).map
        Mention.unresolved := by
  have hmentions := flatMap_unknownReferences (build config root).value fun p reference =>
    Unresolved.mk p.id reference.declaration reference.type.text
  rw [packages_build, List.flatMap_map] at hmentions
  exact hmentions

theorem warnings_eq (config : Config) (root : Namespace) :
    (build config root).events.filter Event.isTypeUnresolved =
      ((build config root).value.mentions.filter ((build config root).value.Unknown ·)).map
        fun m => .typeUnresolved m.package.name m.type.text m.place.declaration := by
  have hmentions := flatMap_unknownReferences (build config root).value fun p reference =>
    Event.typeUnresolved p.name reference.type.text reference.declaration
  rw [packages_build, List.flatMap_map] at hmentions
  have hlaid : (Package.layout config none 0 1 root).events.filter Event.isTypeUnresolved = [] :=
    List.filter_eq_nil_iff.mpr fun event hevent =>
      Bool.not_eq_true _ ▸ Package.isTypeUnresolved_of_mem_layout hevent
  have hwarnings (registry : Registry) (packages : List Package) :
      (packages.flatMap (Package.unresolvedEvents registry)).filter Event.isTypeUnresolved =
        packages.flatMap (Package.unresolvedEvents registry) := by
    refine List.filter_eq_self.mpr fun event hevent => ?_
    obtain ⟨p, -, hp⟩ := List.mem_flatMap.mp hevent
    obtain ⟨reference, -, rfl⟩ := List.mem_map.mp hp
    rfl
  rw [build]
  simp only [List.filter_append, hlaid, hwarnings, List.nil_append]
  rw [List.filter_cons_of_neg Bool.false_ne_true, List.filter_nil, List.append_nil]
  exact hmentions

end PackageTree

end InterfaceSchema
