import InterfaceSchema.Package.Tree
import Mathlib.Data.List.Basic

namespace InterfaceSchema

namespace Namespace

def Mentions (ns : Namespace) (type : TypeRef) : Prop :=
  (∃ record ∈ ns.types.values, ∃ property ∈ record.properties.values, property.type = type) ∨
    ∃ rpc ∈ ns.rpcs.values, type ∈ rpc.input ∨ type ∈ rpc.output

theorem mentions_iff {ns : Namespace} {type : TypeRef} :
    ns.Mentions type ↔ ∃ reference ∈ ns.references, reference.type = type := by
  rw [Mentions, references]
  constructor
  · rintro (⟨record, hrecord, property, hproperty, rfl⟩ | ⟨rpc, hrpc, htype⟩)
    · refine ⟨⟨record.name ++ "." ++ property.name, property.type⟩, ?_, rfl⟩
      refine List.mem_append_left _ (List.mem_flatMap.mpr ⟨record, hrecord, ?_⟩)
      exact List.mem_map_of_mem hproperty
    · refine ⟨⟨"rpc " ++ rpc.name, type⟩, ?_, rfl⟩
      refine List.mem_append_right _ (List.mem_flatMap.mpr ⟨rpc, hrpc, ?_⟩)
      exact List.mem_map_of_mem (List.mem_append.mpr htype)
  · rintro ⟨reference, hreference, rfl⟩
    rcases List.mem_append.mp hreference with hmem | hmem
    · obtain ⟨record, hrecord, hmem⟩ := List.mem_flatMap.mp hmem
      obtain ⟨property, hproperty, rfl⟩ := List.mem_map.mp hmem
      exact .inl ⟨record, hrecord, property, hproperty, rfl⟩
    · obtain ⟨rpc, hrpc, hmem⟩ := List.mem_flatMap.mp hmem
      obtain ⟨type, htype, rfl⟩ := List.mem_map.mp hmem
      exact .inr ⟨rpc, hrpc, List.mem_append.mp htype⟩

end Namespace

namespace ResolvedType

inductive PartOf (part : ResolvedType) : ResolvedType → Prop
  | whole : PartOf part part
  | element {element : ResolvedType} : PartOf part element → PartOf part (.list element)
  | key {key value : ResolvedType} : PartOf part key → PartOf part (.map key value)
  | value {key value : ResolvedType} : PartOf part value → PartOf part (.map key value)

theorem partOf_list {part element : ResolvedType} :
    part.PartOf (.list element) ↔ part = .list element ∨ part.PartOf element := by
  constructor
  · rintro (_ | h)
    · exact .inl rfl
    · exact .inr h
  · rintro (rfl | h)
    · exact .whole
    · exact .element h

theorem partOf_map {part key value : ResolvedType} :
    part.PartOf (.map key value) ↔
      part = .map key value ∨ part.PartOf key ∨ part.PartOf value := by
  constructor
  · rintro (_ | _ | h | h)
    · exact .inl rfl
    · exact .inr (.inl h)
    · exact .inr (.inr h)
  · rintro (rfl | h | h)
    · exact .whole
    · exact .key h
    · exact .value h

theorem mem_owners {q : PackageId} {r : ResolvedType} :
    q ∈ r.owners ↔ ∃ name, (record name q).PartOf r ∨ (enum name q).PartOf r := by
  induction r with
  | list element ih => simp [owners, partOf_list, ih]
  | map key value ihkey ihvalue =>
    simp only [owners, List.mem_append, ihkey, ihvalue, partOf_map, reduceCtorEq, false_or]
    constructor
    · rintro (⟨name, h | h⟩ | ⟨name, h | h⟩)
      · exact ⟨name, .inl (.inl h)⟩
      · exact ⟨name, .inr (.inl h)⟩
      · exact ⟨name, .inl (.inr h)⟩
      · exact ⟨name, .inr (.inr h)⟩
    · rintro ⟨name, (h | h) | (h | h)⟩
      · exact .inl ⟨name, .inl h⟩
      · exact .inr ⟨name, .inl h⟩
      · exact .inl ⟨name, .inr h⟩
      · exact .inr ⟨name, .inr h⟩
  | record name package =>
    constructor
    · intro h
      obtain rfl : q = package := List.mem_singleton.mp h
      exact ⟨name, .inl .whole⟩
    · rintro ⟨_, h | h⟩ <;> cases h
      exact List.mem_singleton_self _
  | enum name package =>
    constructor
    · intro h
      obtain rfl : q = package := List.mem_singleton.mp h
      exact ⟨name, .inr .whole⟩
    · rintro ⟨_, h | h⟩ <;> cases h
      exact List.mem_singleton_self _
  | _ =>
    constructor
    · intro h
      cases h
    · rintro ⟨_, h | h⟩ <;> cases h

theorem isKnown_iff {r : ResolvedType} : r.isKnown = true ↔ ¬ unknown.PartOf r := by
  induction r with
  | list element ih => simp [isKnown, partOf_list, ih]
  | map key value ihkey ihvalue => simp [isKnown, partOf_map, ihkey, ihvalue]
  | unknown => exact ⟨nofun, fun h => absurd .whole h⟩
  | _ => exact ⟨fun _ => nofun, fun _ => rfl⟩

end ResolvedType

namespace Registry

variable (r : Registry) (scopes : List PackageId)

theorem package_of_lookup {r : Registry} {package : PackageId} {name : String} {symbol : Symbol}
    (h : r.lookup package name = some symbol) : symbol.package = package := by
  have hfound := List.find?_some h
  rw [Bool.and_eq_true, beq_iff_eq] at hfound
  exact hfound.1

theorem owners_resolveDeclared_subset (name : String) :
    (r.resolveDeclared scopes name).owners ⊆ scopes := by
  intro q hq
  rw [resolveDeclared] at hq
  split at hq
  · cases hq
  all_goals
    next hfound =>
    obtain ⟨package, hpackage, hlookup⟩ := List.exists_of_findSome?_eq_some hfound
    obtain rfl := package_of_lookup hlookup
    obtain rfl := List.mem_singleton.mp hq
    exact hpackage

-- The cases of a mention: which builtin its name is, if it is one, and which arguments it has.
@[elab_as_elim] theorem resolve_induction {P : TypeRef → ResolvedType → Prop}
    (unit : ∀ name arguments, Builtin.ofWord? name = some .unit → P ⟨name, arguments⟩ .unit)
    (time : ∀ name arguments, Builtin.ofWord? name = some .time → P ⟨name, arguments⟩ .time)
    (data : ∀ name arguments, Builtin.ofWord? name = some .data → P ⟨name, arguments⟩ .bytes)
    (list : ∀ name element, Builtin.ofWord? name = some .list →
      P element (r.resolve scopes element) → P ⟨name, [element]⟩ (.list (r.resolve scopes element)))
    (looseList : ∀ name arguments, Builtin.ofWord? name = some .list →
      (∀ element, arguments ≠ [element]) → P ⟨name, arguments⟩ (.list .unknown))
    (emptyMap : ∀ name, Builtin.ofWord? name = some .map → P ⟨name, []⟩ (.map .unknown .unknown))
    (keyedMap : ∀ name key, Builtin.ofWord? name = some .map → P key (r.resolve scopes key) →
      P ⟨name, [key]⟩ (.map (r.resolve scopes key) .unknown))
    (map : ∀ name key value rest, Builtin.ofWord? name = some .map →
      P key (r.resolve scopes key) → P value (r.resolve scopes value) →
      P ⟨name, key :: value :: rest⟩ (.map (r.resolve scopes key) (r.resolve scopes value)))
    (simple : ∀ name arguments builtin, Builtin.ofWord? name = some builtin →
      builtin ∉ [.unit, .time, .data, .list, .map] → P ⟨name, arguments⟩ (.simple name))
    (declared : ∀ name arguments, Builtin.ofWord? name = none →
      P ⟨name, arguments⟩ (r.resolveDeclared scopes name))
    (type : TypeRef) : P type (r.resolve scopes type) := by
  fun_induction resolve r scopes type with
  | case1 name arguments hword => exact unit name arguments hword
  | case2 name arguments hword => exact time name arguments hword
  | case3 name arguments hword => exact data name arguments hword
  | case4 name hword element ih => exact list name element hword ih
  | case5 name arguments hword hother => exact looseList name arguments hword fun _ => hother _
  | case6 name hword => exact emptyMap name hword
  | case7 name hword key ih => exact keyedMap name key hword ih
  | case8 name hword key value rest ihkey ihvalue =>
    exact map name key value rest hword ihkey ihvalue
  | case9 name arguments builtin hunit htime hdata hlist hmap hword =>
    exact simple name arguments builtin hword (by grind)
  | case10 name arguments hword => exact declared name arguments hword

theorem resolve_of_simple {r : Registry} {scopes : List PackageId} {name : String}
    {arguments : List TypeRef} {builtin : Builtin} (hword : Builtin.ofWord? name = some builtin)
    (h : builtin ∉ [.unit, .time, .data, .list, .map]) :
    r.resolve scopes ⟨name, arguments⟩ = .simple name := by
  rw [resolve.eq_def]
  simp only [hword]
  cases builtin with
  | unit | time | data | list | map => exact absurd (by decide) h
  | _ => rfl

theorem owners_resolve_subset (type : TypeRef) : (r.resolve scopes type).owners ⊆ scopes := by
  induction type using resolve_induction r scopes with
  | list name element _ ih => exact ih
  | keyedMap name key _ ih => simpa [ResolvedType.owners] using ih
  | map name key value rest _ ihkey ihvalue => exact List.append_subset.mpr ⟨ihkey, ihvalue⟩
  | declared name => exact owners_resolveDeclared_subset r scopes name
  | _ => exact List.nil_subset _

end Registry

end InterfaceSchema
