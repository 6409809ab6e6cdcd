import InterfaceSchema.Package.Tree
import Mathlib.Data.List.Nodup

namespace InterfaceSchema

namespace Namespace

def declaresType (ns : Namespace) (name : String) : Bool :=
  (ns.types.values.map RecordType.name).contains name

def declaresEnum (ns : Namespace) (name : String) : Bool :=
  (ns.enums.values.map EnumType.name).contains name

def symbol? (ns : Namespace) (package : PackageId) (name : String) : Option Symbol :=
  if ns.declaresType name then some ⟨name, .type, package⟩
  else if ns.declaresEnum name then some ⟨name, .enum, package⟩
  else none

theorem declaresType_iff {ns : Namespace} {name : String} :
    ns.declaresType name = true ↔ ∃ type ∈ ns.types.values, type.name = name := by
  rw [declaresType, List.contains_iff_mem, List.mem_map]

theorem declaresEnum_iff {ns : Namespace} {name : String} :
    ns.declaresEnum name = true ↔ ∃ enum ∈ ns.enums.values, enum.name = name := by
  rw [declaresEnum, List.contains_iff_mem, List.mem_map]

end Namespace

namespace Registry

variable (r : Registry) (package other : PackageId) (name key : String) (kind : SymbolKind)

theorem lookup_register :
    (r.register package name kind).lookup other key =
      (r.lookup other key).or
        (if other = package ∧ key = name then some ⟨key, kind, package⟩ else none) := by
  by_cases hsame : other = package ∧ key = name
  · obtain ⟨rfl, rfl⟩ := hsame
    rw [if_pos ⟨rfl, rfl⟩, register, declares]
    cases hold : r.lookup other key with
    | none => simp [lookup]
    | some symbol => simpa using hold
  · have hfind : ¬ (package == other && name == key) = true := by
      simp only [Bool.and_eq_true, beq_iff_eq]
      exact fun ⟨hpackage, hname⟩ => hsame ⟨hpackage.symm, hname.symm⟩
    rw [if_neg hsame, Option.or_none, register]
    split
    · rfl
    · exact List.find?_cons_of_neg hfind

theorem value_registerAll (clash : String → List Event) (names : List String) :
    (registerAll package kind clash r names).value =
      names.foldl (fun r name => r.register package name kind) r := by
  induction names generalizing r with
  | nil => rfl
  | cons name names ih =>
    rw [registerAll, Logged.after, ih, List.foldl_cons]

theorem lookup_foldl_register (names : List String) :
    (names.foldl (fun r name => r.register package name kind) r).lookup other key =
      (r.lookup other key).or
        (if other = package ∧ key ∈ names then some ⟨key, kind, package⟩ else none) := by
  induction names generalizing r with
  | nil => simp
  | cons name names ih =>
    rw [List.foldl_cons, ih, lookup_register, Option.or_assoc]
    congr 1
    by_cases hpackage : other = package <;> by_cases hname : key = name <;>
      simp [hpackage, hname]

theorem lookup_declare (packageName : String) (ns : Namespace) :
    (r.declare package packageName ns).value.lookup other key =
      (r.lookup other key).or (if other = package then ns.symbol? package key else none) := by
  rw [declare, Logged.after]
  simp only [value_registerAll, lookup_foldl_register]
  rw [Option.or_assoc]
  congr 1
  by_cases hpackage : other = package
  · simp only [hpackage, true_and, if_true, Namespace.symbol?, Namespace.declaresType,
      Namespace.declaresEnum, List.contains_iff_mem]
    by_cases htype : key ∈ ns.types.values.map RecordType.name
    · rw [if_pos htype, if_pos htype, Option.some_or]
    · rw [if_neg htype, if_neg htype, Option.none_or]
  · simp [hpackage]

variable {r package kind} {event : Event}

theorem eq_of_mem_registerEvents {name : String} (h : event ∈ r.registerEvents package name kind) :
    event = .symbolRegistered kind name package := by
  rw [registerEvents] at h
  split at h
  · cases h
  · exact List.mem_singleton.mp h

theorem mem_events_registerAll {clash : String → List Event} {names : List String}
    (h : event ∈ (registerAll package kind clash r names).events) :
    (∃ name, event = .symbolRegistered kind name package) ∨ ∃ name, event ∈ clash name := by
  induction names generalizing r with
  | nil => cases h
  | cons name names ih =>
    rw [registerAll] at h
    rcases List.mem_append.mp h with h | h
    · rcases List.mem_append.mp h with h | h
      · exact .inl ⟨name, eq_of_mem_registerEvents h⟩
      · split at h
        · exact .inr ⟨name, h⟩
        · cases h
    · exact ih h

theorem mem_events_declare {packageName : String} {ns : Namespace}
    (h : event ∈ (r.declare package packageName ns).events) :
    (∃ kind name, event = .symbolRegistered kind name package) ∨
      ∃ name, event = .enumHidden name packageName := by
  rcases List.mem_append.mp h with h | h
  · rcases mem_events_registerAll h with ⟨name, rfl⟩ | ⟨name, h⟩
    · exact .inl ⟨.type, name, rfl⟩
    · cases h
  · rcases mem_events_registerAll h with ⟨name, rfl⟩ | ⟨name, h⟩
    · exact .inl ⟨.enum, name, rfl⟩
    · exact .inr ⟨name, List.mem_singleton.mp h⟩

end Registry

namespace PackageTree

theorem lookup_foldl_declare (r : Registry) (packages : List Package) (id : PackageId)
    (name : String) :
    (packages.foldl (fun registry p => (registry.declare p.id p.name p.scope).value) r).lookup
        id name =
      (r.lookup id name).or
        (packages.findSome? fun p => if id = p.id then p.scope.symbol? p.id name else none) := by
  induction packages generalizing r with
  | nil => simp
  | cons p packages ih =>
    rw [List.foldl_cons, ih, Registry.lookup_declare, Option.or_assoc, List.findSome?_cons]
    congr 1
    generalize (if id = p.id then p.scope.symbol? p.id name else none) = found
    cases found <;> rfl

theorem lookup_registryOf {packages : List Package} (hids : (packages.map Package.id).Nodup)
    {p : Package} (hp : p ∈ packages) (name : String) :
    (registryOf packages).lookup p.id name = p.scope.symbol? p.id name := by
  have hempty : Registry.empty.lookup p.id name = none := rfl
  rw [registryOf, lookup_foldl_declare, hempty, Option.none_or]
  cases hfound : packages.findSome? fun q =>
      if p.id = q.id then q.scope.symbol? q.id name else none with
  | none =>
    have hp' := List.findSome?_eq_none_iff.mp hfound p hp
    rw [if_pos rfl] at hp'
    exact hp'.symm
  | some symbol =>
    obtain ⟨q, hq, hsymbol⟩ := List.exists_of_findSome?_eq_some hfound
    split at hsymbol
    · next hid =>
      obtain rfl := List.inj_on_of_nodup_map hids hp hq hid
      exact hsymbol.symm
    · cases hsymbol

end PackageTree

end InterfaceSchema
