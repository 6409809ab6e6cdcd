import InterfaceSchema.Proofs.Schema.Merge

namespace InterfaceSchema

namespace Namespace

variable {α : Type}

def scopeAt? : List String → Namespace → Option Namespace
  | [], ns => some ns
  | key :: path, ns => (ns.children.get? key).bind (scopeAt? path)

def optionAt? (path : List String) (key : String) (ns : Namespace) : Option String :=
  (ns.scopeAt? path).bind (·.options.get? key)

def typeAt? (path : List String) (key : String) (ns : Namespace) : Option RecordType :=
  (ns.scopeAt? path).bind (·.types.get? key)

def propertyAt? (path : List String) (key name : String) (ns : Namespace) : Option Property :=
  (ns.typeAt? path key).bind (·.properties.get? name)

def enumAt? (path : List String) (key : String) (ns : Namespace) : Option EnumType :=
  (ns.scopeAt? path).bind (·.enums.get? key)

def rpcAt? (path : List String) (key : String) (ns : Namespace) : Option Rpc :=
  (ns.scopeAt? path).bind (·.rpcs.get? key)

theorem Everywhere.of_scopeAt? {P : Namespace → Prop} {ns scope : Namespace}
    (h : ns.Everywhere P) {path : List String} (hscope : ns.scopeAt? path = some scope) :
    scope.Everywhere P := by
  induction path generalizing ns with
  | nil => exact Option.some.inj hscope ▸ h
  | cons key path ih =>
    obtain ⟨child, hchild, hscope⟩ := Option.bind_eq_some_iff.mp hscope
    exact ih (h.child hchild) hscope

def Merges (look : Namespace → Option α) (combine : α → α → α) : Prop :=
  ∀ ⦃a b : Namespace⦄, a.WellFormed → b.WellFormed →
    look (a.merge b) = Option.merge combine (look a) (look b)

theorem merges_scopeAt? (path : List String) : Merges (scopeAt? path) merge := by
  induction path with
  | nil => exact fun _ _ _ _ => rfl
  | cons key path ih =>
    intro a b ha hb
    rw [scopeAt?, scopeAt?, scopeAt?, hb.here.get?_merge_children]
    cases hx : a.children.get? key with
    | none => simp
    | some x =>
      cases hy : b.children.get? key with
      | none => simp
      | some y => exact ih (ha.child hx) (hb.child hy)

theorem Merges.bind_scopeAt? {look : Namespace → Option α} {combine : α → α → α}
    (h : Merges look combine) (path : List String) :
    Merges (fun ns => (ns.scopeAt? path).bind look) combine := by
  intro a b ha hb
  beta_reduce
  rw [merges_scopeAt? path ha hb]
  cases hx : a.scopeAt? path with
  | none => simp
  | some x =>
    cases hy : b.scopeAt? path with
    | none => simp
    | some y => exact h (Everywhere.of_scopeAt? ha hx) (Everywhere.of_scopeAt? hb hy)

theorem Merges.foldl {look : Namespace → Option α} {combine : α → α → α}
    (h : Merges look combine) {ns : Namespace} (hns : ns.WellFormed) {roots : List Namespace}
    (hroots : ∀ root ∈ roots, root.WellFormed) :
    look (roots.foldl merge ns) = (roots.map look).foldl (Option.merge combine) (look ns) := by
  induction roots generalizing ns with
  | nil => rfl
  | cons root roots ih =>
    have hroot := hroots root List.mem_cons_self
    rw [List.foldl_cons, List.map_cons, List.foldl_cons, ← h hns hroot]
    exact ih (hns.merge hroot) fun other hother => hroots other (List.mem_cons_of_mem root hother)

theorem merges_typeAt? (path : List String) (key : String) :
    Merges (typeAt? path key) RecordType.merge :=
  Merges.bind_scopeAt? (fun a _ _ hb => hb.here.get?_merge_types a key) path

theorem merges_enumAt? (path : List String) (key : String) :
    Merges (enumAt? path key) EnumType.merge :=
  Merges.bind_scopeAt? (fun a _ _ hb => hb.here.get?_merge_enums a key) path

theorem merges_rpcAt? (path : List String) (key : String) :
    Merges (rpcAt? path key) fun old _ => old :=
  Merges.bind_scopeAt? (fun a _ _ hb => by
    rw [hb.here.get?_merge_rpcs a key, merge_old]) path

theorem merges_optionAt? (path : List String) (key : String) :
    Merges (optionAt? path key) fun _ new => new :=
  Merges.bind_scopeAt? (fun a _ _ hb => by
    rw [hb.here.get?_merge_options a key, merge_new]) path

theorem WellFormed.indexed_of_typeAt? {ns : Namespace} (h : ns.WellFormed) {path : List String}
    {key : String} {type : RecordType} (htype : ns.typeAt? path key = some type) :
    type.properties.Indexed Property.name := by
  obtain ⟨scope, hscope, htype⟩ := Option.bind_eq_some_iff.mp htype
  exact (Everywhere.of_scopeAt? h hscope).here.properties htype

theorem Sound.nodup_of_enumAt? {ns : Namespace} (h : ns.Sound) {path : List String}
    {key : String} {enum : EnumType} (henum : ns.enumAt? path key = some enum) :
    enum.members.Nodup := by
  obtain ⟨scope, hscope, henum⟩ := Option.bind_eq_some_iff.mp henum
  exact (Everywhere.of_scopeAt? h hscope).here.members henum

theorem merges_propertyAt? (path : List String) (key name : String) :
    Merges (propertyAt? path key name) fun _ new => new := by
  intro a b ha hb
  rw [propertyAt?, propertyAt?, propertyAt?, merges_typeAt? path key ha hb]
  cases hx : a.typeAt? path key with
  | none => simp
  | some x =>
    cases hy : b.typeAt? path key with
    | none => simp
    | some y =>
      change (x.merge y).properties.get? name =
        Option.merge _ (x.properties.get? name) (y.properties.get? name)
      rw [RecordType.get?_merge_properties x (hb.indexed_of_typeAt? hy), merge_new]

end Namespace

end InterfaceSchema
