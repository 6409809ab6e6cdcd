import InterfaceSchema.Proofs.Schema.Denotation
import Mathlib.Algebra.BigOperators.Group.List.Basic

namespace InterfaceSchema

theorem EnumType.pushAll_of_subset {e : EnumType} {members : List String}
    (h : members ⊆ e.members) : e.pushAll members = e := by
  induction members with
  | nil => rfl
  | cons member members ih =>
    obtain ⟨hmember, hmembers⟩ := List.cons_subset.mp h
    rw [pushAll_cons, push_of_mem hmember, ih hmembers]

theorem EnumType.merge_self (e : EnumType) : e.merge e = e :=
  pushAll_of_subset (List.Subset.refl e.members)

theorem RecordType.merge_self {type : RecordType} (h : type.properties.Indexed Property.name) :
    type.merge type = type := by
  refine ext_properties rfl (ordered_merge h.ordered type) h.ordered fun key => ?_
  rw [get?_merge_properties type h, Option.or_self]

namespace Namespace

theorem blank_merge {ns : Namespace} (h : ns.Indexed) : blank.merge ns = ns :=
  ofName_merge h rfl

theorem merge_blank (ns : Namespace) : ns.merge blank = ns := by
  refine merge_ofName ?_
  unfold mergedName
  split
  · next h => exact (String.isEmpty_iff.mp h).symm
  · rfl

theorem WellFormed.merge_self {ns : Namespace} (h : ns.WellFormed) : ns.merge ns = ns := by
  induction h with
  | @intro ns here _ ih =>
    refine (here.merge here).ext here ?_ ?_ ?_ ?_ ?_ ?_
    · rw [merge_name, mergedName_self]
    · intro key
      rw [here.get?_merge_children]
      cases hchild : ns.children.get? key with
      | none => rfl
      | some child => exact congrArg some (ih hchild)
    · intro key
      rw [here.get?_merge_options, Option.or_self]
    · intro key
      rw [here.get?_merge_types]
      cases htype : ns.types.get? key with
      | none => rfl
      | some type => exact congrArg some (RecordType.merge_self (here.properties htype))
    · intro key
      rw [here.get?_merge_enums]
      cases ns.enums.get? key with
      | none => rfl
      | some enum => exact congrArg some enum.merge_self
    · intro key
      rw [here.get?_merge_rpcs, Option.or_self]

theorem merge_idempotent_monoid {a b c : Namespace} (ha : a.WellFormed) (hb : b.WellFormed)
    (hc : c.WellFormed) :
    (blank.WellFormed ∧ (a.merge b).WellFormed) ∧
      (a.merge b).merge c = a.merge (b.merge c) ∧
      (blank.merge a = a ∧ a.merge blank = a) ∧
      a.merge a = a := by
  refine ⟨⟨?_, ?_⟩, ?_, ⟨?_, ?_⟩, ?_⟩
  · exact .ofName ""
  · exact ha.merge hb
  · exact ha.merge_assoc hb hc
  · exact blank_merge ha.here
  · exact merge_blank a
  · exact ha.merge_self

theorem merge_laws_of_overlapping_scopes :
    ((root.declareAll [.enum "E" ["x", "y"]]).merge
        (root.declareAll [.enum "E" ["y", "z"], .rpc "f" [] ⟨"E", []⟩])).merge
          (root.declareAll [.rpc "f" [] ⟨"T", []⟩]) =
      (root.declareAll [.enum "E" ["x", "y"]]).merge
        ((root.declareAll [.enum "E" ["y", "z"], .rpc "f" [] ⟨"E", []⟩]).merge
          (root.declareAll [.rpc "f" [] ⟨"T", []⟩])) ∧
    (root.declareAll [.enum "E" ["x", "y"]]).merge (root.declareAll [.enum "E" ["x", "y"]]) =
      root.declareAll [.enum "E" ["x", "y"]] := by
  have hwell : ∀ items, (root.declareAll items).WellFormed := fun items =>
    (sound_declareAll items (.ofName rootName)).wellFormed
  obtain ⟨-, hassoc, -, hself⟩ := merge_idempotent_monoid
    (hwell [.enum "E" ["x", "y"]]) (hwell [.enum "E" ["y", "z"], .rpc "f" [] ⟨"E", []⟩])
    (hwell [.rpc "f" [] ⟨"T", []⟩])
  exact ⟨hassoc, hself⟩

@[ext] structure Tree where
  scope : Namespace
  wellFormed : scope.WellFormed

instance : Monoid Tree where
  mul a b := ⟨a.scope.merge b.scope, a.wellFormed.merge b.wellFormed⟩
  one := ⟨blank, .ofName ""⟩
  mul_assoc a b c := Tree.ext (a.wellFormed.merge_assoc b.wellFormed c.wellFormed)
  one_mul a := Tree.ext (blank_merge a.wellFormed.here)
  mul_one a := Tree.ext (merge_blank a.scope)

theorem Tree.scope_mul (a b : Tree) : (a * b).scope = a.scope.merge b.scope :=
  rfl

theorem Tree.foldl_merge_eq_prod (tree : Tree) (trees : List Tree) :
    (trees.map Tree.scope).foldl merge tree.scope = (tree * trees.prod).scope := by
  induction trees generalizing tree with
  | nil => rw [List.map_nil, List.foldl_nil, List.prod_nil, mul_one]
  | cons next trees ih =>
    rw [List.map_cons, List.foldl_cons, ← Tree.scope_mul, ih, List.prod_cons, mul_assoc]

end Namespace

end InterfaceSchema
