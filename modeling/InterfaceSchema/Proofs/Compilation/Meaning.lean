import InterfaceSchema.Proofs.Compilation.Joining
import InterfaceSchema.Proofs.Schema.Lookup

namespace InterfaceSchema

section Folds

variable {α β : Type} {look : β → Option α}

theorem isSome_foldl_merge (combine : α → α → α) (bs : List β) (x : Option α) :
    ((bs.map look).foldl (Option.merge combine) x).isSome = true ↔
      x.isSome = true ∨ ∃ b ∈ bs, (look b).isSome = true := by
  induction bs generalizing x with
  | nil => simp
  | cons b bs ih =>
    rw [List.map_cons, List.foldl_cons, ih, Option.isSome_merge, Bool.or_eq_true, or_assoc]
    simp

theorem foldl_merge_old (bs : List β) (x : Option α) :
    (bs.map look).foldl (Option.merge fun old _ => old) x = x.or (bs.findSome? look) := by
  induction bs generalizing x with
  | nil => simp
  | cons b bs ih =>
    rw [List.map_cons, List.foldl_cons, ih, merge_old, Option.or_assoc, List.findSome?_cons]
    cases look b <;> rfl

theorem foldl_merge_new (bs : List β) (x : Option α) :
    (bs.map look).foldl (Option.merge fun _ new => new) x =
      (bs.reverse.findSome? look).or x := by
  induction bs generalizing x with
  | nil => rfl
  | cons b bs ih =>
    rw [List.map_cons, List.foldl_cons, ih, merge_new, ← Option.or_assoc, List.reverse_cons,
      List.findSome?_append]
    cases h : look b <;> simp [h]

theorem foldl_merge_enums {look : β → Option EnumType} (bs : List β) (e : EnumType) :
    (bs.map look).foldl (Option.merge EnumType.merge) (some e) =
      some (e.pushAll ((bs.filterMap look).flatMap EnumType.members)) := by
  induction bs generalizing e with
  | nil => rfl
  | cons b bs ih =>
    rw [List.map_cons, List.foldl_cons]
    cases h : look b with
    | none => rw [Option.merge_none_right, ih, List.filterMap_cons_none h]
    | some f =>
      rw [Option.merge_some_some, ih, List.filterMap_cons_some h, List.flatMap_cons,
        EnumType.pushAll_append]
      rfl

theorem members_of_foldl_merge_enums {look : β → Option EnumType} {bs : List β} {e : EnumType}
    (hnodup : ∀ b ∈ bs, ∀ f, look b = some f → f.members.Nodup)
    (h : (bs.map look).foldl (Option.merge EnumType.merge) none = some e) :
    e.members = ((bs.filterMap look).flatMap EnumType.members).eraseDups := by
  induction bs with
  | nil => cases h
  | cons b bs ih =>
    rw [List.map_cons, List.foldl_cons, Option.merge_none_left] at h
    cases hb : look b with
    | none =>
      rw [hb] at h
      rw [List.filterMap_cons_none hb]
      exact ih (fun c hc => hnodup c (List.mem_cons_of_mem b hc)) h
    | some f =>
      rw [hb, foldl_merge_enums] at h
      rw [← Option.some.inj h, List.filterMap_cons_some hb, List.flatMap_cons,
        EnumType.members_pushAll (hnodup b List.mem_cons_self f hb)]

end Folds

theorem Parsed.sound {sources : List (String × String)} {roots : List Namespace}
    (h : Parsed sources roots) : ∀ root ∈ roots, root.Sound := by
  obtain ⟨itemss, -, -, rfl⟩ := h.exists_items
  intro root hroot
  obtain ⟨items, -, rfl⟩ := List.mem_map.mp hroot
  exact Namespace.sound_declareAll items Namespace.sound_root

theorem Parsed.name_eq {sources : List (String × String)} {roots : List Namespace}
    (h : Parsed sources roots) : ∀ root ∈ roots, root.name = Namespace.rootName := by
  obtain ⟨itemss, -, -, rfl⟩ := h.exists_items
  intro root hroot
  obtain ⟨items, -, rfl⟩ := List.mem_map.mp hroot
  exact Namespace.declareAll_name .root items

theorem Namespace.Merges.foldl_root {α : Type} {look : Namespace → Option α}
    {combine : α → α → α} (h : Merges look combine) (hroot : look root = none)
    {sources : List (String × String)} {roots : List Namespace} (hparsed : Parsed sources roots) :
    look (roots.foldl merge root) = (roots.map look).foldl (Option.merge combine) none :=
  hroot ▸ h.foldl sound_root.wellFormed fun other hother => (hparsed.sound other hother).wellFormed

theorem compileSources_declarations {sources : List (String × String)} {roots : List Namespace}
    (h : Parsed sources roots) :
    ∃ ns, (compileSources sources).value = .ok ns ∧ ∀ (path : List String) (key : String),
      ((ns.scopeAt? (path ++ [key])).isSome = true ↔
        ∃ root ∈ roots, (root.scopeAt? (path ++ [key])).isSome = true) ∧
      ((ns.typeAt? path key).isSome = true ↔
        ∃ root ∈ roots, (root.typeAt? path key).isSome = true) ∧
      (∀ name, ns.propertyAt? path key name =
        roots.reverse.findSome? (·.propertyAt? path key name)) ∧
      ns.optionAt? path key = roots.reverse.findSome? (·.optionAt? path key) ∧
      ns.rpcAt? path key = roots.findSome? (·.rpcAt? path key) ∧
      ((ns.enumAt? path key).isSome = true ↔
        ∃ root ∈ roots, (root.enumAt? path key).isSome = true) ∧
      ∀ enum, ns.enumAt? path key = some enum →
        enum.members =
          ((roots.filterMap (·.enumAt? path key)).flatMap EnumType.members).eraseDups := by
  refine ⟨_, compileSources_of_parsed h, fun path key => ?_⟩
  have hscope := (Namespace.merges_scopeAt? (path ++ [key])).foldl_root (by cases path <;> rfl) h
  have htype := (Namespace.merges_typeAt? path key).foldl_root (by cases path <;> rfl) h
  have hproperty := fun name =>
    (Namespace.merges_propertyAt? path key name).foldl_root (by cases path <;> rfl) h
  have hoption := (Namespace.merges_optionAt? path key).foldl_root (by cases path <;> rfl) h
  have hrpc := (Namespace.merges_rpcAt? path key).foldl_root (by cases path <;> rfl) h
  have henum := (Namespace.merges_enumAt? path key).foldl_root (by cases path <;> rfl) h
  refine ⟨?_, ?_, fun name => ?_, ?_, ?_, ?_, fun enum hlook => ?_⟩
  · rw [hscope, isSome_foldl_merge]
    simp
  · rw [htype, isSome_foldl_merge]
    simp
  · rw [hproperty name, foldl_merge_new, Option.or_none]
  · rw [hoption, foldl_merge_new, Option.or_none]
  · rw [hrpc, foldl_merge_old, Option.none_or]
  · rw [henum, isSome_foldl_merge]
    simp
  · rw [henum] at hlook
    refine members_of_foldl_merge_enums (fun root hroot f hf => ?_) hlook
    exact (h.sound root hroot).nodup_of_enumAt? hf

theorem declarations_of_two_scopes :
    ∃ ns, (compileSources
        [("a", "namespace n\x7benum E\x7ba b\x7d rpc f()p\x7d"),
         ("b", "namespace n\x7benum E\x7bb c\x7d rpc f()q\x7d")]).value = .ok ns ∧
      ns.rpcAt? ["n"] "f" = some ⟨"f", [], [⟨"p", []⟩]⟩ ∧
      ∃ enum, ns.enumAt? ["n"] "E" = some enum ∧ enum.members = ["a", "b", "c"] := by
  have ha : (parseSource "namespace n\x7benum E\x7ba b\x7d rpc f()p\x7d").value =
      .ok (Namespace.root.declareAll [.scope "n"
        [.enum "E" ["a", "b"], .rpc "f" [] ⟨"p", []⟩]]) := by decide +kernel
  have hb : (parseSource "namespace n\x7benum E\x7bb c\x7d rpc f()q\x7d").value =
      .ok (Namespace.root.declareAll [.scope "n"
        [.enum "E" ["b", "c"], .rpc "f" [] ⟨"q", []⟩]]) := by decide +kernel
  obtain ⟨ns, hns, hall⟩ := @compileSources_declarations
    [("a", "namespace n\x7benum E\x7ba b\x7d rpc f()p\x7d"),
     ("b", "namespace n\x7benum E\x7bb c\x7d rpc f()q\x7d")] _ (.cons ha (.cons hb .nil))
  obtain ⟨-, -, -, -, hrpc, -⟩ := hall ["n"] "f"
  obtain ⟨-, -, -, -, -, hsome, hmembers⟩ := hall ["n"] "E"
  obtain ⟨enum, henum⟩ := Option.isSome_iff_exists.mp (hsome.mpr ⟨_, List.mem_cons_self, rfl⟩)
  exact ⟨ns, hns, hrpc, enum, henum, hmembers enum henum⟩

end InterfaceSchema
