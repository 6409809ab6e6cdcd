import InterfaceSchema.Package.Outline
import InterfaceSchema.Proofs.Compilation.Meaning
import InterfaceSchema.Proofs.Schema.Compatible

namespace InterfaceSchema

theorem Parsed.exists_of_perm {sources others : List (String × String)} {roots : List Namespace}
    (h : Parsed sources roots) (hperm : sources.Perm others) :
    ∃ permuted, Parsed others permuted ∧ roots.Perm permuted := by
  obtain ⟨permuted, hparsed, hroots⟩ := List.perm_comp_forall₂ hperm.symm h
  exact ⟨permuted, hparsed, hroots.symm⟩

theorem compileToText_of_ok {sources : List (String × String)} {ns : Namespace}
    (h : (compileSources sources).value = .ok ns) :
    (compileToText sources).value = .ok ns.toText := by
  rw [compileToText, Logged.map, h]
  rfl

theorem outlineToText_of_ok {sources : List (String × String)} {ns : Namespace}
    (h : (compileSources sources).value = .ok ns) (config : Config) :
    (outlineToText config sources).value =
      .ok (PackageTree.build config ns).value.outlineText := by
  unfold outlineToText outlineOf
  split
  · simp_all
  · next root _ hroot =>
    obtain rfl : root = ns := by simpa [hroot] using h
    rfl

theorem compileSources_perm {sources others : List (String × String)} {roots : List Namespace}
    (hparsed : Parsed sources roots) (hcompatible : roots.Pairwise Namespace.Compatible)
    (hperm : sources.Perm others) :
    ∃ ns, ((compileSources sources).value = .ok ns ∧ (compileSources others).value = .ok ns) ∧
      ((compileToText sources).value = .ok ns.toText ∧
        (compileToText others).value = .ok ns.toText) ∧
      ∀ config,
        (outlineToText config sources).value =
            .ok (PackageTree.build config ns).value.outlineText ∧
          (outlineToText config others).value =
            .ok (PackageTree.build config ns).value.outlineText := by
  obtain ⟨permuted, hothers, hroots⟩ := hparsed.exists_of_perm hperm
  have hsources := compileSources_of_parsed hparsed
  have hsame : (compileSources others).value = .ok (roots.foldl Namespace.merge .root) := by
    rw [compileSources_of_parsed hothers, Namespace.foldl_merge_perm
      Namespace.sound_root.wellFormed (fun root hroot => (hparsed.sound root hroot).wellFormed)
      hparsed.name_eq hcompatible hroots]
  refine ⟨_, ⟨hsources, hsame⟩, ⟨?_, ?_⟩, fun config => ⟨?_, ?_⟩⟩
  · exact compileToText_of_ok hsources
  · exact compileToText_of_ok hsame
  · exact outlineToText_of_ok hsources config
  · exact outlineToText_of_ok hsame config

theorem perm_of_two_sources_with_one_enum :
    ∃ ns, (compileSources [("a", "enum E\x7bx\x7d rpc f()E"),
          ("b", "enum E\x7bx\x7d namespace n\x7btype T\x7bE p\x7d\x7d")]).value = .ok ns ∧
        (compileSources [("b", "enum E\x7bx\x7d namespace n\x7btype T\x7bE p\x7d\x7d"),
          ("a", "enum E\x7bx\x7d rpc f()E")]).value = .ok ns := by
  have ha : (parseSource "enum E\x7bx\x7d rpc f()E").value =
      .ok (Namespace.root.declareAll [.enum "E" ["x"], .rpc "f" [] ⟨"E", []⟩]) := by decide +kernel
  have hb : (parseSource "enum E\x7bx\x7d namespace n\x7btype T\x7bE p\x7d\x7d").value =
      .ok (Namespace.root.declareAll
        [.enum "E" ["x"], .scope "n" [.type "T" [⟨"p", ⟨"E", []⟩⟩]]]) := by decide +kernel
  have henum : ∀ {key enum},
      (NameMap.empty.insert "E" (EnumType.ofMembers "E" ["x"])).get? key = some enum →
        enum = .ofMembers "E" ["x"] := NameMap.get?_insert_empty
  -- The first source has no inner scope, so the sources meet only at the root.
  have hcompatible : Namespace.Compatible
      (Namespace.root.declareAll [.enum "E" ["x"], .rpc "f" [] ⟨"E", []⟩])
      (Namespace.root.declareAll
        [.enum "E" ["x"], .scope "n" [.type "T" [⟨"p", ⟨"E", []⟩⟩]]]) := by
    refine ⟨?_, ?_, ?_, ?_⟩
    · rintro (_ | ⟨inner, path⟩) key x y hx <;> cases hx
    · rintro (_ | ⟨inner, path⟩) key name x y hx <;> cases hx
    · rintro (_ | ⟨inner, path⟩) key x y hx hy
      · obtain ⟨e, he, rfl⟩ := Option.map_eq_some_iff.mp hx
        obtain ⟨f, hf, rfl⟩ := Option.map_eq_some_iff.mp hy
        rw [henum he, henum hf]
      · cases hx
    · rintro (_ | ⟨inner, path⟩) key x y hx hy
      · cases hy
      · cases hx
  obtain ⟨ns, hns, -⟩ := compileSources_perm
    (show Parsed [("a", "enum E\x7bx\x7d rpc f()E"),
      ("b", "enum E\x7bx\x7d namespace n\x7btype T\x7bE p\x7d\x7d")] _ from
        .cons ha (.cons hb .nil))
    (List.pairwise_pair.mpr hcompatible) (.swap _ _ [])
  exact ⟨ns, hns⟩

end InterfaceSchema
