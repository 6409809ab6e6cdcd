import InterfaceSchema.Proofs.Compilation.Names
import InterfaceSchema.Proofs.Package.Layout
import InterfaceSchema.Proofs.Package.Registry

namespace InterfaceSchema

-- The packages are a package and those around it, nearest first.
def lexicalMeaning (name : String) : List Package → ResolvedType
  | [] => .unknown
  | p :: around =>
      if p.scope.declaresType name then .record name p.id
      else if p.scope.declaresEnum name then .enum name p.id
      else lexicalMeaning name around

namespace Registry

variable {r : Registry}

theorem resolveDeclared_eq_lexicalMeaning {chain : List Package} {name : String}
    (h : ∀ p ∈ chain, r.lookup p.id name = p.scope.symbol? p.id name) :
    r.resolveDeclared (chain.map Package.id) name = lexicalMeaning name chain := by
  induction chain with
  | nil => rfl
  | cons p around ih =>
    obtain ⟨hp, haround⟩ := List.forall_mem_cons.mp h
    rw [resolveDeclared, List.map_cons, List.findSome?_cons, hp, Namespace.symbol?, lexicalMeaning]
    cases p.scope.declaresType name with
    | true => rfl
    | false =>
      cases p.scope.declaresEnum name with
      | true => rfl
      | false => exact ih haround

theorem resolve_of_ofWord?_eq_none {name : String} (h : Builtin.ofWord? name = none)
    (scopes : List PackageId) (arguments : List TypeRef) :
    r.resolve scopes ⟨name, arguments⟩ = r.resolveDeclared scopes name := by
  rw [resolve.eq_def]
  simp only [h]

end Registry

namespace PackageTree

variable {config : Config} {root : Namespace} {p : Package} {chain : List Package}

theorem lookup_registry (h : p ∈ (build config root).value.packages) (name : String) :
    (build config root).value.registry.lookup p.id name = p.scope.symbol? p.id name := by
  obtain ⟨q, hq, rfl⟩ := List.mem_map.mp h
  exact lookup_registryOf (Package.counted_layout config none 0 1 root).nodup_ids hq name

namespace Lineage

theorem resolve_eq (h : (build config root).value.Lineage root p chain)
    (hp : p ∈ (build config root).value.packages) {name : String}
    (hname : Builtin.ofWord? name = none) (arguments : List TypeRef) :
    (build config root).value.resolve p ⟨name, arguments⟩ = lexicalMeaning name chain := by
  rw [resolve, Registry.resolve_of_ofWord?_eq_none hname, h.scopes_eq hp]
  exact Registry.resolveDeclared_eq_lexicalMeaning fun q hq =>
    lookup_registry (h.mem_packages hp q hq) name

theorem everywhere {t : PackageTree} {P : Namespace → Prop} (h : t.Lineage root p chain)
    (hindexed : ∀ ns, P ns → ns.Indexed) (hroot : root.Everywhere P) : p.scope.Everywhere P := by
  induction h with
  | outermost _ hscope => exact hscope ▸ hroot
  | inside _ _ hscope _ ih =>
    obtain ⟨⟨key, child⟩, hentry, rfl⟩ := List.mem_map.mp hscope
    have hordered := (hindexed _ ih.here).children.ordered
    exact ih.child (hordered.get?_eq_some_iff.mpr hentry)

end Lineage

theorem resolve_lexically (config : Config) (root : Namespace) {id : PackageId} {p : Package}
    (hp : (build config root).value.get? id = some p) :
    (p.id = id ∧ ∃ chain, (build config root).value.Lineage root p chain) ∧
    (∀ chain, (build config root).value.Lineage root p chain →
      ∀ name arguments, (∀ b : Builtin, b.word ≠ name) →
        (build config root).value.resolve p ⟨name, arguments⟩ = lexicalMeaning name chain) ∧
    ((∃ sources, (compileSources sources).value = .ok root) →
      (∀ type ∈ p.scope.types.values, ∀ arguments,
        (build config root).value.resolve p ⟨type.name, arguments⟩ = .record type.name id) ∧
      ∀ enum ∈ p.scope.enums.values, (∀ type ∈ p.scope.types.values, type.name ≠ enum.name) →
        ∀ arguments,
          (build config root).value.resolve p ⟨enum.name, arguments⟩ = .enum enum.name id) := by
  have hmem := List.mem_of_getElem? hp
  obtain rfl := id_of_get? hp
  obtain ⟨chain, hchain⟩ := exists_lineage hmem
  refine ⟨⟨rfl, chain, hchain⟩, ?_, ?_⟩
  · intro chain hchain name arguments hname
    exact hchain.resolve_eq hmem (Builtin.ofWord?_eq_none hname) arguments
  · rintro ⟨sources, hroot⟩
    have htitled := (hchain.everywhere (fun _ => Namespace.Titled.toIndexed)
      (Namespace.titled_of_compileSources hroot)).here
    obtain ⟨around, rfl⟩ := hchain.exists_cons
    constructor
    · intro type htype arguments
      have hname := htitled.typeTitle (htitled.types.contains_name htype)
      rw [hchain.resolve_eq hmem hname.ofWord?_eq_none, lexicalMeaning,
        if_pos (Namespace.declaresType_iff.mpr ⟨type, htype, rfl⟩)]
    · intro enum henum hnone arguments
      have hname := htitled.enumTitle (htitled.enums.contains_name henum)
      have htype : ¬ p.scope.declaresType enum.name = true := by
        rw [Namespace.declaresType_iff]
        exact fun ⟨type, htype, heq⟩ => hnone type htype heq
      rw [hchain.resolve_eq hmem hname.ofWord?_eq_none, lexicalMeaning, if_neg htype,
        if_pos (Namespace.declaresEnum_iff.mpr ⟨enum, henum, rfl⟩)]

theorem lexical_scoping_of_shadowed_type :
    ∃ root outer inner,
      (compileSources
        [("s", "namespace a\x7benum E\x7bx\x7d\x7d type E\x7b\x7d type U\x7b\x7d")]).value =
          .ok root ∧
      (build .standard root).value.get? 0 = some outer ∧
      (build .standard root).value.get? 1 = some inner ∧
      (build .standard root).value.resolve outer ⟨"E", []⟩ = .record "E" 0 ∧
      (build .standard root).value.resolve inner ⟨"E", []⟩ = .enum "E" 1 ∧
      (build .standard root).value.resolve inner ⟨"U", []⟩ = .record "U" 0 := by
  obtain ⟨root, hitems, hroot⟩ : ∃ root, Namespace.root.declareAll
      [.scope "a" [.enum "E" ["x"]], .type "E" [], .type "U" []] = root ∧
      (compileSources
        [("s", "namespace a\x7benum E\x7bx\x7d\x7d type E\x7b\x7d type U\x7b\x7d")]).value =
          .ok root :=
    ⟨_, rfl, by decide +kernel⟩
  obtain ⟨outer, inner, houter, hinner⟩ : ∃ outer inner,
      (build .standard root).value.get? 0 = some outer ∧
      (build .standard root).value.get? 1 = some inner := by
    subst hitems
    exact ⟨_, _, rfl, rfl⟩
  obtain ⟨⟨hid, -⟩, -, hdeclared⟩ := resolve_lexically .standard root houter
  obtain ⟨-, hlexical, hdeclared'⟩ := resolve_lexically .standard root hinner
  have hplaces : (inner.parent? = some outer.id ∧ inner.scope ∈ outer.scope.children.values) ∧
      outer.parent? = none ∧ outer.scope = root := by
    subst hitems
    cases houter
    cases hinner
    exact ⟨⟨rfl, List.mem_cons_self⟩, rfl, rfl⟩
  obtain ⟨⟨hparent, hscope⟩, hnone, hwhole⟩ := hplaces
  have hu := hlexical [inner, outer]
    (.inside hparent (hid.symm ▸ houter) hscope (.outermost hnone hwhole)) "U" []
    (by rintro ⟨⟩ <;> decide)
  subst hitems
  refine ⟨_, outer, inner, hroot, houter, hinner, ?_, ?_, hu.trans ?_⟩
  all_goals
    cases houter
    cases hinner
  · exact (hdeclared ⟨_, hroot⟩).1 _ List.mem_cons_self []
  · refine (hdeclared' ⟨_, hroot⟩).2 _ List.mem_cons_self ?_ []
    intro type htype
    cases htype
  · rfl

end PackageTree

end InterfaceSchema
