import InterfaceSchema.Proofs.Package.Mangling
import InterfaceSchema.Proofs.Package.Preorder
import InterfaceSchema.Proofs.Package.References
import Mathlib.Data.Prod.Lex
import Mathlib.Logic.Relation

namespace InterfaceSchema

namespace Package

def dependencyKey (p : Package) : String ×ₗ String :=
  toLex (p.name, p.mangledId)

theorem dependencyKey_lt_iff {p q : Package} :
    p.dependencyKey < q.dependencyKey ↔
      p.name < q.name ∨ p.name = q.name ∧ p.mangledId < q.mangledId :=
  Prod.Lex.lt_iff

theorem dependencyLe_iff {p q : Package} :
    dependencyLe p q = true ↔ p.dependencyKey ≤ q.dependencyKey := by
  rw [Prod.Lex.le_iff]
  simp [dependencyLe, dependencyKey]

theorem pairwise_mergeSort_dependencyLe (packages : List Package) :
    (packages.mergeSort dependencyLe).Pairwise fun p q => p.dependencyKey ≤ q.dependencyKey := by
  have htrans (p q r : Package) (hpq : dependencyLe p q = true) (hqr : dependencyLe q r = true) :
      dependencyLe p r = true := by
    rw [dependencyLe_iff] at hpq hqr ⊢
    exact le_trans hpq hqr
  have htotal (p q : Package) : (dependencyLe p q || dependencyLe q p) = true := by
    rw [Bool.or_eq_true, dependencyLe_iff, dependencyLe_iff]
    exact le_total _ _
  exact (List.pairwise_mergeSort htrans htotal packages).imp dependencyLe_iff.mp

end Package

namespace PackageTree

def Needs (t : PackageTree) (p : Package) (q : PackageId) : Prop :=
  q ≠ p.id ∧ ∃ type, p.scope.Mentions type ∧
    ∃ name, (ResolvedType.record name q).PartOf (t.resolve p type) ∨
      (ResolvedType.enum name q).PartOf (t.resolve p type)

theorem mem_owners {t : PackageTree} {p : Package} {q : PackageId} :
    q ∈ p.owners t.registry ↔ t.Needs p q := by
  rw [Package.owners, List.mem_eraseDups, List.mem_filter, List.mem_flatMap, bne_iff_ne, and_comm,
    Needs]
  refine and_congr_right fun _ => ?_
  constructor
  · rintro ⟨reference, hreference, hq⟩
    exact ⟨reference.type, Namespace.mentions_iff.mpr ⟨reference, hreference, rfl⟩,
      ResolvedType.mem_owners.mp hq⟩
  · rintro ⟨type, htype, hq⟩
    obtain ⟨reference, hreference, rfl⟩ := Namespace.mentions_iff.mp htype
    exact ⟨reference, hreference, ResolvedType.mem_owners.mpr hq⟩

-- The packages of the ids, in the order of dependencies, whatever the order of the ids.
def arrange (t : PackageTree) (ids : List PackageId) : List Package :=
  (ids.filterMap t.get?).mergeSort Package.dependencyLe

variable {config : Config} {root : Namespace} {p : Package} {id : PackageId}

theorem get?_build (config : Config) (root : Namespace) (id : PackageId) :
    (build config root).value.get? id =
      ((Package.layout config none 0 1 root).value.packages[id]?).map (completed config root) := by
  rw [get?, packages_build, List.getElem?_map]

theorem arrange_build (config : Config) (root : Namespace) (ids : List PackageId) :
    (build config root).value.arrange ids =
      ((ids.filterMap ((Package.layout config none 0 1 root).value.packages[·]?)).mergeSort
        Package.dependencyLe).map (completed config root) := by
  have hle (p q : Package) : Package.dependencyLe p q =
      Package.dependencyLe (completed config root p) (completed config root q) := rfl
  rw [List.map_mergeSort fun p _ q _ => hle p q, List.map_filterMap, arrange]
  simp only [get?_build]

theorem dependencies_eq (h : p ∈ (build config root).value.packages) :
    p.dependencies =
      ((build config root).value.arrange
        (p.owners (build config root).value.registry)).map Package.id := by
  obtain ⟨laid, -, rfl⟩ := List.mem_map.mp h
  rw [arrange_build, List.map_map]
  rfl

section Arrange

variable {ids : List PackageId}

theorem map_id_filterMap_get? (h : ∀ q ∈ ids, ∃ x, (build config root).value.get? q = some x) :
    (ids.filterMap (build config root).value.get?).map Package.id = ids := by
  induction ids with
  | nil => rfl
  | cons q ids ih =>
    obtain ⟨⟨x, hx⟩, hids⟩ := List.forall_mem_cons.mp h
    rw [List.filterMap_cons_some hx, List.map_cons, ih hids, id_of_get? hx]

theorem perm_map_id_arrange (h : ∀ q ∈ ids, ∃ x, (build config root).value.get? q = some x) :
    (((build config root).value.arrange ids).map Package.id).Perm ids := by
  have hperm := (List.mergeSort_perm (ids.filterMap (build config root).value.get?)
    Package.dependencyLe).map Package.id
  rwa [map_id_filterMap_get? h] at hperm

theorem mem_packages_of_mem_arrange (h : p ∈ (build config root).value.arrange ids) :
    p ∈ (build config root).value.packages := by
  obtain ⟨id, -, hid⟩ := List.mem_filterMap.mp (List.mem_mergeSort.mp h)
  exact List.mem_of_getElem? hid

theorem pairwise_arrange (hnodup : ids.Nodup)
    (h : ∀ q ∈ ids, ∃ x, (build config root).value.get? q = some x) :
    ((build config root).value.arrange ids).Pairwise fun x y =>
      x.dependencyKey < y.dependencyKey := by
  have hle := Package.pairwise_mergeSort_dependencyLe
    (ids.filterMap (build config root).value.get?)
  have hne : ((build config root).value.arrange ids).Pairwise fun x y => x.id ≠ y.id :=
    List.pairwise_map.mp ((perm_map_id_arrange h).nodup_iff.mpr hnodup)
  refine (hle.and hne).imp_of_mem fun hx hy hxy => lt_of_le_of_ne hxy.1 fun hkey => hxy.2 ?_
  have hmangled := congrArg (fun key => (ofLex key).2) hkey
  rw [eq_of_mangledId_eq (mem_packages_of_mem_arrange hx) (mem_packages_of_mem_arrange hy)
    hmangled]

theorem arrange_eq_of_perm {others : List PackageId} (hnodup : ids.Nodup)
    (h : ∀ q ∈ ids, ∃ x, (build config root).value.get? q = some x) (hperm : others.Perm ids) :
    (build config root).value.arrange others = (build config root).value.arrange ids := by
  have hothers := pairwise_arrange (hperm.nodup_iff.mpr hnodup) fun q hq =>
    h q (hperm.mem_iff.mp hq)
  have hsorted : ((build config root).value.arrange others).Perm
      ((build config root).value.arrange ids) :=
    (List.mergeSort_perm _ _).trans ((hperm.filterMap _).trans (List.mergeSort_perm _ _).symm)
  exact hsorted.eq_of_pairwise (fun x y _ _ hxy hyx => absurd hxy (lt_asymm hyx)) hothers
    (pairwise_arrange hnodup h)

end Arrange

theorem exists_of_mem_scopes (h : p ∈ (build config root).value.packages) :
    ∀ q ∈ p.scopes, ∃ x, (build config root).value.get? q = some x := by
  obtain ⟨chain, hchain⟩ := exists_lineage h
  rw [hchain.scopes_eq h]
  intro q hq
  obtain ⟨x, hx, rfl⟩ := List.mem_map.mp hq
  exact ⟨x, get?_id_of_mem (hchain.mem_packages h x hx)⟩

theorem Needs.mem_enclosing {t : PackageTree} {q : PackageId} (h : t.Needs p q) :
    q ∈ p.enclosing := by
  obtain ⟨hne, type, -, howner⟩ := h
  have hscope := t.registry.owners_resolve_subset p.scopes type (ResolvedType.mem_owners.mpr howner)
  exact (List.mem_cons.mp hscope).resolve_left hne

theorem exists_of_needs (h : p ∈ (build config root).value.packages) {q : PackageId}
    (hq : (build config root).value.Needs p q) :
    ∃ x, (build config root).value.get? q = some x :=
  exists_of_mem_scopes h q (List.mem_cons_of_mem p.id hq.mem_enclosing)

theorem exists_of_mem_owners (h : p ∈ (build config root).value.packages) :
    ∀ q ∈ p.owners (build config root).value.registry,
      ∃ x, (build config root).value.get? q = some x :=
  fun _ hq => exists_of_needs h (mem_owners.mp hq)

theorem mem_dependencies (h : p ∈ (build config root).value.packages) {q : PackageId} :
    q ∈ p.dependencies ↔ (build config root).value.Needs p q := by
  rw [dependencies_eq h, (perm_map_id_arrange (exists_of_mem_owners h)).mem_iff, mem_owners]

theorem nodup_owners (registry : Registry) (p : Package) : (p.owners registry).Nodup :=
  List.nodup_eraseDups _

theorem dependencies_exact (config : Config) (root : Namespace) {id : PackageId} {p : Package}
    (hp : (build config root).value.get? id = some p) :
    (∀ q, q ∈ p.dependencies ↔ (build config root).value.Needs p q) ∧
    p.dependencies.Nodup ∧
    (∃ qs : List Package, qs.map Package.id = p.dependencies ∧
      (∀ q ∈ qs, (build config root).value.get? q.id = some q) ∧
      qs.Pairwise fun x y => x.name < y.name ∨ x.name = y.name ∧ x.mangledId < y.mangledId) ∧
    ∀ seen : List PackageId, seen.Nodup →
      (∀ q, q ∈ seen ↔ (build config root).value.Needs p q) →
        ((build config root).value.arrange seen).map Package.id = p.dependencies := by
  have hmem := List.mem_of_getElem? hp
  have howners := exists_of_mem_owners hmem
  have hnodup := nodup_owners (build config root).value.registry p
  have hlisted := dependencies_eq hmem
  refine ⟨fun q => mem_dependencies hmem, ?_, ⟨_, hlisted.symm, ?_, ?_⟩, ?_⟩
  · rw [hlisted]
    exact (perm_map_id_arrange howners).nodup_iff.mpr hnodup
  · exact fun q hq => get?_id_of_mem (mem_packages_of_mem_arrange hq)
  · exact (pairwise_arrange hnodup howners).imp Package.dependencyKey_lt_iff.mp
  · intro seen hseen hneeds
    have hperm : seen.Perm (p.owners (build config root).value.registry) :=
      (List.perm_ext_iff_of_nodup hseen hnodup).mpr fun q => (hneeds q).trans mem_owners.symm
    rw [hlisted, arrange_eq_of_perm hnodup howners hperm]

theorem dependencies_of_inner_scope :
    ∃ root p, (build .standard root).value.get? 2 = some p ∧ p.dependencies = [1, 0] ∧
      (build .standard root).value.Needs p 1 ∧ (build .standard root).value.Needs p 0 := by
  obtain ⟨root, hroot⟩ : ∃ root, Namespace.root.declareAll
      [.type "U" [], .scope "a" [.type "V" [], .scope "b" [.rpc "f" [⟨"U", []⟩] ⟨"V", []⟩]]] =
        root := ⟨_, rfl⟩
  obtain ⟨outer, middle, p, houter, hmiddle, hp⟩ : ∃ outer middle p,
      (build .standard root).value.get? 0 = some outer ∧
      (build .standard root).value.get? 1 = some middle ∧
      (build .standard root).value.get? 2 = some p := by
    subst hroot
    exact ⟨_, _, _, rfl, rfl, rfl⟩
  obtain ⟨hexact, -, -, harranged⟩ := dependencies_exact .standard root hp
  have hid : p.id = 2 := id_of_get? hp
  have henclosing : p.enclosing = [1, 0] := by
    subst hroot
    cases hp
    rfl
  have hmiddleNeeded : (build .standard root).value.Needs p 1 := by
    refine ⟨hid ▸ by decide, ⟨"V", []⟩, ?_⟩
    subst hroot
    cases hp
    exact ⟨.inr ⟨_, List.mem_cons_self, .inr List.mem_cons_self⟩, "V", .inl .whole⟩
  have houterNeeded : (build .standard root).value.Needs p 0 := by
    refine ⟨hid ▸ by decide, ⟨"U", []⟩, ?_⟩
    subst hroot
    cases hp
    exact ⟨.inr ⟨_, List.mem_cons_self, .inl List.mem_cons_self⟩, "U", .inl .whole⟩
  have hle : Package.dependencyLe middle outer = true := by
    subst hroot
    cases houter
    cases hmiddle
    decide +kernel
  refine ⟨root, p, hp, ?_, hmiddleNeeded, houterNeeded⟩
  rw [← harranged [1, 0] (by decide) ?_, arrange]
  · have hlisted : [1, 0].filterMap (build .standard root).value.get? = [middle, outer] := by
      simp [hmiddle, houter]
    rw [hlisted, List.mergeSort_of_pairwise (by simpa using hle)]
    simp [id_of_get? hmiddle, id_of_get? houter]
  · intro q
    constructor
    · intro hq
      rcases List.mem_cons.mp hq with rfl | hq
      · exact hmiddleNeeded
      · exact List.mem_singleton.mp hq ▸ houterNeeded
    · exact fun h => henclosing ▸ h.mem_enclosing

def HasParent (t : PackageTree) (inner outer : PackageId) : Prop :=
  (t.get? inner).bind Package.parent? = some outer

def DependsOn (t : PackageTree) (id other : PackageId) : Prop :=
  ∃ p, t.get? id = some p ∧ other ∈ p.dependencies

theorem lt_of_hasParent {inner outer : PackageId}
    (h : (build config root).value.HasParent inner outer) : outer < inner := by
  obtain ⟨p, hp, hparent⟩ := Option.bind_eq_some_iff.mp h
  obtain ⟨hhead, -, hchain⟩ := scopes_chain hp
  obtain ⟨around, henclosing⟩ := List.head?_eq_some_iff.mp hparent
  rw [Package.scopes, henclosing] at hchain
  obtain rfl := id_of_get? hp
  exact (List.isChain_cons_cons.mp hchain).1.1

theorem transGen_hasParent (hp : (build config root).value.get? id = some p) :
    ∀ q ∈ p.enclosing, Relation.TransGen (build config root).value.HasParent id q := by
  obtain ⟨-, -, hchain⟩ := scopes_chain hp
  obtain rfl := id_of_get? hp
  have htrans : p.scopes.IsChain (Relation.TransGen (build config root).value.HasParent) :=
    hchain.imp fun _ _ hab => .single hab.2
  exact (List.pairwise_cons.mp (List.isChain_iff_pairwise.mp htrans)).1

theorem DependsOn.transGen_hasParent {q : PackageId}
    (h : (build config root).value.DependsOn id q) :
    Relation.TransGen (build config root).value.HasParent id q := by
  obtain ⟨p, hp, hq⟩ := h
  have hneeds := (mem_dependencies (List.mem_of_getElem? hp)).mp hq
  exact PackageTree.transGen_hasParent hp q hneeds.mem_enclosing

theorem lt_of_transGen_hasParent {inner outer : PackageId}
    (h : Relation.TransGen (build config root).value.HasParent inner outer) : outer < inner := by
  induction h with
  | single h => exact lt_of_hasParent h
  | tail _ h ih => exact lt_trans (lt_of_hasParent h) ih

theorem lt_of_transGen_dependsOn {q : PackageId}
    (h : Relation.TransGen (build config root).value.DependsOn id q) : q < id := by
  induction h with
  | single h => exact lt_of_transGen_hasParent h.transGen_hasParent
  | tail _ h ih => exact lt_trans (lt_of_transGen_hasParent h.transGen_hasParent) ih

theorem dependencies_acyclic (config : Config) (root : Namespace) :
    (∀ id q, (build config root).value.DependsOn id q →
      Relation.TransGen (build config root).value.HasParent id q) ∧
    (∀ id, ¬ Relation.TransGen (build config root).value.DependsOn id id) ∧
    ∀ (i : Nat) (p : Package), (build config root).value.packages[i]? = some p →
      ∀ q ∈ p.dependencies, ∃ (j : Nat) (x : Package), j < i ∧
        (build config root).value.packages[j]? = some x ∧ x.id = q := by
  refine ⟨fun _ _ => DependsOn.transGen_hasParent, ?_, ?_⟩
  · exact fun id h => lt_irrefl id (lt_of_transGen_dependsOn h)
  · intro i p hp q hq
    have hneeds := (mem_dependencies (List.mem_of_getElem? hp)).mp hq
    obtain ⟨x, hx⟩ := exists_of_needs (List.mem_of_getElem? hp) hneeds
    exact ⟨q, x, lt_of_transGen_dependsOn (.single ⟨p, hp, hq⟩), hx, id_of_get? hx⟩

end PackageTree

end InterfaceSchema
