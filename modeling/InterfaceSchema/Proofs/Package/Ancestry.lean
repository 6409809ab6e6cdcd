import InterfaceSchema.Proofs.Package.Paths

namespace InterfaceSchema

namespace Package

variable {config : Config} {id : PackageId} {n : Nat} {ns : Namespace} {p outer : Package}

theorem importPath_of_bare_eq_ofRoot (h : p.bare = ofRoot config id n ns) :
    p.importPath = (p.scope.option? config.importOption).getD config.defaultImportPath := by
  have hscope : p.scope = ns := (congrArg scope h :)
  rw [hscope]
  exact (congrArg importPath h :)

theorem Inside.importPath_eq (h : p.Inside config outer) :
    p.importPath = (p.scope.option? config.importOption).getD
      (Text.joinPath outer.importPath (Text.lowercase p.name)) := by
  rw [h.name_eq]
  exact (congrArg importPath h.bare_eq :)

-- The chain is nearest first, and a path starts with the outermost name.
def segments (chain : List Package) : List String :=
  chain.reverse.map fun p => Text.lowercase p.name

theorem joinPath_segments_cons (base : String) (p : Package) (chain : List Package) :
    (segments (p :: chain)).foldl Text.joinPath base =
      Text.joinPath ((segments chain).foldl Text.joinPath base) (Text.lowercase p.name) := by
  simp [segments]

end Package

namespace PackageTree

open Package (segments)

variable {config : Config} {root : Namespace} {p : Package} {chain : List Package}

theorem name_eq_displayName (hp : p ∈ (build config root).value.packages) :
    p.name = Package.displayName config p.parent?.isNone p.scope := by
  rcases mem_packages hp with hbare | ⟨outer, -, hinside⟩
  · have hscope : p.scope = root := (congrArg Package.scope hbare :)
    rw [Package.parent?_of_bare_eq_ofRoot hbare, hscope]
    exact (congrArg Package.name hbare :)
  · rw [hinside.parent?_eq]
    exact hinside.name_eq

namespace Lineage

theorem path_eq (h : (build config root).value.Lineage root p chain)
    (hp : p ∈ (build config root).value.packages) :
    p.path = (segments chain.dropLast).foldl Text.joinPath "" := by
  induction h with
  | outermost hparent => exact Package.path_of_bare_eq_ofRoot (bare_of_parent?_eq_none hp hparent)
  | @inside p outer chain hparent houter _ hlineage ih =>
    obtain ⟨around, rfl⟩ := hlineage.exists_cons
    rw [(inside_of_parent? hp hparent houter).path_eq, ih (List.mem_of_getElem? houter),
      List.dropLast_cons_of_ne_nil (List.cons_ne_nil _ _), Package.joinPath_segments_cons]

theorem importPath_eq (h : (build config root).value.Lineage root p chain)
    (hp : p ∈ (build config root).value.packages) :
    ∃ inner q outer, chain = inner ++ q :: outer ∧
      (∀ x ∈ inner, x.scope.option? config.importOption = none) ∧
      (q.scope.option? config.importOption = none → outer = []) ∧
      p.importPath = (segments inner).foldl Text.joinPath
        ((q.scope.option? config.importOption).getD config.defaultImportPath) := by
  induction h with
  | @outermost p hparent =>
    exact ⟨[], p, [], rfl, nofun, fun _ => rfl,
      Package.importPath_of_bare_eq_ofRoot (bare_of_parent?_eq_none hp hparent)⟩
  | @inside p outer chain hparent houter _ _ ih =>
    have hpath := (inside_of_parent? hp hparent houter).importPath_eq
    cases hoption : p.scope.option? config.importOption with
    | some value =>
      refine ⟨[], p, chain, rfl, nofun, ?_, ?_⟩
      · intro hnone
        cases hoption.symm.trans hnone
      · rw [hpath, hoption]
        rfl
    | none =>
      obtain ⟨inner, q, around, rfl, hinner, hq, himport⟩ := ih (List.mem_of_getElem? houter)
      refine ⟨p :: inner, q, around, rfl, List.forall_mem_cons.mpr ⟨hoption, hinner⟩, hq, ?_⟩
      rw [hpath, hoption, Option.getD_none, himport, Package.joinPath_segments_cons]

theorem option?_eq (h : (build config root).value.Lineage root p chain)
    (hp : p ∈ (build config root).value.packages) (key : String) :
    (build config root).value.option? p key = chain.findSome? (·.scope.option? key) := by
  have hpackages := h.mem_packages hp
  rw [option?, h.scopes_eq hp]
  clear h hp
  induction chain with
  | nil => rfl
  | cons q chain ih =>
    obtain ⟨hq, hchain⟩ := List.forall_mem_cons.mp hpackages
    rw [List.map_cons, List.findSome?_cons, List.findSome?_cons, get?_id_of_mem hq,
      Option.bind_some, ih hchain]

end Lineage

theorem paths_follow_lineage (config : Config) (root : Namespace) {id : PackageId} {p : Package}
    (hp : (build config root).value.get? id = some p) :
    ∃ chain, (build config root).value.Lineage root p chain ∧
      p.scopes = chain.map Package.id ∧
      (∀ q ∈ chain, q.name = Package.displayName config q.parent?.isNone q.scope) ∧
      p.path = (segments chain.dropLast).foldl Text.joinPath "" ∧
      ∃ inner q outer, chain = inner ++ q :: outer ∧
        (∀ x ∈ inner, x.scope.option? config.importOption = none) ∧
        (q.scope.option? config.importOption = none → outer = []) ∧
        (build config root).value.option? p config.importOption =
          q.scope.option? config.importOption ∧
        p.importPath = (segments inner).foldl Text.joinPath
          ((q.scope.option? config.importOption).getD config.defaultImportPath) := by
  have hmem := List.mem_of_getElem? hp
  obtain ⟨chain, hlineage⟩ := exists_lineage hmem
  obtain ⟨inner, q, outer, rfl, hinner, hq, himport⟩ := hlineage.importPath_eq hmem
  refine ⟨_, hlineage, hlineage.scopes_eq hmem, ?_, hlineage.path_eq hmem,
    inner, q, outer, rfl, hinner, hq, ?_, himport⟩
  · exact fun x hx => name_eq_displayName (hlineage.mem_packages hmem x hx)
  · rw [hlineage.option?_eq hmem, List.findSome?_append, List.findSome?_eq_none_iff.mpr hinner,
      Option.none_or, List.findSome?_cons]
    cases hvalue : q.scope.option? config.importOption with
    | some value => rfl
    | none => rw [hq hvalue, List.findSome?_nil]

theorem paths_below_import_option :
    ∃ root p chain, Namespace.root.declareAll
        [.scope "A" [.option "import" "x//", .scope "B" [.scope "c" [.option "package" ""]]]] =
          root ∧
      (build .standard root).value.get? 3 = some p ∧
      (build .standard root).value.Lineage root p chain ∧ chain.map Package.id = [3, 2, 1, 0] ∧
      p.path = (segments chain.dropLast).foldl Text.joinPath "" ∧ p.path = "a/b" ∧
      (build .standard root).value.option? p "import" = some "x//" ∧ p.importPath = "x/b" := by
  obtain ⟨root, hroot⟩ : ∃ root, Namespace.root.declareAll
      [.scope "A" [.option "import" "x//", .scope "B" [.scope "c" [.option "package" ""]]]] =
        root := ⟨_, rfl⟩
  obtain ⟨p, hp, hscopes, hpath, hoption, himport⟩ : ∃ p,
      (build .standard root).value.get? 3 = some p ∧ p.scopes = [3, 2, 1, 0] ∧ p.path = "a/b" ∧
      (build .standard root).value.option? p "import" = some "x//" ∧ p.importPath = "x/b" := by
    subst hroot
    exact ⟨_, rfl, rfl, by decide +kernel, by decide +kernel, by decide +kernel⟩
  obtain ⟨chain, hlineage, hchain, -, hjoined, -⟩ := paths_follow_lineage .standard root hp
  exact ⟨root, p, chain, hroot, hp, hlineage, hchain.symm.trans hscopes, hjoined, hpath, hoption,
    himport⟩

end PackageTree

end InterfaceSchema
