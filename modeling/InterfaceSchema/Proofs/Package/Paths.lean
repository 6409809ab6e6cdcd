import InterfaceSchema.Proofs.Compilation.Shape
import InterfaceSchema.Proofs.Package.Preorder
import InterfaceSchema.Proofs.Package.Scoping
import InterfaceSchema.Proofs.Text.Path

namespace InterfaceSchema

theorem Word.plainSegment {name : String} (h : Word name) : Text.PlainSegment name := by
  obtain ⟨c, cs, rfl, hstart, hparts⟩ := h
  refine ⟨?_, ?_⟩
  · rw [← Text.toList_ne_nil_iff, String.toList_ofList]
    exact List.cons_ne_nil c cs
  · rw [String.toList_ofList]
    intro hslash
    have hpart : isWordPart '/' = true := by
      rcases List.mem_cons.mp hslash with rfl | hslash
      · exact isWordPart_of_isWordStart hstart
      · exact hparts '/' hslash
    exact absurd hpart (by decide +kernel)

def Event.isPathShared : Event → Bool
  | .pathShared .. => true
  | _ => false

def SharesNoPath (events : List Event) : Prop :=
  ∀ event ∈ events, event.isPathShared = false

namespace Package

variable {config : Config} {parent : Option Package} {outer : Package} {id : PackageId}
  {n : Nat} {ns : Namespace} {seen : List String} {packages : List Package} {p : Package}

theorem sharedPaths_eq_nil_iff :
    sharedPaths seen packages = [] ↔
      (packages.map path).Nodup ∧ ∀ p ∈ packages, p.path ∉ seen := by
  induction packages generalizing seen with
  | nil => simp [sharedPaths]
  | cons p packages ih =>
    rw [sharedPaths, List.forall_mem_cons, List.map_cons, List.nodup_cons]
    split
    · next hseen =>
      have hmem : p.path ∈ seen := List.contains_iff_mem.mp hseen
      exact iff_of_false (List.cons_ne_nil _ _) fun h => h.2.1 hmem
    · next hseen =>
      have hnew : p.path ∉ seen := fun hmem => hseen (List.contains_iff_mem.mpr hmem)
      rw [ih]
      constructor
      · rintro ⟨hnodup, hpaths⟩
        refine ⟨⟨fun hmem => ?_, hnodup⟩, hnew, fun q hq hmem => ?_⟩
        · obtain ⟨q, hq, heq⟩ := List.mem_map.mp hmem
          exact hpaths q hq (heq ▸ List.mem_cons_self)
        · exact hpaths q hq (List.mem_cons_of_mem _ hmem)
      · rintro ⟨⟨hfirst, hnodup⟩, -, hpaths⟩
        refine ⟨hnodup, fun q hq hmem => ?_⟩
        rcases List.mem_cons.mp hmem with heq | hmem
        · exact hfirst (heq ▸ List.mem_map_of_mem hq)
        · exact hpaths q hq hmem

theorem sharesNoPath_sharedPaths_iff :
    SharesNoPath (sharedPaths [] packages) ↔ (packages.map path).Nodup := by
  have hnil : sharedPaths [] packages = [] ↔ (packages.map path).Nodup := by
    rw [sharedPaths_eq_nil_iff]
    exact and_iff_left fun _ _ => List.not_mem_nil
  rw [← hnil, List.eq_nil_iff_forall_not_mem, SharesNoPath]
  refine forall_congr' fun event => imp_congr_right fun hevent => ?_
  obtain ⟨p, -, rfl⟩ := exists_of_mem_sharedPaths hevent
  exact iff_of_false Bool.true_eq_false.mp not_false

theorem children_of_sharesNoPath (h : SharesNoPath (layout config parent id n ns).events)
    (hp : p ∈ (layout config parent id n ns).value.packages) :
    ∃ qs : List Package, p.children = qs.map Package.id ∧ (qs.map path).Nodup ∧
      qs ⊆ (layout config parent id n ns).value.packages := by
  obtain ⟨outer, next, m, entries, -, hnext, hchildren, hsubset, hreports⟩ :=
    exists_below_of_mem_layout hp
  refine ⟨_, hchildren, ?_, fun q hq => hsubset ((mem_siblings hnext).mp hq).1⟩
  exact sharesNoPath_sharedPaths_iff.mp fun event hevent => h event (hreports hevent)

theorem sharesNoPath_layout
    (h : ∀ p ∈ (layout config parent id n ns).value.packages,
      ∀ q ∈ (layout config parent id n ns).value.packages,
        p.parent? = q.parent? → p.path = q.path → p.id = q.id) :
    SharesNoPath (layout config parent id n ns).events := by
  induction ns using Namespace.induction generalizing parent id n with
  | step ns ih =>
    have hnext := ofScope_id_lt config parent id n ns
    have hids := (counted_below config (ofScope config parent id n ns) (id + 1) (n + 1)
      ns.children.entries).nodup_ids
    rw [packages_layout] at h
    rw [events_layout]
    intro event hevent
    rcases List.mem_append.mp hevent with hevent | hevent
    · rcases List.mem_append.mp hevent with hevent | hevent
      · rcases Registry.mem_events_declare hevent with ⟨kind, name, rfl⟩ | ⟨name, rfl⟩
        all_goals rfl
      · rw [(layoutChildren_eq_flatMap config _ _ _ _).2.2] at hevent
        obtain ⟨l, hl, hevent⟩ := List.mem_flatMap.mp hevent
        obtain ⟨entry, hentry, next, m, -, rfl⟩ := exists_of_mem_layouts hl
        have hbelow := packages_subset_of_mem_layouts hl
        refine ih entry.2 (List.mem_map_of_mem hentry) (fun p hp q hq => ?_) event hevent
        exact h p (List.mem_cons_of_mem _ (hbelow hp)) q (List.mem_cons_of_mem _ (hbelow hq))
    · refine sharesNoPath_sharedPaths_iff.mpr ?_ event hevent
      refine .map_on (fun p hp q hq hpath => ?_) ((pairwise_siblings hnext).imp Precedes.ne)
      obtain ⟨hp, hparent⟩ := (mem_siblings hnext).mp hp
      obtain ⟨hq, hparent'⟩ := (mem_siblings hnext).mp hq
      refine List.inj_on_of_nodup_map hids hp hq ?_
      exact h p (List.mem_cons_of_mem _ hp) q (List.mem_cons_of_mem _ hq)
        (hparent.trans hparent'.symm) hpath

theorem path_of_bare_eq_ofRoot (h : p.bare = ofRoot config id n ns) : p.path = "" :=
  (congrArg path h :)

theorem Inside.name_eq (h : p.Inside config outer) :
    p.name = displayName config false p.scope :=
  (congrArg name h.bare_eq :)

theorem Inside.path_eq (h : p.Inside config outer) :
    p.path = Text.joinPath outer.path (Text.lowercase p.name) := by
  have hbare : p.path = Text.joinPath outer.path
      (Text.lowercase (displayName config false p.scope)) := (congrArg path h.bare_eq :)
  rw [hbare, h.name_eq]

end Package

namespace PackageTree

open Text (PlainSegment)

variable {config : Config} {root : Namespace} {p q : Package}

theorem sharesNoPath_build_iff :
    SharesNoPath (build config root).events ↔
      SharesNoPath (Package.layout config none 0 1 root).events := by
  constructor
  · intro h event hevent
    exact h event (List.mem_append_left _ (List.mem_append_left _ hevent))
  · intro h event hevent
    rcases List.mem_append.mp hevent with hevent | hevent
    · rcases List.mem_append.mp hevent with hevent | hevent
      · exact h event hevent
      · obtain ⟨p, -, hevent⟩ := List.mem_flatMap.mp hevent
        obtain ⟨reference, -, rfl⟩ := List.mem_map.mp hevent
        rfl
    · exact List.mem_singleton.mp hevent ▸ rfl

theorem children_of_sharesNoPath (h : SharesNoPath (build config root).events)
    (hp : p ∈ (build config root).value.packages) :
    ∃ qs : List Package, p.children = qs.map Package.id ∧ (qs.map Package.path).Nodup ∧
      qs ⊆ (build config root).value.packages := by
  obtain ⟨laid, hlaid, rfl⟩ := List.mem_map.mp hp
  obtain ⟨qs, hchildren, hnodup, hqs⟩ :=
    Package.children_of_sharesNoPath (sharesNoPath_build_iff.mp h) hlaid
  refine ⟨qs.map (completed config root), ?_, ?_, List.map_subset _ hqs⟩
  · rw [List.map_map]
    exact hchildren
  · rw [List.map_map]
    exact hnodup

theorem eq_of_sibling_path_eq (h : SharesNoPath (build config root).events)
    (hp : p ∈ (build config root).value.packages) (hq : q ∈ (build config root).value.packages)
    (hparent : p.parent? = q.parent?) (hpath : p.path = q.path) : p = q := by
  rcases mem_packages hp with hbare | ⟨outer, houter, hinside⟩
  · rcases mem_packages hq with hbare' | ⟨outer, -, hinside⟩
    · exact eq_of_bare_eq_ofRoot hp hq hbare hbare'
    · rw [Package.parent?_of_bare_eq_ofRoot hbare, hinside.parent?_eq] at hparent
      cases hparent
  · obtain ⟨qs, hchildren, hnodup, hqs⟩ := children_of_sharesNoPath h houter
    have hmem : ∀ x ∈ (build config root).value.packages, x.parent? = some outer.id → x ∈ qs := by
      intro x hx hparent
      have hlisted := id_mem_children (get?_id_of_mem houter) hx hparent
      obtain ⟨y, hy, hid⟩ := List.mem_map.mp (hchildren ▸ hlisted)
      exact eq_of_id_eq (hqs hy) hx hid ▸ hy
    have hp := hmem p hp hinside.parent?_eq
    have hq := hmem q hq (hparent ▸ hinside.parent?_eq)
    exact List.inj_on_of_nodup_map hnodup hp hq hpath

theorem sharesNoPath_iff :
    SharesNoPath (build config root).events ↔
      ∀ p ∈ (build config root).value.packages, ∀ q ∈ (build config root).value.packages,
        p.parent? = q.parent? → p.path = q.path → p = q := by
  constructor
  · intro h p hp q hq
    exact eq_of_sibling_path_eq h hp hq
  · intro h
    rw [sharesNoPath_build_iff]
    refine Package.sharesNoPath_layout fun p hp q hq hparent hpath => ?_
    have heq := h _ (List.mem_map_of_mem hp) _ (List.mem_map_of_mem hq) hparent hpath
    exact (congrArg Package.id heq :)

theorem sharesNoPath_of_nodup
    (h : ((build config root).value.packages.map fun p => (p.parent?, p.path)).Nodup) :
    SharesNoPath (build config root).events := by
  refine sharesNoPath_iff.mpr fun p hp q hq hparent hpath => ?_
  exact List.inj_on_of_nodup_map h hp hq (Prod.ext hparent hpath)

def PlainlyNamed (t : PackageTree) : Prop :=
  ∀ p ∈ t.packages, p.parent? ≠ none → PlainSegment p.name

theorem plainlyNamed_of_options (hroot : root.Everywhere Namespace.Titled)
    (h : ∀ p ∈ (build config root).value.packages, p.parent? ≠ none →
      ∀ name, p.scope.option? config.nameOption = some name → PlainSegment name) :
    (build config root).value.PlainlyNamed := by
  intro p hp hparent
  rcases mem_packages hp with hbare | ⟨outer, houter, hinside⟩
  · exact absurd (Package.parent?_of_bare_eq_ofRoot hbare) hparent
  · rw [hinside.name_eq, Package.displayName]
    split
    · next name hname => exact h p hp hparent name hname
    · obtain ⟨chain, hchain⟩ := exists_lineage houter
      have htitled := (hchain.everywhere (fun _ => Namespace.Titled.toIndexed) hroot).here
      have htitle := htitled.childTitle (htitled.children.contains_name hinside.scope)
      exact htitle.word.plainSegment

namespace PlainlyNamed

variable (h : (build config root).value.PlainlyNamed)
include h

theorem plainSegment {outer : Package} (hp : p ∈ (build config root).value.packages)
    (hinside : p.Inside config outer) : PlainSegment (Text.lowercase p.name) := by
  refine (h p hp ?_).lowercase
  rw [hinside.parent?_eq]
  exact Option.some_ne_none _

theorem endsPlainly_path (hp : p ∈ (build config root).value.packages) :
    Text.EndsPlainly p.path := by
  induction hp using packages_induction with
  | outermost p hp hbare =>
    rw [Package.path_of_bare_eq_ofRoot hbare]
    exact Text.endsPlainly_empty
  | inside p hp outer houter hinside ih =>
    rw [hinside.path_eq]
    exact Text.endsPlainly_joinPath ih (h.plainSegment hp hinside)

theorem path_ne_empty {outer : Package} (hp : p ∈ (build config root).value.packages)
    (houter : outer ∈ (build config root).value.packages) (hinside : p.Inside config outer) :
    p.path ≠ "" := by
  rw [hinside.path_eq]
  exact Text.joinPath_ne_empty (h.endsPlainly_path houter) (h.plainSegment hp hinside)

-- Equal paths have equal last segments and equal rests, so the packages around are the same, and
-- the two are siblings.
theorem eq_of_path_eq (hquiet : SharesNoPath (build config root).events)
    (hp : p ∈ (build config root).value.packages) (hq : q ∈ (build config root).value.packages)
    (hpath : p.path = q.path) : p = q := by
  induction hp using packages_induction generalizing q with
  | outermost p hp hbare =>
    have hempty := Package.path_of_bare_eq_ofRoot hbare
    rcases mem_packages hq with hbare' | ⟨outer, houter, hinside⟩
    · exact eq_of_bare_eq_ofRoot hp hq hbare hbare'
    · exact absurd (hpath.symm.trans hempty) (h.path_ne_empty hq houter hinside)
  | inside p hp outer houter hinside ih =>
    rcases mem_packages hq with hbare | ⟨outer', houter', hinside'⟩
    · have hempty := Package.path_of_bare_eq_ofRoot hbare
      exact absurd (hpath.trans hempty) (h.path_ne_empty hp houter hinside)
    · have hjoined := hpath
      rw [hinside.path_eq, hinside'.path_eq] at hjoined
      obtain ⟨hbase, -⟩ := Text.eq_of_joinPath_eq (h.endsPlainly_path houter)
        (h.endsPlainly_path houter') (h.plainSegment hp hinside) (h.plainSegment hq hinside')
        hjoined
      obtain rfl := ih houter' hbase
      exact eq_of_sibling_path_eq hquiet hp hq (hinside.parent?_eq.trans hinside'.parent?_eq.symm)
        hpath

end PlainlyNamed

theorem findByPath?_path {t : PackageTree} (h : (t.packages.map Package.path).Nodup)
    (hp : p ∈ t.packages) : t.findByPath? p.path = some p := by
  rw [findByPath?]
  cases hfound : t.packages.find? (·.path == p.path) with
  | none => exact absurd BEq.rfl (List.find?_eq_none.mp hfound p hp)
  | some q =>
    have hpath := List.find?_some hfound
    rw [beq_iff_eq] at hpath
    exact congrArg some (List.inj_on_of_nodup_map h (List.mem_of_find?_eq_some hfound) hp hpath)

theorem paths_identify_packages {sources : List (String × String)}
    (hroot : (compileSources sources).value = .ok root) (config : Config) :
    (SharesNoPath (build config root).events ↔
      ∀ p ∈ (build config root).value.packages, ∀ q ∈ (build config root).value.packages,
        p.parent? = q.parent? → p.path = q.path → p = q) ∧
    (SharesNoPath (build config root).events →
      (∀ p ∈ (build config root).value.packages, p.parent? ≠ none →
        ∀ name, p.scope.option? config.nameOption = some name → PlainSegment name) →
      ((build config root).value.packages.map Package.path).Nodup ∧
        ∀ p ∈ (build config root).value.packages,
          (build config root).value.findByPath? p.path = some p) := by
  refine ⟨sharesNoPath_iff, fun hquiet hoptions => ?_⟩
  have hplain := plainlyNamed_of_options (Namespace.titled_of_compileSources hroot) hoptions
  have hnodup := (nodup_packages config root).map_on fun p hp q hq =>
    hplain.eq_of_path_eq hquiet hp hq
  exact ⟨hnodup, fun p hp => findByPath?_path hnodup hp⟩

theorem paths_of_plainly_named_packages :
    ∃ root, (compileSources [("s", "namespace A\x7bnamespace b\x7b\x7d\x7d"),
        ("t", "namespace c\x7boption package \"B\"\x7d")]).value = .ok root ∧
      SharesNoPath (build .standard root).events ∧
      (build .standard root).value.packages.map Package.path = ["", "a", "a/b", "b"] ∧
      ∀ p ∈ (build .standard root).value.packages,
        (build .standard root).value.findByPath? p.path = some p := by
  have hcompile : (compileSources [("s", "namespace A\x7bnamespace b\x7b\x7d\x7d"),
      ("t", "namespace c\x7boption package \"B\"\x7d")]).value =
      .ok (Namespace.root.declareAll
        [.scope "A" [.scope "b" []], .scope "c" [.option "package" "B"]]) := by decide +kernel
  have hquiet : SharesNoPath (build .standard (Namespace.root.declareAll
      [.scope "A" [.scope "b" []], .scope "c" [.option "package" "B"]])).events :=
    sharesNoPath_of_nodup (by decide +kernel)
  have hplain : ∀ p ∈ (build .standard (Namespace.root.declareAll
      [.scope "A" [.scope "b" []], .scope "c" [.option "package" "B"]])).value.packages,
      ∀ name ∈ p.scope.option? Config.standard.nameOption, PlainSegment name := by decide +kernel
  obtain ⟨-, hfind⟩ := (paths_identify_packages hcompile .standard).2 hquiet
    fun p hp _ => hplain p hp
  exact ⟨_, hcompile, hquiet, by decide +kernel, hfind⟩

-- The path of one is that of the other because a name holds a slash, or because it is empty.
theorem shared_path_without_report :
    ∃ slashed unnamed,
      (compileSources [("s", "namespace a\x7bnamespace b\x7b\x7d\x7d"),
        ("t", "namespace c\x7boption package \"a/b\"\x7d")]).value = .ok slashed ∧
      (compileSources [("s", "namespace a\x7bnamespace b\x7boption package \"\"\x7d\x7d")]).value =
        .ok unnamed ∧
      ∀ root ∈ [slashed, unnamed], SharesNoPath (build .standard root).events ∧
        ∃ p q, p ∈ (build .standard root).value.packages ∧
          q ∈ (build .standard root).value.packages ∧ p ≠ q ∧ p.path = q.path ∧
          (build .standard root).value.findByPath? q.path = some p := by
  have hslashed : (compileSources [("s", "namespace a\x7bnamespace b\x7b\x7d\x7d"),
      ("t", "namespace c\x7boption package \"a/b\"\x7d")]).value =
      .ok (Namespace.root.declareAll
        [.scope "a" [.scope "b" []], .scope "c" [.option "package" "a/b"]]) := by decide +kernel
  have hunnamed : (compileSources
      [("s", "namespace a\x7bnamespace b\x7boption package \"\"\x7d\x7d")]).value =
      .ok (Namespace.root.declareAll [.scope "a" [.scope "b" [.option "package" ""]]]) := by
    decide +kernel
  refine ⟨_, _, hslashed, hunnamed,
    List.forall_mem_cons.mpr ⟨?_, List.forall_mem_singleton.mpr ?_⟩⟩
  · refine ⟨sharesNoPath_of_nodup (by decide +kernel), _, _, List.mem_of_getElem? (i := 2) rfl,
      List.mem_of_getElem? (i := 3) rfl, ?_, by decide +kernel, rfl⟩
    exact fun heq => absurd (congrArg Package.id heq) (by decide +kernel)
  · refine ⟨sharesNoPath_of_nodup (by decide +kernel), _, _, List.mem_of_getElem? (i := 1) rfl,
      List.mem_of_getElem? (i := 2) rfl, ?_, by decide +kernel, rfl⟩
    exact fun heq => absurd (congrArg Package.id heq) (by decide +kernel)

end PackageTree

end InterfaceSchema
