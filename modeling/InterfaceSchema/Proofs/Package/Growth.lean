import InterfaceSchema.Proofs.Package.Preorder
import InterfaceSchema.Proofs.Package.References
import InterfaceSchema.Proofs.Package.Scoping
import Mathlib.Data.List.Induction

namespace InterfaceSchema

namespace Namespace

variable {ns a b : Namespace} {path : List String} {name : String}

def DeclaresAt (ns : Namespace) (path : List String) (name : String) : Prop :=
  (ns.typeAt? path name).isSome = true ∨ (ns.enumAt? path name).isSome = true

theorem DeclaresAt.merge (ha : a.WellFormed) (hb : b.WellFormed) (h : a.DeclaresAt path name) :
    (a.merge b).DeclaresAt path name := by
  rw [DeclaresAt, merges_typeAt? path name ha hb, merges_enumAt? path name ha hb,
    Option.isSome_merge, Option.isSome_merge, Bool.or_eq_true, Bool.or_eq_true]
  exact h.imp .inl .inl

theorem declaresAt_iff {scope : Namespace} (hscope : ns.scopeAt? path = some scope)
    (hindexed : scope.Indexed) :
    ns.DeclaresAt path name ↔
      scope.declaresType name = true ∨ scope.declaresEnum name = true := by
  rw [DeclaresAt, typeAt?, enumAt?, hscope, Option.bind_some, Option.bind_some, declaresType_iff,
    declaresEnum_iff, Option.isSome_iff_exists, Option.isSome_iff_exists]
  exact or_congr (exists_congr fun _ => hindexed.types.get?_eq_some_iff)
    (exists_congr fun _ => hindexed.enums.get?_eq_some_iff)

structure NearestDeclaration (ns : Namespace) (path : List String) (name : String)
    (place : List String) : Prop where
  around : place <+: path
  declares : ns.DeclaresAt place name
  nearest : ∀ other, other <+: path → ns.DeclaresAt other name → other <+: place

namespace NearestDeclaration

theorem here (h : ns.DeclaresAt path name) : ns.NearestDeclaration path name path :=
  ⟨List.prefix_refl path, h, fun _ hother _ => hother⟩

theorem concat {place : List String} {key : String} (h : ns.NearestDeclaration path name place)
    (hkey : ¬ ns.DeclaresAt (path ++ [key]) name) :
    ns.NearestDeclaration (path ++ [key]) name place := by
  refine ⟨h.around.trans (List.prefix_append path [key]), h.declares, ?_⟩
  intro other hother hdeclares
  rcases List.prefix_concat_iff.mp hother with rfl | hother
  · exact absurd hdeclares hkey
  · exact h.nearest other hother hdeclares

end NearestDeclaration

end Namespace

theorem ResolvedType.isKnown_of_owner? {r : ResolvedType} {package : PackageId}
    (h : r.owner? = some package) : r.isKnown = true := by
  cases r with
  | record | enum => rfl
  | _ => cases h

-- Only names that are not builtin are looked up. A list or a map that lacks an argument is unknown
-- whatever the scopes are.
theorem Registry.isKnown_resolve {r r' : Registry} {scopes scopes' : List PackageId}
    (h : ∀ name, Builtin.ofWord? name = none →
      (r.resolveDeclared scopes name).isKnown = true →
        (r'.resolveDeclared scopes' name).isKnown = true)
    {type : TypeRef} (hknown : (r.resolve scopes type).isKnown = true) :
    (r'.resolve scopes' type).isKnown = true := by
  induction type using resolve_induction r scopes with
  | unit name arguments hword | time name arguments hword | data name arguments hword =>
    rw [resolve.eq_def]
    simp only [hword]
    rfl
  | list name element hword ih =>
    rw [resolve, hword]
    exact ih hknown
  | looseList | emptyMap => cases hknown
  | keyedMap =>
    rw [ResolvedType.isKnown, Bool.and_eq_true] at hknown
    cases hknown.2
  | map name key value rest hword ihkey ihvalue =>
    rw [ResolvedType.isKnown, Bool.and_eq_true] at hknown
    rw [resolve, hword]
    exact Bool.and_eq_true_iff.mpr ⟨ihkey hknown.1, ihvalue hknown.2⟩
  | simple name arguments builtin hword hother =>
    rw [resolve_of_simple hword hother]
    rfl
  | declared name arguments hword =>
    rw [resolve_of_ofWord?_eq_none hword]
    exact h name hword hknown

namespace PackageTree

variable {config : Config} {root a b : Namespace} {p q : Package} {path : List String}
  {name : String}

structure StandsAt (t : PackageTree) (root : Namespace) (path : List String) (p : Package) :
    Prop where
  listed : t.get? p.id = some p
  walked : root.walk[p.id]? = some (path, p.scope)

theorem standsAt_of_get? {i : PackageId} (hp : (build config root).value.get? i = some p)
    (hpath : (root.walk.map Prod.fst)[i]? = some path) :
    (build config root).value.StandsAt root path p := by
  obtain rfl := id_of_get? hp
  obtain ⟨place, -, hwalk⟩ := exists_site hp
  rw [List.getElem?_map, hwalk] at hpath
  obtain rfl := Option.some.inj hpath
  exact ⟨hp, hwalk⟩

theorem StandsAt.unique (hp : (build config root).value.StandsAt root path p)
    (hq : (build config root).value.StandsAt root path q) (hroot : root.WellFormed) : p = q := by
  have hpaths : (root.walk.map Prod.fst).Nodup := by
    have hordered := Namespace.pairwise_walk hroot.orderedChildren
    exact List.pairwise_map.mpr (hordered.imp fun hlt => ne_of_lt hlt)
  have hlt : p.id < (root.walk.map Prod.fst).length := by
    rw [List.length_map]
    exact (List.getElem?_eq_some_iff.mp hp.walked).1
  have hsame : (root.walk.map Prod.fst)[p.id]? = (root.walk.map Prod.fst)[q.id]? := by
    rw [List.getElem?_map, List.getElem?_map, hp.walked, hq.walked]
    rfl
  have hid := (List.getElem?_inj hlt hpaths).mp hsame
  exact eq_of_id_eq (List.mem_of_getElem? hp.listed) (List.mem_of_getElem? hq.listed) hid

theorem existsUnique_standsAt (hroot : root.WellFormed) {scope : Namespace}
    (h : root.scopeAt? path = some scope) (config : Config) :
    ∃! p, (build config root).value.StandsAt root path p := by
  have hwalk := (Namespace.mem_walk hroot.orderedChildren).mpr h
  obtain ⟨i, hi⟩ := List.mem_iff_getElem?.mp hwalk
  have hscopes := congrArg (·[i]?) (map_scope_packages config root)
  simp only [List.getElem?_map, hi, Option.map_some] at hscopes
  obtain ⟨p, hp, rfl⟩ := Option.map_eq_some_iff.mp hscopes
  obtain rfl := id_of_get? hp
  exact ⟨p, ⟨hp, hi⟩, fun q hq => hq.unique ⟨hp, hi⟩ hroot⟩

namespace StandsAt

theorem scopeAt? (h : (build config root).value.StandsAt root path p) (hroot : root.WellFormed) :
    root.scopeAt? path = some p.scope :=
  (Namespace.mem_walk hroot.orderedChildren).mp (List.mem_of_getElem? h.walked)

theorem mem_packages (h : (build config root).value.StandsAt root path p) :
    p ∈ (build config root).value.packages :=
  List.mem_of_getElem? h.listed

theorem parent?_of_nil (h : (build config root).value.StandsAt root [] p) : p.parent? = none := by
  obtain ⟨outermost, hfirst, -, hparent⟩ := exists_outermost config root
  by_cases hid : p.id = 0
  · obtain rfl := Option.some.inj (hfirst.symm.trans (hid ▸ h.listed))
    exact hparent
  · obtain ⟨_, _, _, key, -, -, -, -, hwalk, -⟩ := exists_parent h.listed hid
    rw [h.walked] at hwalk
    simp at hwalk

theorem exists_around {key : String}
    (h : (build config root).value.StandsAt root (path ++ [key]) p) :
    ∃ q, (build config root).value.StandsAt root path q ∧ p.parent? = some q.id := by
  have hid : p.id ≠ 0 := by
    intro hid
    have hwalk := h.walked
    rw [hid, Namespace.walk_eq_cons] at hwalk
    simp at hwalk
  obtain ⟨j, q, around, last, -, hparent, hq, hwalk, hwalk', -⟩ := exists_parent h.listed hid
  obtain rfl := id_of_get? hq
  rw [h.walked] at hwalk'
  obtain ⟨rfl, -⟩ : path = around ∧ key = last := by simpa using hwalk'
  exact ⟨q, ⟨hq, hwalk⟩, hparent⟩

end StandsAt

theorem owner?_of_declares (hp : p ∈ (build config root).value.packages)
    (hname : Builtin.ofWord? name = none) (arguments : List TypeRef)
    (h : p.scope.declaresType name = true ∨ p.scope.declaresEnum name = true) :
    ((build config root).value.resolve p ⟨name, arguments⟩).owner? = some p.id := by
  obtain ⟨chain, hchain⟩ := exists_lineage hp
  obtain ⟨around, rfl⟩ := hchain.exists_cons
  rw [hchain.resolve_eq hp hname, lexicalMeaning]
  split
  · rfl
  · next htype => rw [if_pos (h.resolve_left htype), ResolvedType.owner?]

theorem lexicalMeaning_cons_of_not_declares (chain : List Package)
    (h : ¬ (p.scope.declaresType name = true ∨ p.scope.declaresEnum name = true)) :
    lexicalMeaning name (p :: chain) = lexicalMeaning name chain := by
  obtain ⟨htype, henum⟩ := not_or.mp h
  rw [lexicalMeaning, if_neg htype, if_neg henum]

theorem resolve_eq_of_parent? (hp : p ∈ (build config root).value.packages)
    (hq : q ∈ (build config root).value.packages) (hparent : p.parent? = some q.id)
    (hname : Builtin.ofWord? name = none) (arguments : List TypeRef)
    (h : ¬ (p.scope.declaresType name = true ∨ p.scope.declaresEnum name = true)) :
    (build config root).value.resolve p ⟨name, arguments⟩ =
      (build config root).value.resolve q ⟨name, arguments⟩ := by
  obtain ⟨chain, hchain⟩ := exists_lineage hp
  rw [hchain.resolve_eq hp hname]
  cases hchain with
  | outermost hnone _ => cases hnone.symm.trans hparent
  | @inside _ outer chain hparent' houter _ hchain =>
    have hid := Option.some.inj (hparent'.symm.trans hparent)
    obtain rfl := eq_of_id_eq (List.mem_of_getElem? houter) hq hid
    rw [hchain.resolve_eq hq hname, lexicalMeaning_cons_of_not_declares chain h]

theorem resolve_eq_unknown (hp : p ∈ (build config root).value.packages)
    (hparent : p.parent? = none) (hname : Builtin.ofWord? name = none)
    (arguments : List TypeRef)
    (h : ¬ (p.scope.declaresType name = true ∨ p.scope.declaresEnum name = true)) :
    (build config root).value.resolve p ⟨name, arguments⟩ = .unknown := by
  obtain ⟨chain, hchain⟩ := exists_lineage hp
  rw [hchain.resolve_eq hp hname]
  cases hchain with
  | outermost => rw [lexicalMeaning_cons_of_not_declares [] h, lexicalMeaning]
  | inside hparent' => cases hparent.symm.trans hparent'

namespace StandsAt

theorem declaresAt_iff (h : (build config root).value.StandsAt root path p)
    (hroot : root.WellFormed) :
    root.DeclaresAt path name ↔
      p.scope.declaresType name = true ∨ p.scope.declaresEnum name = true :=
  Namespace.declaresAt_iff (h.scopeAt? hroot)
    (Namespace.Everywhere.of_scopeAt? hroot (h.scopeAt? hroot)).here

theorem owner?_eq (hp : (build config root).value.StandsAt root path p)
    (hroot : root.WellFormed) (hname : Builtin.ofWord? name = none) (arguments : List TypeRef)
    (h : root.DeclaresAt path name) :
    ((build config root).value.resolve p ⟨name, arguments⟩).owner? = some p.id :=
  owner?_of_declares hp.mem_packages hname arguments ((hp.declaresAt_iff hroot).mp h)

-- The induction is on the path from its end, outwards: a scope that declares the name is the
-- nearest to do so, and one that does not leaves it to the scope around.
theorem resolve_nearest (hp : (build config root).value.StandsAt root path p)
    (hroot : root.WellFormed) (hname : Builtin.ofWord? name = none) (arguments : List TypeRef) :
    (∃ place outer, root.NearestDeclaration path name place ∧
      (build config root).value.StandsAt root place outer ∧
      ((build config root).value.resolve p ⟨name, arguments⟩).owner? = some outer.id) ∨
    ((build config root).value.resolve p ⟨name, arguments⟩ = .unknown ∧
      ∀ place, place <+: path → ¬ root.DeclaresAt place name) := by
  induction path using List.reverseRecOn generalizing p with
  | nil =>
    by_cases hdeclares : root.DeclaresAt [] name
    · have howner := hp.owner?_eq hroot hname arguments hdeclares
      exact .inl ⟨[], p, .here hdeclares, hp, howner⟩
    · have hunknown := resolve_eq_unknown hp.mem_packages hp.parent?_of_nil hname arguments
        (mt (hp.declaresAt_iff hroot).mpr hdeclares)
      exact .inr ⟨hunknown, fun place hplace => List.prefix_nil.mp hplace ▸ hdeclares⟩
  | append_singleton path key ih =>
    by_cases hdeclares : root.DeclaresAt (path ++ [key]) name
    · have howner := hp.owner?_eq hroot hname arguments hdeclares
      exact .inl ⟨path ++ [key], p, .here hdeclares, hp, howner⟩
    · obtain ⟨q, hq, hparent⟩ := hp.exists_around
      rw [resolve_eq_of_parent? hp.mem_packages hq.mem_packages hparent hname arguments
        (mt (hp.declaresAt_iff hroot).mpr hdeclares)]
      rcases ih hq with ⟨place, outer, hnearest, houter, howner⟩ | ⟨hunknown, hnone⟩
      · exact .inl ⟨place, outer, hnearest.concat hdeclares, houter, howner⟩
      · refine .inr ⟨hunknown, fun place hplace => ?_⟩
        rcases List.prefix_concat_iff.mp hplace with rfl | hplace
        · exact hdeclares
        · exact hnone place hplace

theorem exists_owners_of_merge (ha : a.WellFormed) (hb : b.WellFormed)
    (hp : (build config a).value.StandsAt a path p)
    (hq : (build config (a.merge b)).value.StandsAt (a.merge b) path q)
    (hname : Builtin.ofWord? name = none) {arguments : List TypeRef}
    (hknown : ((build config a).value.resolve p ⟨name, arguments⟩).isKnown = true) :
    ∃ before outer after inner,
      (build config a).value.StandsAt a before outer ∧
      ((build config a).value.resolve p ⟨name, arguments⟩).owner? = some outer.id ∧
      (build config (a.merge b)).value.StandsAt (a.merge b) after inner ∧
      ((build config (a.merge b)).value.resolve q ⟨name, arguments⟩).owner? = some inner.id ∧
      before <+: after ∧ after <+: path := by
  rcases hp.resolve_nearest ha hname arguments with
    ⟨before, outer, hbefore, houter, howner⟩ | ⟨hunknown, -⟩
  · have hdeclares := hbefore.declares.merge ha hb
    rcases hq.resolve_nearest (ha.merge hb) hname arguments with
      ⟨after, inner, hafter, hinner, howner'⟩ | ⟨-, hnone⟩
    · exact ⟨before, outer, after, inner, houter, howner, hinner, howner',
        hafter.nearest before hbefore.around hdeclares, hafter.around⟩
    · exact absurd hdeclares (hnone before hbefore.around)
  · rw [hunknown] at hknown
    cases hknown

theorem isKnown_of_merge (ha : a.WellFormed) (hb : b.WellFormed)
    (hp : (build config a).value.StandsAt a path p)
    (hq : (build config (a.merge b)).value.StandsAt (a.merge b) path q) {type : TypeRef}
    (hknown : ((build config a).value.resolve p type).isKnown = true) :
    ((build config (a.merge b)).value.resolve q type).isKnown = true := by
  refine Registry.isKnown_resolve (fun name hname hknown => ?_) hknown
  rw [← Registry.resolve_of_ofWord?_eq_none hname _ []] at hknown ⊢
  obtain ⟨_, _, _, _, -, -, -, howner, -⟩ := hp.exists_owners_of_merge ha hb hq hname hknown
  exact ResolvedType.isKnown_of_owner? howner

end StandsAt

theorem known_after_merge {text text' : String} (ha : (parseSource text).value = .ok a)
    (hb : (parseSource text').value = .ok b) (config : Config) {scope : Namespace}
    (hscope : a.scopeAt? path = some scope) :
    (∃! p, (build config a).value.StandsAt a path p) ∧
    (∃! q, (build config (a.merge b)).value.StandsAt (a.merge b) path q) ∧
    ∀ p q, (build config a).value.StandsAt a path p →
      (build config (a.merge b)).value.StandsAt (a.merge b) path q →
      ∀ type, ((build config a).value.resolve p type).isKnown = true →
        ((build config (a.merge b)).value.resolve q type).isKnown = true ∧
        ((∀ builtin : Builtin, builtin.word ≠ type.name) →
          ∃ before outer after inner,
            (build config a).value.StandsAt a before outer ∧
            ((build config a).value.resolve p type).owner? = some outer.id ∧
            (build config (a.merge b)).value.StandsAt (a.merge b) after inner ∧
            ((build config (a.merge b)).value.resolve q type).owner? = some inner.id ∧
            before <+: after ∧ after <+: path) := by
  have ha : a.WellFormed :=
    (Namespace.titled_of_parseSource ha).imp fun _ => Namespace.Titled.toIndexed
  have hb : b.WellFormed :=
    (Namespace.titled_of_parseSource hb).imp fun _ => Namespace.Titled.toIndexed
  obtain ⟨merged, hmerged⟩ : ∃ merged, (a.merge b).scopeAt? path = some merged := by
    rw [Namespace.merges_scopeAt? path ha hb, hscope, ← Option.isSome_iff_exists,
      Option.isSome_merge, Option.isSome_some, Bool.true_or]
  refine ⟨existsUnique_standsAt ha hscope config,
    existsUnique_standsAt (ha.merge hb) hmerged config, ?_⟩
  rintro p q hp hq ⟨name, arguments⟩ hknown
  exact ⟨hp.isKnown_of_merge ha hb hq hknown, fun hname =>
    hp.exists_owners_of_merge ha hb hq (Builtin.ofWord?_eq_none hname) hknown⟩

theorem known_after_shadowing_source :
    ∃ a b p q,
      (parseSource "namespace n\x7bnamespace m\x7b\x7d\x7d type T\x7b\x7d").value = .ok a ∧
      (parseSource "namespace k\x7b\x7d namespace n\x7btype T\x7b\x7d\x7d").value = .ok b ∧
      (build .standard a).value.StandsAt a ["n", "m"] p ∧ p.id = 2 ∧
      ((build .standard a).value.resolve p ⟨"T", []⟩).owner? = some 0 ∧
      ((build .standard a).value.resolve p ⟨"list", [⟨"T", []⟩]⟩).isKnown = true ∧
      (build .standard (a.merge b)).value.StandsAt (a.merge b) ["n", "m"] q ∧ q.id = 3 ∧
      ((build .standard (a.merge b)).value.resolve q ⟨"T", []⟩).owner? = some 2 ∧
      ((build .standard (a.merge b)).value.resolve q ⟨"list", [⟨"T", []⟩]⟩).isKnown = true := by
  have ha : (parseSource "namespace n\x7bnamespace m\x7b\x7d\x7d type T\x7b\x7d").value =
      .ok (Namespace.root.declareAll [.scope "n" [.scope "m" []], .type "T" []]) := by
    decide +kernel
  have hb : (parseSource "namespace k\x7b\x7d namespace n\x7btype T\x7b\x7d\x7d").value =
      .ok (Namespace.root.declareAll [.scope "k" [], .scope "n" [.type "T" []]]) := by
    decide +kernel
  obtain ⟨-, -, hgrowth⟩ := @known_after_merge _ _ ["n", "m"] _ _ ha hb .standard _ rfl
  refine ⟨_, _, _, _, ha, hb, standsAt_of_get? (i := 2) rfl rfl, rfl, ?_, ?_,
    standsAt_of_get? (i := 3) rfl rfl, rfl, ?_, ?_⟩
  · decide +kernel
  · decide +kernel
  · decide +kernel
  · refine (hgrowth _ _ (standsAt_of_get? (i := 2) rfl rfl)
      (standsAt_of_get? (i := 3) rfl rfl) _ ?_).1
    decide +kernel

end PackageTree

end InterfaceSchema
