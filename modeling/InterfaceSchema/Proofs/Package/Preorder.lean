import InterfaceSchema.Proofs.Lists
import InterfaceSchema.Proofs.Package.Layout
import InterfaceSchema.Proofs.Schema.Denotation
import InterfaceSchema.Proofs.Schema.Walk
import Mathlib.Data.List.Chain

namespace InterfaceSchema

namespace Package

def Precedes (p q : Package) : Prop :=
  p.name < q.name ∨ p.name = q.name ∧ p.number < q.number

theorem Precedes.ne {p q : Package} (h : Precedes p q) : p ≠ q := by
  rintro rfl
  rcases h with h | ⟨-, h⟩
  · exact lt_irrefl _ h
  · exact lt_irrefl _ h

theorem siblingLe_iff {p q : Package} :
    siblingLe p q = true ↔ p.name < q.name ∨ p.name = q.name ∧ p.number ≤ q.number := by
  simp [siblingLe]

theorem siblingLe_trans (p q r : Package) (hpq : siblingLe p q = true)
    (hqr : siblingLe q r = true) : siblingLe p r = true := by
  rw [siblingLe_iff] at hpq hqr ⊢
  rcases hpq with hpq | ⟨hpq, hle⟩ <;> rcases hqr with hqr | ⟨hqr, hle'⟩
  · exact .inl (lt_trans hpq hqr)
  · exact .inl (hqr ▸ hpq)
  · exact .inl (hpq ▸ hqr)
  · exact .inr ⟨hpq.trans hqr, le_trans hle hle'⟩

theorem siblingLe_total (p q : Package) : (siblingLe p q || siblingLe q p) = true := by
  rw [Bool.or_eq_true, siblingLe_iff, siblingLe_iff]
  rcases lt_trichotomy p.name q.name with hlt | heq | hgt
  · exact .inl (.inl hlt)
  · rcases le_total p.number q.number with hle | hle
    · exact .inl (.inr ⟨heq, hle⟩)
    · exact .inr (.inr ⟨heq.symm, hle⟩)
  · exact .inr (.inl hgt)

variable {config : Config} {parent : Option Package} {outer : Package} {id next : PackageId}
  {n : Nat} {ns : Namespace} {entries : List (String × Namespace)} {p q : Package}

theorem ofScope_id_lt (config : Config) (parent : Option Package) (id : PackageId) (n : Nat)
    (ns : Namespace) : (ofScope config parent id n ns).id < id + 1 :=
  (ofScope_id config parent id n ns).trans_lt (Nat.lt_succ_self id)

theorem exists_parent_of_mem_layoutChildren (hnext : outer.id < next)
    (h : p ∈ (layoutChildren config outer next n entries).value.packages) :
    ∃ i, outer.id ≤ i ∧ p.parent? = some i := by
  rw [(layoutChildren_eq_flatMap config outer next n entries).1] at h
  obtain ⟨l, hl, hp⟩ := List.mem_flatMap.mp h
  obtain ⟨entry, -, id, m, hle, rfl⟩ := exists_of_mem_layouts hl
  rcases mem_layout hp with hbare | ⟨inner, hinner, hinside⟩
  · exact ⟨outer.id, le_refl outer.id, (congrArg parent? hbare :)⟩
  · have hid := (counted_layout config (some outer) id m entry.2).id_le hinner
    exact ⟨inner.id, ((hnext.trans_le hle).trans_le hid).le, hinside.parent?_eq⟩

theorem ids_layout_eq_filter (h : outer.id < id) :
    (layout config (some outer) id n ns).value.ids =
      ((layout config (some outer) id n ns).value.packages.filter
        (·.parent? == some outer.id)).map Package.id := by
  have hbelow : (layoutChildren config (ofScope config (some outer) id n ns) (id + 1) (n + 1)
      ns.children.entries).value.packages.filter (·.parent? == some outer.id) = [] := by
    refine List.filter_eq_nil_iff.mpr fun p hp => ?_
    obtain ⟨i, hle, hparent⟩ :=
      exists_parent_of_mem_layoutChildren (ofScope_id_lt config (some outer) id n ns) hp
    rw [ofScope_id] at hle
    rw [hparent, beq_iff_eq, Option.some.injEq]
    exact (h.trans_le hle).ne'
  rw [ids_layout, packages_layout, List.filter_cons_of_pos (by exact BEq.refl (some outer.id)),
    hbelow, List.map_singleton]
  rfl

-- The ids that the recursion returns are those of the packages whose parent is the one around.
theorem ids_layoutChildren_eq_filter (hnext : outer.id < next) :
    (layoutChildren config outer next n entries).value.ids =
      ((layoutChildren config outer next n entries).value.packages.filter
        (·.parent? == some outer.id)).map Package.id := by
  obtain ⟨hpackages, hids, -⟩ := layoutChildren_eq_flatMap config outer next n entries
  rw [hpackages, hids, List.filter_flatMap, List.map_flatMap]
  refine List.flatMap_congr fun l hl => ?_
  obtain ⟨entry, -, id, m, hle, rfl⟩ := exists_of_mem_layouts hl
  exact ids_layout_eq_filter (hnext.trans_le hle)

theorem siblings_perm (hnext : outer.id < next) :
    (layoutChildren config outer next n entries).value.siblings.Perm
      ((layoutChildren config outer next n entries).value.packages.filter
        (·.parent? == some outer.id)) := by
  have hkept := @List.filter_sublist _ (·.parent? == some outer.id)
    (layoutChildren config outer next n entries).value.packages
  have houtermost := List.filterMap_find?_map (counted_below config outer next n entries).nodup_ids
    hkept.subset
  rw [← ids_layoutChildren_eq_filter hnext] at houtermost
  exact houtermost ▸ List.mergeSort_perm _ siblingLe

theorem mem_siblings (hnext : outer.id < next) :
    q ∈ (layoutChildren config outer next n entries).value.siblings ↔
      q ∈ (layoutChildren config outer next n entries).value.packages ∧
        q.parent? = some outer.id := by
  rw [(siblings_perm hnext).mem_iff, List.mem_filter, beq_iff_eq]

theorem pairwise_siblings (hnext : outer.id < next) :
    (layoutChildren config outer next n entries).value.siblings.Pairwise Precedes := by
  have hle : (layoutChildren config outer next n entries).value.siblings.Pairwise
      fun p q => siblingLe p q = true :=
    List.pairwise_mergeSort siblingLe_trans siblingLe_total _
  have hkept := @List.filter_sublist _ (·.parent? == some outer.id)
    (layoutChildren config outer next n entries).value.packages
  have hnodup := (counted_below config outer next n entries).nodup_numbers.sublist
    (hkept.map Package.number)
  have hne := List.pairwise_map.mp (((siblings_perm hnext).map Package.number).nodup_iff.mpr hnodup)
  refine hle.imp₂ (fun {p q} hpq hnumber => ?_) hne
  rw [siblingLe_iff] at hpq
  exact hpq.imp_right fun heq => ⟨heq.1, lt_of_le_of_ne heq.2 hnumber⟩

theorem exists_below_of_mem_layout (h : p ∈ (layout config parent id n ns).value.packages) :
    ∃ outer next m entries, outer.id = p.id ∧ outer.id < next ∧
      p.children =
        (layoutChildren config outer next m entries).value.siblings.map Package.id ∧
      (layoutChildren config outer next m entries).value.packages ⊆
        (layout config parent id n ns).value.packages ∧
      sharedPaths [] (layoutChildren config outer next m entries).value.siblings ⊆
        (layout config parent id n ns).events := by
  induction ns using Namespace.induction generalizing parent id n with
  | step ns ih =>
    rw [packages_layout] at h ⊢
    rw [events_layout]
    rcases List.mem_cons.mp h with rfl | h
    · exact ⟨ofScope config parent id n ns, id + 1, n + 1, ns.children.entries, rfl,
        ofScope_id_lt config parent id n ns, rfl, List.subset_cons_self _ _,
        List.subset_append_right _ _⟩
    · obtain ⟨hpackages, -, hevents⟩ := layoutChildren_eq_flatMap config
        (ofScope config parent id n ns) (id + 1) (n + 1) ns.children.entries
      rw [hpackages] at h
      rw [hevents]
      obtain ⟨l, hl, hp⟩ := List.mem_flatMap.mp h
      obtain ⟨entry, hentry, next, m, -, rfl⟩ := exists_of_mem_layouts hl
      obtain ⟨outer, next, m, entries, hid, hnext, hchildren, hsubset, hreports⟩ :=
        ih entry.2 (List.mem_map_of_mem hentry) hp
      refine ⟨outer, next, m, entries, hid, hnext, hchildren, fun q hq => ?_,
        fun event hevent => ?_⟩
      · exact List.mem_cons_of_mem _ (packages_subset_of_mem_layouts hl (hsubset hq))
      · exact List.mem_append_left _
          (List.mem_append_right _ (List.mem_flatMap.mpr ⟨_, hl, hreports hevent⟩))

theorem map_scope_layoutChildren
    (h : ∀ entry ∈ entries, ∀ id n,
      (layout config (some outer) id n entry.2).value.packages.map Package.scope =
        entry.2.walk.map Prod.snd) :
    (layoutChildren config outer next n entries).value.packages.map Package.scope =
      (Namespace.walkBelow entries).map Prod.snd := by
  induction entries generalizing next n with
  | nil =>
    rw [layoutChildren, Namespace.walkBelow]
    rfl
  | cons entry rest ih =>
    obtain ⟨key, child⟩ := entry
    obtain ⟨hchild, hrest⟩ := List.forall_mem_cons.mp h
    rw [packages_layoutChildren_cons, List.map_append, hchild, ih hrest, Namespace.walkBelow,
      List.map_append, List.map_map]
    rfl

theorem map_scope_layout (config : Config) (parent : Option Package) (id : PackageId) (n : Nat)
    (ns : Namespace) :
    (layout config parent id n ns).value.packages.map Package.scope = ns.walk.map Prod.snd := by
  induction ns using Namespace.induction generalizing parent id n with
  | step ns ih =>
    have hbelow := @map_scope_layoutChildren config (ofScope config parent id n ns) (id + 1) (n + 1)
      ns.children.entries fun entry hentry => ih entry.2 (List.mem_map_of_mem hentry) _
    rw [packages_layout, List.map_cons, hbelow, Namespace.walk_eq_cons, List.map_cons]
    exact congrArg (· :: _) (ofScope_scope config parent id n ns)

theorem length_layout (config : Config) (parent : Option Package) (id : PackageId) (n : Nat)
    (ns : Namespace) :
    (layout config parent id n ns).value.packages.length = ns.walk.length := by
  have hlength := congrArg List.length (map_scope_layout config parent id n ns)
  rwa [List.length_map, List.length_map] at hlength

abbrev Site : Type :=
  Package × List String × Namespace

def sites (config : Config) (parent : Option Package) (id : PackageId) (n : Nat)
    (ns : Namespace) : List Site :=
  (layout config parent id n ns).value.packages.zip ns.walk

def sitesBelow (config : Config) (outer : Package) (next : PackageId) (n : Nat)
    (entries : List (String × Namespace)) : List Site :=
  (layoutChildren config outer next n entries).value.packages.zip (Namespace.walkBelow entries)

def Site.under (key : String) (x : Site) : Site :=
  (x.1, key :: x.2.1, x.2.2)

theorem sites_eq_cons (config : Config) (parent : Option Package) (id : PackageId) (n : Nat)
    (ns : Namespace) :
    sites config parent id n ns =
      ({ ofScope config parent id n ns with
        children := (layoutChildren config (ofScope config parent id n ns) (id + 1) (n + 1)
          ns.children.entries).value.siblings.map Package.id }, [], ns) ::
        sitesBelow config (ofScope config parent id n ns) (id + 1) (n + 1)
          ns.children.entries := by
  rw [sites, packages_layout, Namespace.walk_eq_cons, List.zip_cons_cons, sitesBelow]

theorem sitesBelow_cons (config : Config) (outer : Package) (next : PackageId) (n : Nat)
    (key : String) (child : Namespace) (rest : List (String × Namespace)) :
    sitesBelow config outer next n ((key, child) :: rest) =
      (sites config (some outer) next n child).map (Site.under key) ++
        sitesBelow config outer
          (next + (layout config (some outer) next n child).value.packages.length)
          (layout config (some outer) next n child).value.nextNumber rest := by
  rw [sitesBelow, packages_layoutChildren_cons, Namespace.walkBelow,
    List.zip_append (by rw [List.length_map, length_layout]), List.zip_map_right]
  rfl

theorem exists_of_mem_sitesBelow {x : Site} (h : x ∈ sitesBelow config outer next n entries) :
    ∃ entry ∈ entries, ∃ id m, next ≤ id ∧ ∃ y ∈ sites config (some outer) id m entry.2,
      x = y.under entry.1 ∧
        ∀ z ∈ sites config (some outer) id m entry.2,
          z.under entry.1 ∈ sitesBelow config outer next n entries := by
  induction entries generalizing next n with
  | nil =>
    rw [sitesBelow, Namespace.walkBelow, List.zip_nil_right] at h
    cases h
  | cons entry rest ih =>
    obtain ⟨key, child⟩ := entry
    rw [sitesBelow_cons] at h ⊢
    rcases List.mem_append.mp h with h | h
    · obtain ⟨y, hy, rfl⟩ := List.mem_map.mp h
      exact ⟨(key, child), List.mem_cons_self, next, n, le_refl next, y, hy, rfl,
        fun z hz => List.mem_append_left _ (List.mem_map_of_mem hz)⟩
    · obtain ⟨entry, hentry, id, m, hle, y, hy, rfl, hall⟩ := ih h
      exact ⟨entry, List.mem_cons_of_mem _ hentry, id, m, Nat.le_of_add_right_le hle, y, hy, rfl,
        fun z hz => List.mem_append_right _ (hall z hz)⟩

structure Site.Within (x y : Site) : Prop where
  enclosing : x.1.enclosing = y.1.scopes
  id_lt : y.1.id < x.1.id
  listed : x.1.id ∈ y.1.children
  path : ∃ key, x.2.1 = y.2.1 ++ [key] ∧ (key, x.1.scope) ∈ y.1.scope.children.entries

theorem Site.Within.parent_eq {x y : Site} (h : x.Within y) : x.1.parent? = some y.1.id := by
  rw [parent?, h.enclosing, scopes, List.head?_cons]

theorem Site.Within.under {x y : Site} (h : x.Within y) (key : String) :
    (x.under key).Within (y.under key) := by
  obtain ⟨last, hpath, hentry⟩ := h.path
  exact ⟨h.enclosing, h.id_lt, h.listed, last, congrArg (key :: ·) hpath, hentry⟩

theorem mem_sites {x : Site} (h : x ∈ sites config parent id n ns) :
    (x.1.bare = ofScope config parent id n ns ∧ x.2.1 = []) ∨
      ∃ y ∈ sites config parent id n ns, x.Within y := by
  induction ns using Namespace.induction generalizing parent id n x with
  | step ns ih =>
    rw [sites_eq_cons] at h ⊢
    rcases List.mem_cons.mp h with rfl | h
    · exact .inl ⟨bare_ofScope config parent id n ns, rfl⟩
    · right
      have hbelow := (List.of_mem_zip h).1
      have hnext := ofScope_id_lt config parent id n ns
      obtain ⟨⟨key, child⟩, hentry, next, m, hle, x, hx, rfl, hall⟩ := exists_of_mem_sitesBelow h
      rcases ih child (List.mem_map_of_mem hentry) hx with ⟨hbare, hpath⟩ | ⟨y, hy, hwithin⟩
      · have hid : x.1.id = next := (congrArg Package.id hbare :)
        have hscope : x.1.scope = child := (congrArg Package.scope hbare :)
        have henclosing : x.1.enclosing = (ofScope config parent id n ns).scopes :=
          (congrArg Package.enclosing hbare :)
        have hparent : x.1.parent? = some (ofScope config parent id n ns).id := by
          rw [parent?, henclosing, scopes, List.head?_cons]
        refine ⟨_, List.mem_cons_self, henclosing, ?_, ?_, key, ?_, ?_⟩
        · change (ofScope config parent id n ns).id < x.1.id
          rwa [ofScope_id, hid]
        · exact List.mem_map_of_mem ((mem_siblings hnext).mpr ⟨hbelow, hparent⟩)
        · exact congrArg (key :: ·) hpath
        · change (key, x.1.scope) ∈ (ofScope config parent id n ns).scope.children.entries
          rwa [ofScope_scope, hscope]
      · exact ⟨_, List.mem_cons_of_mem _ (hall y hy), hwithin.under key⟩

end Package

namespace PackageTree

open Package (Site Precedes)

variable {config : Config} {root : Namespace} {p : Package} {i : PackageId}

def completed (config : Config) (root : Namespace) (p : Package) : Package :=
  { p with
    dependencies := p.dependenciesIn
      (registryOf (Package.layout config none 0 1 root).value.packages)
      (Package.layout config none 0 1 root).value.packages }

theorem packages_build (config : Config) (root : Namespace) :
    (build config root).value.packages =
      (Package.layout config none 0 1 root).value.packages.map (completed config root) :=
  rfl

theorem map_scope_packages (config : Config) (root : Namespace) :
    (build config root).value.packages.map Package.scope = root.walk.map Prod.snd := by
  rw [← Package.map_scope_layout config none 0 1 root, packages_build, List.map_map]
  rfl

def sitesOf (config : Config) (root : Namespace) : List Site :=
  (build config root).value.packages.zip root.walk

theorem mem_sitesOf {x : Site} (h : x ∈ sitesOf config root) :
    (x.1.enclosing = [] ∧ x.1.id = 0) ∨ ∃ y ∈ sitesOf config root, x.Within y := by
  rw [sitesOf, packages_build, List.zip_map_left] at h ⊢
  obtain ⟨x, hx, rfl⟩ := List.mem_map.mp h
  rcases Package.mem_sites hx with ⟨hbare, -⟩ | ⟨y, hy, hwithin⟩
  · exact .inl ⟨(congrArg Package.enclosing hbare :), (congrArg Package.id hbare :)⟩
  · exact .inr ⟨_, List.mem_map_of_mem hy,
      hwithin.enclosing, hwithin.id_lt, hwithin.listed, hwithin.path⟩

theorem get?_of_mem_sitesOf {x : Site} (h : x ∈ sitesOf config root) :
    (build config root).value.get? x.1.id = some x.1 ∧
      root.walk[x.1.id]? = some (x.2.1, x.1.scope) := by
  obtain ⟨i, hi⟩ := List.mem_iff_getElem?.mp h
  obtain ⟨hpackage, hwalk⟩ := List.getElem?_zip_eq_some.mp hi
  obtain rfl := id_of_get? hpackage
  have hscope : x.1.scope = x.2.2 := by
    have hscopes := congrArg (·[x.1.id]?) (map_scope_packages config root)
    simpa [List.getElem?_map, hpackage, hwalk] using hscopes
  exact ⟨hpackage, hscope ▸ hwalk⟩

theorem exists_site (h : (build config root).value.get? i = some p) :
    ∃ path, (p, path, p.scope) ∈ sitesOf config root ∧
      root.walk[i]? = some (path, p.scope) := by
  have hscopes := congrArg (·[i]?) (map_scope_packages config root)
  rw [get?] at h
  simp only [List.getElem?_map, h, Option.map_some] at hscopes
  obtain ⟨⟨path, scope⟩, hwalk, rfl⟩ := Option.map_eq_some_iff.mp hscopes.symm
  exact ⟨path, List.mem_of_getElem? (List.getElem?_zip_eq_some.mpr ⟨h, hwalk⟩), hwalk⟩

theorem exists_parent (h : (build config root).value.get? i = some p) (hi : i ≠ 0) :
    ∃ j q path key, j < i ∧ p.parent? = some j ∧ (build config root).value.get? j = some q ∧
      root.walk[j]? = some (path, q.scope) ∧ root.walk[i]? = some (path ++ [key], p.scope) ∧
      (key, p.scope) ∈ q.scope.children.entries := by
  obtain rfl := id_of_get? h
  obtain ⟨path, hsite, hwalk⟩ := exists_site h
  rcases mem_sitesOf hsite with ⟨-, hid⟩ | ⟨y, hy, hwithin⟩
  · exact absurd hid hi
  · obtain ⟨hget, houter⟩ := get?_of_mem_sitesOf hy
    obtain ⟨key, rfl, hentry⟩ := hwithin.path
    exact ⟨y.1.id, y.1, y.2.1, key, hwithin.id_lt, hwithin.parent_eq, hget, houter, hwalk, hentry⟩

theorem id_mem_children {q : Package} (h : (build config root).value.get? i = some p)
    (hq : q ∈ (build config root).value.packages) (hparent : q.parent? = some i) :
    q.id ∈ p.children := by
  obtain ⟨path, hsite, -⟩ := exists_site (get?_id_of_mem hq)
  rcases mem_sitesOf hsite with ⟨henclosing, -⟩ | ⟨y, hy, hwithin⟩
  · rw [Package.parent?, henclosing] at hparent
    cases hparent
  · obtain rfl := Option.some.inj (hwithin.parent_eq.symm.trans hparent)
    obtain rfl := Option.some.inj ((get?_of_mem_sitesOf hy).1.symm.trans h)
    exact hwithin.listed

theorem exists_children (h : (build config root).value.get? i = some p) :
    ∃ qs : List Package, p.children = qs.map Package.id ∧ qs.Pairwise Precedes ∧
      ∀ q, q ∈ qs ↔ q ∈ (build config root).value.packages ∧ q.parent? = some i := by
  obtain ⟨inner, hinner, hp⟩ := List.mem_map.mp (List.mem_of_getElem? h)
  obtain ⟨outer, next, m, entries, hid, hnext, hchildren, hsubset, -⟩ :=
    Package.exists_below_of_mem_layout hinner
  generalize hqs : (Package.layoutChildren config outer next m entries).value.siblings = qs
    at hchildren
  have hlisted : p.children = (qs.map (completed config root)).map Package.id := by
    rw [← hp, List.map_map]
    exact hchildren
  have hid : outer.id = i := by
    rw [hid, ← id_of_get? h, ← hp]
  have hmem : ∀ q ∈ qs.map (completed config root),
      q ∈ (build config root).value.packages ∧ q.parent? = some i := by
    intro q hq
    obtain ⟨laid, hlaid, rfl⟩ := List.mem_map.mp hq
    obtain ⟨hmem, hparent⟩ := (Package.mem_siblings hnext).mp (hqs ▸ hlaid)
    exact ⟨List.mem_map_of_mem (hsubset hmem), hid ▸ hparent⟩
  have hsorted := hqs ▸ Package.pairwise_siblings hnext
  refine ⟨_, hlisted, List.pairwise_map.mpr hsorted, fun q => ⟨hmem q, ?_⟩⟩
  rintro ⟨hq, hparent⟩
  obtain ⟨other, hother, heq⟩ := List.mem_map.mp (hlisted ▸ id_mem_children h hq hparent)
  exact eq_of_id_eq (hmem other hother).1 hq heq ▸ hother

theorem scopes_chain (h : (build config root).value.get? i = some p) :
    p.scopes.head? = some i ∧ p.scopes.getLast? = some 0 ∧
      p.scopes.IsChain fun a b =>
        b < a ∧ ((build config root).value.get? a).bind Package.parent? = some b := by
  induction i using Nat.strongRecOn generalizing p with
  | ind i ih =>
    obtain rfl := id_of_get? h
    obtain ⟨path, hsite, -⟩ := exists_site h
    rcases mem_sitesOf hsite with ⟨henclosing, hid⟩ | ⟨y, hy, hwithin⟩
    · rw [Package.scopes, henclosing, hid]
      exact ⟨rfl, rfl, .singleton 0⟩
    · have hget := (get?_of_mem_sitesOf hy).1
      obtain ⟨hhead, hlast, hchain⟩ := ih y.1.id hwithin.id_lt hget
      rw [Package.scopes, hwithin.enclosing]
      refine ⟨rfl, ?_, List.isChain_cons.mpr ⟨?_, hchain⟩⟩
      · rw [Package.scopes, List.getLast?_cons_cons]
        exact hlast
      · intro b hb
        obtain rfl := Option.some.inj (hhead.symm.trans hb)
        refine ⟨hwithin.id_lt, ?_⟩
        rw [h]
        exact hwithin.parent_eq

structure Mirrors (t : PackageTree) (root : Namespace) : Prop where
  scopes : t.packages.map Package.scope = root.walk.map Prod.snd
  numbers : ∀ {i p}, t.get? i = some p → p.id = i ∧ p.number = i + 1
  outermost : ∃ p, t.get? 0 = some p ∧ p.scope = root ∧ p.parent? = none
  parents : ∀ {i p}, t.get? i = some p → i ≠ 0 →
    ∃ j q path key, j < i ∧ p.parent? = some j ∧ t.get? j = some q ∧
      root.walk[j]? = some (path, q.scope) ∧ root.walk[i]? = some (path ++ [key], p.scope) ∧
      (key, p.scope) ∈ q.scope.children.entries
  children : ∀ {i p}, t.get? i = some p →
    ∃ qs : List Package, p.children = qs.map Package.id ∧ qs.Pairwise Precedes ∧
      ∀ q, q ∈ qs ↔ q ∈ t.packages ∧ q.parent? = some i
  ancestors : ∀ {i p}, t.get? i = some p →
    p.scopes.head? = some i ∧ p.scopes.getLast? = some 0 ∧
      p.scopes.IsChain fun a b => b < a ∧ (t.get? a).bind Package.parent? = some b

theorem exists_outermost (config : Config) (root : Namespace) :
    ∃ p, (build config root).value.get? 0 = some p ∧ p.scope = root ∧ p.parent? = none := by
  have hfirst := congrArg (·[0]?) (packages_build config root)
  rw [Package.packages_layout] at hfirst
  exact ⟨_, hfirst, Package.ofScope_scope config none 0 1 root, rfl⟩

theorem build_mirrors (config : Config) (root : Namespace) :
    (build config root).value.Mirrors root ∧
      (root.Everywhere Namespace.OrderedChildren →
        (root.walk.Pairwise fun a b => a.1 < b.1) ∧
          ∀ path ns, (path, ns) ∈ root.walk ↔ root.scopeAt? path = some ns) := by
  constructor
  · exact
      { scopes := map_scope_packages config root
        numbers := fun h => ⟨id_of_get? h, number_of_get? h⟩
        outermost := exists_outermost config root
        parents := exists_parent
        children := exists_children
        ancestors := scopes_chain }
  · intro h
    exact ⟨Namespace.pairwise_walk h, fun path ns => Namespace.mem_walk h⟩

theorem mirrors_of_nested_scopes :
    ∃ root : Namespace, root.walk.map Prod.fst = [[], ["a"], ["b"], ["b", "c"]] ∧
      (build .standard root).value.Mirrors root ∧
      (root.walk.Pairwise fun a b => a.1 < b.1) ∧
        ∀ path ns, (path, ns) ∈ root.walk ↔ root.scopeAt? path = some ns := by
  have hsound := Namespace.sound_declareAll
    [.scope "b" [.scope "c" []], .scope "a" [.option "package" "z"]] (.ofName "root")
  have hordered := hsound.wellFormed.orderedChildren
  obtain ⟨hmirrors, hwalk⟩ := build_mirrors .standard _
  exact ⟨_, rfl, hmirrors, hwalk hordered⟩

end PackageTree

end InterfaceSchema
