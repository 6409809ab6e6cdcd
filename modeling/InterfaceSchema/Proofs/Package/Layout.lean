import InterfaceSchema.Package.Tree
import Mathlib.Data.List.Nodup

namespace InterfaceSchema

theorem NameMap.sizeOf_lt_of_mem_values {α : Type} [SizeOf α] {m : NameMap α} {value : α}
    (h : value ∈ m.values) : sizeOf value < sizeOf m := by
  obtain ⟨⟨key, value⟩, hentry, rfl⟩ := List.mem_map.mp h
  have hlt := List.sizeOf_lt_of_mem hentry
  cases m
  simp only [Prod.mk.sizeOf_spec, NameMap.mk.sizeOf_spec] at hlt ⊢
  omega

@[elab_as_elim] theorem Namespace.induction {P : Namespace → Prop}
    (step : ∀ ns, (∀ child ∈ ns.children.values, P child) → P ns) (ns : Namespace) : P ns :=
  step ns fun child hchild =>
    have : sizeOf child < sizeOf ns := by
      have hlt := NameMap.sizeOf_lt_of_mem_values hchild
      cases ns
      simp only [Namespace.mk.sizeOf_spec] at hlt ⊢
      omega
    Namespace.induction step child
termination_by sizeOf ns

namespace Package

variable {config : Config} {parent : Option Package} {outer : Package} {id next : PackageId}
  {n : Nat} {ns : Namespace} {entries : List (String × Namespace)} {p : Package}

theorem packages_layout (config : Config) (parent : Option Package) (id : PackageId) (n : Nat)
    (ns : Namespace) :
    (layout config parent id n ns).value.packages =
      { ofScope config parent id n ns with
        children := (layoutChildren config (ofScope config parent id n ns) (id + 1) (n + 1)
          ns.children.entries).value.siblings.map Package.id } ::
        (layoutChildren config (ofScope config parent id n ns) (id + 1) (n + 1)
          ns.children.entries).value.packages := by
  cases ns
  rw [layout]

theorem ids_layout (config : Config) (parent : Option Package) (id : PackageId) (n : Nat)
    (ns : Namespace) : (layout config parent id n ns).value.ids = [id] := by
  cases ns
  rw [layout]

theorem nextNumber_layout (config : Config) (parent : Option Package) (id : PackageId) (n : Nat)
    (ns : Namespace) :
    (layout config parent id n ns).value.nextNumber =
      (layoutChildren config (ofScope config parent id n ns) (id + 1) (n + 1)
        ns.children.entries).value.nextNumber := by
  cases ns
  rw [layout]

theorem events_layout (config : Config) (parent : Option Package) (id : PackageId) (n : Nat)
    (ns : Namespace) :
    (layout config parent id n ns).events =
      (Registry.empty.declare id (ofScope config parent id n ns).name ns).events ++
        (layoutChildren config (ofScope config parent id n ns) (id + 1) (n + 1)
          ns.children.entries).events ++
        sharedPaths [] (layoutChildren config (ofScope config parent id n ns) (id + 1) (n + 1)
          ns.children.entries).value.siblings := by
  cases ns
  rw [layout]

theorem packages_layoutChildren_cons (config : Config) (outer : Package) (next : PackageId)
    (n : Nat) (key : String) (child : Namespace) (rest : List (String × Namespace)) :
    (layoutChildren config outer next n ((key, child) :: rest)).value.packages =
      (layout config (some outer) next n child).value.packages ++
        (layoutChildren config outer
          (next + (layout config (some outer) next n child).value.packages.length)
          (layout config (some outer) next n child).value.nextNumber rest).value.packages := by
  rw [layoutChildren]

theorem ofScope_id (config : Config) (parent : Option Package) (id : PackageId) (n : Nat)
    (ns : Namespace) : (ofScope config parent id n ns).id = id := by
  cases parent <;> rfl

theorem ofScope_number (config : Config) (parent : Option Package) (id : PackageId) (n : Nat)
    (ns : Namespace) : (ofScope config parent id n ns).number = n := by
  cases parent <;> rfl

theorem ofScope_scope (config : Config) (parent : Option Package) (id : PackageId) (n : Nat)
    (ns : Namespace) : (ofScope config parent id n ns).scope = ns := by
  cases parent <;> rfl

structure Counted (l : Laid) (id : PackageId) (n : Nat) : Prop where
  ids : l.packages.map Package.id = List.range' id l.packages.length
  numbers : l.packages.map Package.number = List.range' n l.packages.length
  nextNumber : l.nextNumber = n + l.packages.length

theorem counted_layoutChildren
    (h : ∀ entry ∈ entries, ∀ id n, Counted (layout config (some outer) id n entry.2).value id n) :
    Counted (layoutChildren config outer next n entries).value next n := by
  induction entries generalizing next n with
  | nil =>
    rw [layoutChildren]
    exact ⟨rfl, rfl, rfl⟩
  | cons entry rest ih =>
    obtain ⟨key, child⟩ := entry
    obtain ⟨hchild, hrest⟩ := List.forall_mem_cons.mp h
    have hfirst : Counted (layout config (some outer) next n child).value next n := hchild next n
    have hothers := @ih
      (next + (layout config (some outer) next n child).value.packages.length)
      (n + (layout config (some outer) next n child).value.packages.length) hrest
    rw [layoutChildren]
    simp only [hfirst.nextNumber]
    refine ⟨?_, ?_, ?_⟩
    · simp only [List.map_append, hfirst.ids, hothers.ids, List.length_append,
        List.range'_append_1]
    · simp only [List.map_append, hfirst.numbers, hothers.numbers, List.length_append,
        List.range'_append_1]
    · simp only [hothers.nextNumber, List.length_append, Nat.add_assoc]

theorem counted_layout (config : Config) (parent : Option Package) (id : PackageId) (n : Nat)
    (ns : Namespace) : Counted (layout config parent id n ns).value id n := by
  induction ns using Namespace.induction generalizing parent id n with
  | step ns ih =>
    have hbelow := @counted_layoutChildren config (ofScope config parent id n ns) (id + 1) (n + 1)
      ns.children.entries fun entry hentry => ih entry.2 (List.mem_map_of_mem hentry) _
    refine ⟨?_, ?_, ?_⟩
    · rw [packages_layout, List.map_cons, List.length_cons, hbelow.ids, List.range'_succ]
      exact congrArg (· :: _) (ofScope_id config parent id n ns)
    · rw [packages_layout, List.map_cons, List.length_cons, hbelow.numbers, List.range'_succ]
      exact congrArg (· :: _) (ofScope_number config parent id n ns)
    · rw [nextNumber_layout, packages_layout, hbelow.nextNumber, List.length_cons]
      omega

theorem counted_below (config : Config) (outer : Package) (next : PackageId) (n : Nat)
    (entries : List (String × Namespace)) :
    Counted (layoutChildren config outer next n entries).value next n :=
  counted_layoutChildren fun entry _ id n => counted_layout config (some outer) id n entry.2

namespace Counted

variable {l : Laid}

theorem nodup_ids (h : Counted l id n) : (l.packages.map Package.id).Nodup :=
  h.ids ▸ List.nodup_range'

theorem nodup_numbers (h : Counted l id n) : (l.packages.map Package.number).Nodup :=
  h.numbers ▸ List.nodup_range'

theorem id_le (h : Counted l id n) (hp : p ∈ l.packages) : id ≤ p.id := by
  have hid : p.id ∈ List.range' id l.packages.length := h.ids ▸ List.mem_map_of_mem hp
  exact (List.mem_range'_1.mp hid).1

end Counted

-- The layouts of the children, each from its own id and number.
def layouts (config : Config) (outer : Package) (next : PackageId) (n : Nat) :
    List (String × Namespace) → List (Logged Laid)
  | [] => []
  | (_, child) :: rest =>
      let first := layout config (some outer) next n child
      first ::
        layouts config outer (next + first.value.packages.length) first.value.nextNumber rest

theorem layoutChildren_eq_flatMap (config : Config) (outer : Package) (next : PackageId) (n : Nat)
    (entries : List (String × Namespace)) :
    (layoutChildren config outer next n entries).value.packages =
        (layouts config outer next n entries).flatMap (·.value.packages) ∧
      (layoutChildren config outer next n entries).value.ids =
        (layouts config outer next n entries).flatMap (·.value.ids) ∧
      (layoutChildren config outer next n entries).events =
        (layouts config outer next n entries).flatMap Logged.events := by
  induction entries generalizing next n with
  | nil =>
    rw [layoutChildren]
    exact ⟨rfl, rfl, rfl⟩
  | cons entry rest ih =>
    obtain ⟨hpackages, hids, hevents⟩ := ih
      (next + (layout config (some outer) next n entry.2).value.packages.length)
      (layout config (some outer) next n entry.2).value.nextNumber
    rw [layoutChildren, layouts]
    simp only [List.flatMap_cons, hpackages, hids, hevents, and_self]

theorem exists_of_mem_layouts {l : Logged Laid} (h : l ∈ layouts config outer next n entries) :
    ∃ entry ∈ entries, ∃ id m, next ≤ id ∧ l = layout config (some outer) id m entry.2 := by
  induction entries generalizing next n with
  | nil => cases h
  | cons entry rest ih =>
    rcases List.mem_cons.mp h with rfl | h
    · exact ⟨entry, List.mem_cons_self, next, n, Nat.le_refl next, rfl⟩
    · obtain ⟨other, hother, id, m, hle, rfl⟩ := ih h
      exact ⟨other, List.mem_cons_of_mem _ hother, id, m, Nat.le_of_add_right_le hle, rfl⟩

theorem packages_subset_of_mem_layouts {l : Logged Laid}
    (h : l ∈ layouts config outer next n entries) :
    l.value.packages ⊆ (layoutChildren config outer next n entries).value.packages := by
  intro p hp
  rw [(layoutChildren_eq_flatMap config outer next n entries).1]
  exact List.mem_flatMap.mpr ⟨l, h, hp⟩

theorem exists_of_mem_sharedPaths {event : Event} {seen : List String} {packages : List Package}
    (h : event ∈ sharedPaths seen packages) :
    ∃ p ∈ packages, event = .pathShared p.name p.path := by
  induction packages generalizing seen with
  | nil => cases h
  | cons p packages ih =>
    rw [sharedPaths] at h
    split at h
    · rcases List.mem_cons.mp h with rfl | h
      · exact ⟨p, List.mem_cons_self, rfl⟩
      · obtain ⟨q, hq, rfl⟩ := ih h
        exact ⟨q, List.mem_cons_of_mem p hq, rfl⟩
    · obtain ⟨q, hq, rfl⟩ := ih h
      exact ⟨q, List.mem_cons_of_mem p hq, rfl⟩

def bare (p : Package) : Package :=
  { p with children := [], dependencies := [] }

theorem bare_withChildren (p : Package) (children : List PackageId) :
    bare { p with children := children } = p.bare :=
  rfl

theorem bare_withDependencies (p : Package) (dependencies : List PackageId) :
    bare { p with dependencies := dependencies } = p.bare :=
  rfl

theorem bare_ofScope (config : Config) (parent : Option Package) (id : PackageId) (n : Nat)
    (ns : Namespace) : (ofScope config parent id n ns).bare = ofScope config parent id n ns := by
  cases parent with
  | none => simp only [ofScope, ofRoot, bare]
  | some outer => simp only [ofScope, ofChild, bare]

theorem ofChild_bare (config : Config) (outer : Package) (id : PackageId) (n : Nat)
    (ns : Namespace) : ofChild config outer.bare id n ns = ofChild config outer id n ns := by
  simp only [ofChild, bare, scopes]

structure Inside (config : Config) (p outer : Package) : Prop where
  scope : p.scope ∈ outer.scope.children.values
  bare_eq : p.bare = ofChild config outer p.id p.number p.scope

theorem Inside.of_bare_eq (h : p.bare = ofChild config outer id n ns)
    (hns : ns ∈ outer.scope.children.values) : p.Inside config outer := by
  have hid : p.id = id := congrArg Package.id h
  have hnumber : p.number = n := congrArg Package.number h
  have hscope : p.scope = ns := congrArg Package.scope h
  subst hid hnumber hscope
  exact ⟨hns, h⟩

theorem Inside.congr {q inner : Package} (h : p.Inside config outer) (hp : inner.bare = p.bare)
    (houter : q.bare = outer.bare) : inner.Inside config q := by
  have hscope : q.bare.scope = outer.bare.scope := congrArg Package.scope houter
  have hbare : inner.bare = ofChild config q p.id p.number p.scope := by
    rw [hp, h.bare_eq, ← ofChild_bare config q, houter, ofChild_bare]
  refine .of_bare_eq hbare ?_
  change p.scope ∈ q.bare.scope.children.values
  exact hscope ▸ h.scope

theorem Inside.enclosing_eq (h : p.Inside config outer) : p.enclosing = outer.scopes := by
  have hbare : p.bare.enclosing = outer.scopes := congrArg Package.enclosing h.bare_eq
  exact hbare

theorem Inside.parent?_eq (h : p.Inside config outer) : p.parent? = some outer.id := by
  rw [parent?, h.enclosing_eq, scopes, List.head?_cons]

theorem parent?_of_bare_eq_ofRoot (h : p.bare = ofRoot config id n ns) : p.parent? = none :=
  (congrArg parent? h :)

theorem mem_layout (h : p ∈ (layout config parent id n ns).value.packages) :
    p.bare = ofScope config parent id n ns ∨
      ∃ outer ∈ (layout config parent id n ns).value.packages, p.Inside config outer := by
  induction ns using Namespace.induction generalizing parent id n with
  | step ns ih =>
    have hfirst := bare_withChildren (ofScope config parent id n ns)
      ((layoutChildren config (ofScope config parent id n ns) (id + 1) (n + 1)
        ns.children.entries).value.siblings.map Package.id)
    rw [packages_layout] at h ⊢
    rcases List.mem_cons.mp h with rfl | h
    · exact .inl (hfirst.trans (bare_ofScope config parent id n ns))
    · right
      rw [(layoutChildren_eq_flatMap config _ _ _ _).1] at h
      obtain ⟨l, hl, hp⟩ := List.mem_flatMap.mp h
      obtain ⟨entry, hentry, next, m, -, rfl⟩ := exists_of_mem_layouts hl
      have hchild : entry.2 ∈ ns.children.values := List.mem_map_of_mem hentry
      rcases ih entry.2 hchild hp with hbare | ⟨outer, houter, hinside⟩
      · have hinside : p.Inside config (ofScope config parent id n ns) :=
          .of_bare_eq hbare ((ofScope_scope config parent id n ns).symm ▸ hchild)
        exact ⟨_, List.mem_cons_self, hinside.congr rfl hfirst⟩
      · have houter := packages_subset_of_mem_layouts hl houter
        exact ⟨outer, List.mem_cons_of_mem _ houter, hinside⟩

end Package

namespace PackageTree

variable {config : Config} {root : Namespace} {p : Package}

theorem map_id_packages (config : Config) (root : Namespace) :
    (build config root).value.packages.map Package.id =
      List.range (build config root).value.packages.length := by
  have hlaid := (Package.counted_layout config none 0 1 root).ids
  rw [build, List.map_map, List.length_map, List.range_eq_range']
  exact hlaid

theorem map_number_packages (config : Config) (root : Namespace) :
    (build config root).value.packages.map Package.number =
      List.range' 1 (build config root).value.packages.length := by
  have hlaid := (Package.counted_layout config none 0 1 root).numbers
  rw [build, List.map_map, List.length_map]
  exact hlaid

theorem nodup_packages (config : Config) (root : Namespace) :
    (build config root).value.packages.Nodup := by
  have hids := map_id_packages config root ▸ List.nodup_range
  exact .of_map Package.id hids

theorem getElem?_map_packages {t : PackageTree} {id : PackageId} (h : t.get? id = some p)
    (f : Package → Nat) : (t.packages.map f)[id]? = some (f p) := by
  rw [List.getElem?_map, ← get?, h]
  rfl

theorem id_of_get? {id : PackageId} (h : (build config root).value.get? id = some p) :
    p.id = id := by
  have hid := getElem?_map_packages h Package.id
  obtain ⟨hlt, -⟩ := List.getElem?_eq_some_iff.mp h
  rw [map_id_packages, List.getElem?_range hlt] at hid
  exact (Option.some.inj hid).symm

theorem number_of_get? {id : PackageId} (h : (build config root).value.get? id = some p) :
    p.number = id + 1 := by
  have hnumber := getElem?_map_packages h Package.number
  obtain ⟨hlt, -⟩ := List.getElem?_eq_some_iff.mp h
  rw [map_number_packages, List.getElem?_range' hlt, Option.some.injEq] at hnumber
  omega

theorem get?_id_of_mem (h : p ∈ (build config root).value.packages) :
    (build config root).value.get? p.id = some p := by
  obtain ⟨id, hid⟩ := List.mem_iff_getElem?.mp h
  rwa [id_of_get? hid]

theorem eq_of_id_eq {q : Package} (hp : p ∈ (build config root).value.packages)
    (hq : q ∈ (build config root).value.packages) (h : p.id = q.id) : p = q :=
  Option.some.inj ((get?_id_of_mem hp).symm.trans (h ▸ get?_id_of_mem hq))

theorem eq_of_number_eq {q : Package} (hp : p ∈ (build config root).value.packages)
    (hq : q ∈ (build config root).value.packages) (h : p.number = q.number) : p = q := by
  rw [number_of_get? (get?_id_of_mem hp), number_of_get? (get?_id_of_mem hq)] at h
  exact eq_of_id_eq hp hq (Nat.succ.inj h)

theorem eq_of_bare_eq_ofRoot {q : Package} (hp : p ∈ (build config root).value.packages)
    (hq : q ∈ (build config root).value.packages) (h : p.bare = .ofRoot config 0 1 root)
    (h' : q.bare = .ofRoot config 0 1 root) : p = q :=
  eq_of_id_eq hp hq (congrArg Package.id (h.trans h'.symm) :)

-- The chain is the package and those around it, nearest first, by their parents and up to the root.
inductive Lineage (t : PackageTree) (root : Namespace) : Package → List Package → Prop
  | outermost {p : Package} : p.parent? = none → p.scope = root → Lineage t root p [p]
  | inside {p outer : Package} {chain : List Package} :
      p.parent? = some outer.id → t.get? outer.id = some outer →
      p.scope ∈ outer.scope.children.values → Lineage t root outer chain →
      Lineage t root p (p :: chain)

theorem mem_packages (h : p ∈ (build config root).value.packages) :
    p.bare = .ofRoot config 0 1 root ∨
      ∃ outer ∈ (build config root).value.packages, p.Inside config outer := by
  obtain ⟨q, hq, rfl⟩ := List.mem_map.mp h
  rcases Package.mem_layout hq with hbare | ⟨outer, houter, hinside⟩
  · exact .inl ((Package.bare_withDependencies q _).trans hbare)
  · refine .inr ⟨_, List.mem_map_of_mem houter, ?_⟩
    exact hinside.congr (Package.bare_withDependencies q _)
      (Package.bare_withDependencies outer _)

theorem bare_of_parent?_eq_none (hp : p ∈ (build config root).value.packages)
    (h : p.parent? = none) : p.bare = .ofRoot config 0 1 root := by
  rcases mem_packages hp with hbare | ⟨outer, -, hinside⟩
  · exact hbare
  · cases hinside.parent?_eq.symm.trans h

theorem inside_of_parent? {outer : Package} (hp : p ∈ (build config root).value.packages)
    (h : p.parent? = some outer.id)
    (houter : (build config root).value.get? outer.id = some outer) : p.Inside config outer := by
  rcases mem_packages hp with hbare | ⟨other, hother, hinside⟩
  · cases (Package.parent?_of_bare_eq_ofRoot hbare).symm.trans h
  · have hid : other.id = outer.id := Option.some.inj (hinside.parent?_eq.symm.trans h)
    exact eq_of_id_eq hother (List.mem_of_getElem? houter) hid ▸ hinside

-- The induction is on the packages around, so that it follows the parents up to the outermost.
@[elab_as_elim] theorem packages_induction
    {P : ∀ p : Package, p ∈ (build config root).value.packages → Prop}
    (outermost : ∀ p hp, p.bare = .ofRoot config 0 1 root → P p hp)
    (inside : ∀ p hp outer houter, p.Inside config outer → P outer houter → P p hp)
    (h : p ∈ (build config root).value.packages) : P p h := by
  induction henclosing : p.enclosing generalizing p with
  | nil =>
    rcases mem_packages h with hbare | ⟨outer, -, hinside⟩
    · exact outermost p h hbare
    · rw [hinside.enclosing_eq] at henclosing
      cases henclosing
  | cons id enclosing ih =>
    rcases mem_packages h with hbare | ⟨outer, houter, hinside⟩
    · exact outermost p h hbare
    · obtain ⟨-, rfl⟩ := List.cons.inj (hinside.enclosing_eq.symm.trans henclosing)
      exact inside p h outer houter hinside (ih houter rfl)

theorem exists_lineage (h : p ∈ (build config root).value.packages) :
    ∃ chain, (build config root).value.Lineage root p chain := by
  induction h using packages_induction with
  | outermost p hp hbare =>
    have hscope : p.bare.scope = root := congrArg Package.scope hbare
    exact ⟨[p], .outermost (Package.parent?_of_bare_eq_ofRoot hbare) hscope⟩
  | inside p hp outer houter hinside ih =>
    obtain ⟨chain, hchain⟩ := ih
    exact ⟨p :: chain,
      .inside hinside.parent?_eq (get?_id_of_mem houter) hinside.scope hchain⟩

namespace Lineage

variable {chain : List Package}

theorem mem_packages {t : PackageTree} (h : t.Lineage root p chain) (hp : p ∈ t.packages) :
    ∀ q ∈ chain, q ∈ t.packages := by
  induction h with
  | outermost => exact List.forall_mem_singleton.mpr hp
  | inside _ houter _ _ ih =>
    exact List.forall_mem_cons.mpr ⟨hp, ih (List.mem_of_getElem? houter)⟩

theorem exists_cons {t : PackageTree} (h : t.Lineage root p chain) :
    ∃ around, chain = p :: around := by
  cases h with
  | outermost => exact ⟨[], rfl⟩
  | inside => exact ⟨_, rfl⟩

theorem scopes_eq (h : (build config root).value.Lineage root p chain)
    (hp : p ∈ (build config root).value.packages) : p.scopes = chain.map Package.id := by
  induction h with
  | outermost hparent =>
    rw [Package.scopes, List.head?_eq_none_iff.mp hparent, List.map_singleton]
  | @inside p outer chain hparent houter _ _ ih =>
    rw [Package.scopes, (inside_of_parent? hp hparent houter).enclosing_eq,
      ih (List.mem_of_getElem? houter), List.map_cons]

end Lineage

end PackageTree

end InterfaceSchema
