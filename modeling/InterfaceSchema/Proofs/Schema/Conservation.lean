import InterfaceSchema.Proofs.Schema.Walk
import Mathlib.Algebra.GroupWithZero.Nat

namespace InterfaceSchema

namespace NameMap

variable {α : Type}

def weigh (weight : α → Nat) (m : NameMap α) : Nat :=
  (m.values.map weight).sum

theorem size_eq_weigh (m : NameMap α) : m.size = m.weigh fun _ => 1 := by
  simp [size, weigh, values, Function.comp_def]

theorem weigh_insert_of_get?_eq_none (weight : α → Nat) {m : NameMap α} {key : String}
    (h : m.get? key = none) (value : α) :
    (m.insert key value).weigh weight = m.weigh weight + weight value := by
  obtain ⟨entries⟩ := m
  simp only [weigh, values, insert, get?] at h ⊢
  induction entries with
  | nil => simp [insertEntry]
  | cons first rest ih =>
    obtain ⟨k, v⟩ := first
    rw [List.lookup_cons] at h
    split at h
    · cases h
    · next hne =>
      rw [insertEntry, if_neg (ne_of_beq_false hne)]
      split
      · simp [Nat.add_comm]
      · simp only [List.map_cons, List.sum_cons, ih h]
        omega

-- Only in an ordered map does a value take the place of the old one.
theorem Ordered.weigh_insert_of_get?_eq_some (weight : α → Nat) {m : NameMap α}
    (hm : m.Ordered) {key : String} {old : α} (h : m.get? key = some old) (value : α) :
    (m.insert key value).weigh weight + weight old = m.weigh weight + weight value := by
  obtain ⟨entries⟩ := m
  have hentries := ordered_iff.mp hm
  simp only [weigh, values, NameMap.insert, get?] at h hentries ⊢
  clear hm
  induction entries with
  | nil => cases h
  | cons first rest ih =>
    obtain ⟨k, v⟩ := first
    obtain ⟨hfirst, hrest⟩ := List.pairwise_cons.mp hentries
    rw [List.lookup_cons] at h
    split at h
    · next heq =>
      obtain rfl := eq_of_beq heq
      obtain rfl := Option.some.inj h
      simp only [insertEntry, lt_irrefl, if_false, if_true, List.map_cons, List.sum_cons]
      omega
    · next hne =>
      have hlt : k < key := hfirst (key, old) ((lookup_eq_some_iff hrest).mp h)
      have hsum := ih h hrest
      simp only [insertEntry, not_lt_of_gt hlt, ne_of_gt hlt, if_false, List.map_cons,
        List.sum_cons]
      omega

theorem Ordered.mem_keys {m : NameMap α} (h : m.Ordered) {key : String} :
    key ∈ m.keys ↔ m.contains key = true := by
  rw [keys, List.mem_map, contains_iff]
  constructor
  · rintro ⟨entry, hentry, rfl⟩
    exact ⟨entry.2, h.get?_eq_some_iff.mpr hentry⟩
  · rintro ⟨value, hvalue⟩
    exact ⟨(key, value), h.get?_eq_some_iff.mp hvalue, rfl⟩

end NameMap

def Event.dropsRpc : Event → Bool
  | rpcKept .. => true
  | _ => false

def droppedRpcs (events : List Event) : Nat :=
  events.countP Event.dropsRpc

@[simp] theorem droppedRpcs_nil : droppedRpcs [] = 0 := rfl

@[simp] theorem droppedRpcs_append (xs ys : List Event) :
    droppedRpcs (xs ++ ys) = droppedRpcs xs + droppedRpcs ys :=
  List.countP_append

theorem droppedRpcs_eq_zero_iff {events : List Event} :
    droppedRpcs events = 0 ↔ ∀ rpc scope, Event.rpcKept rpc scope ∉ events := by
  rw [droppedRpcs, List.countP_eq_zero]
  constructor
  · intro h rpc scope hmem
    exact h _ hmem rfl
  · intro h event hmem hdrops
    cases event with
    | rpcKept rpc scope => exact h rpc scope hmem
    | _ => cases hdrops

namespace Namespace

def rpcPlaces (ns : Namespace) : List (List String × String) :=
  ns.walk.flatMap fun site => site.2.rpcs.keys.map (Prod.mk site.1)

theorem rpcPlaces_eq (ns : Namespace) :
    ns.rpcPlaces = ns.rpcs.keys.map (Prod.mk []) ++
      ns.children.entries.flatMap fun entry =>
        entry.2.rpcPlaces.map (Prod.map (entry.1 :: ·) id) := by
  have hchild (entry : String × Namespace) :
      (entry.2.walk.map (Prod.map (entry.1 :: ·) id)).flatMap
          (fun site => site.2.rpcs.keys.map (Prod.mk site.1)) =
        entry.2.rpcPlaces.map (Prod.map (entry.1 :: ·) id) := by
    rw [rpcPlaces, List.flatMap_map, List.map_flatMap]
    simp [Function.comp_def]
  rw [rpcPlaces, walk_eq_cons, walkBelow_eq_flatMap, List.flatMap_cons, List.flatMap_assoc]
  simp only [hchild]

theorem rpcPlaces_congr {a b : Namespace} (hchildren : a.children = b.children)
    (hrpcs : a.rpcs = b.rpcs) : a.rpcPlaces = b.rpcPlaces := by
  rw [rpcPlaces_eq, rpcPlaces_eq b, hchildren, hrpcs]

def rpcCount (ns : Namespace) : Nat :=
  ns.rpcPlaces.length

theorem rpcCount_eq (ns : Namespace) :
    ns.rpcCount = ns.rpcs.size + ns.children.weigh rpcCount := by
  rw [rpcCount, rpcPlaces_eq]
  simp [NameMap.keys, NameMap.size, NameMap.weigh, NameMap.values, List.length_flatMap,
    Function.comp_def, rpcCount]

@[simp] theorem rpcCount_ofName (name : String) : (ofName name).rpcCount = 0 := by
  rw [rpcCount_eq]
  rfl

theorem size_foldl_addIfNew (scope : String) (rpcs : NameMap Rpc) (incoming : List Rpc) :
    (incoming.foldl (NameMap.addIfNew Rpc.name) rpcs).size +
        droppedRpcs (rpcCollisions scope rpcs incoming) =
      rpcs.size + incoming.length := by
  induction incoming generalizing rpcs with
  | nil => rfl
  | cons rpc incoming ih =>
    rw [List.foldl_cons, rpcCollisions, List.length_cons]
    split
    · next hold =>
      have hrest := ih rpcs
      rw [NameMap.addIfNew, if_pos hold]
      simp only [droppedRpcs, List.countP_cons, Event.dropsRpc] at hrest ⊢
      simp only [if_true]
      omega
    · next hnew =>
      have hnone := NameMap.not_contains_iff.mp (Bool.eq_false_iff.mpr hnew)
      have hsize : (rpcs.addIfNew Rpc.name rpc).size = rpcs.size + 1 := by
        rw [NameMap.addIfNew, if_neg hnew, NameMap.size_eq_weigh, NameMap.size_eq_weigh,
          NameMap.weigh_insert_of_get?_eq_none _ hnone]
      rw [ih, hsize]
      omega

def Conserves (child : Namespace) : Prop :=
  ∀ ⦃old : Namespace⦄, old.WellFormed →
    (old.merge child).rpcCount + droppedRpcs (old.collisions child) =
      old.rpcCount + child.rpcCount

def OrderedBelow (children : NameMap Namespace) : Prop :=
  children.Ordered ∧ ∀ {key child}, children.get? key = some child → child.WellFormed

theorem weigh_addChild {children : NameMap Namespace} {child : Namespace}
    (h : OrderedBelow children) (hchild : child.Conserves) :
    (addChild children child).weigh rpcCount + droppedRpcs (addChildEvents children child) =
      children.weigh rpcCount + child.rpcCount := by
  rw [addChild, NameMap.add, addChildEvents]
  cases hold : children.get? child.name with
  | none => exact NameMap.weigh_insert_of_get?_eq_none rpcCount hold child
  | some old =>
    have hinsert := h.1.weigh_insert_of_get?_eq_some rpcCount hold (old.merge child)
    have hmerge := hchild (h.2 hold)
    simp only at hinsert hmerge ⊢
    omega

theorem OrderedBelow.addChild {children : NameMap Namespace} {child : Namespace}
    (h : OrderedBelow children) (hchild : child.WellFormed) :
    OrderedBelow (addChild children child) := by
  refine ⟨h.1.add _ _ _, fun {key found} hfound => ?_⟩
  rw [Namespace.addChild, NameMap.get?_add] at hfound
  split at hfound
  · rw [Option.merge_eq_some_iff] at hfound
    rcases hfound with ⟨hx, hnone⟩ | ⟨-, hy⟩ | ⟨x, y, hx, hy, rfl⟩
    · cases hnone
    · exact Option.some.inj hy ▸ hchild
    · exact (h.2 hx).merge (Option.some.inj hy ▸ hchild)
  · exact h.2 hfound

theorem weigh_mergeChildren {children : NameMap Namespace} (h : OrderedBelow children)
    {entries : List (String × Namespace)}
    (hentries : ∀ entry ∈ entries, entry.2.WellFormed ∧ entry.2.Conserves) :
    (mergeChildren children entries).weigh rpcCount +
        droppedRpcs (childCollisions children entries) =
      children.weigh rpcCount + (entries.map fun entry => entry.2.rpcCount).sum := by
  rw [mergeChildren_eq_foldl]
  induction entries generalizing children with
  | nil =>
    rw [childCollisions]
    rfl
  | cons entry rest ih =>
    obtain ⟨key, child⟩ := entry
    simp only [List.mem_cons, forall_eq_or_imp] at hentries
    obtain ⟨⟨hwell, hchild⟩, hrest⟩ := hentries
    have hfirst := weigh_addChild h hchild
    have hlater := ih (h.addChild hwell) hrest
    have hevents : childCollisions children ((key, child) :: rest) =
        addChildEvents children child ++ childCollisions (addChild children child) rest := by
      rw [childCollisions, addChildEvents]
    simp only [hevents, droppedRpcs_append, List.map_cons, List.foldl_cons, List.sum_cons]
    omega

theorem WellFormed.orderedBelow {ns : Namespace} (h : ns.WellFormed) :
    OrderedBelow ns.children :=
  ⟨h.here.children.ordered, fun hchild => h.child hchild⟩

theorem WellFormed.conserves {b : Namespace} (h : b.WellFormed) : b.Conserves := by
  induction h with
  | @intro b hb hbelow ih =>
    intro a ha
    have hentries : ∀ entry ∈ b.children.entries, entry.2.WellFormed ∧ entry.2.Conserves := by
      intro entry hentry
      have hget := hb.children.ordered.get?_eq_some_iff.mpr hentry
      exact ⟨hbelow hget, ih hget⟩
    have hchildren := weigh_mergeChildren ha.orderedBelow hentries
    have hrpcs := size_foldl_addIfNew (mergedName a.name b.name) a.rpcs b.rpcs.values
    have hmerged : (a.merge b).children = mergeChildren a.children b.children.entries := by
      rw [merge_eq, mergeChildren_eq_foldl]
      rfl
    have hevents : a.collisions b = childCollisions a.children b.children.entries ++
        rpcCollisions (mergedName a.name b.name) a.rpcs b.rpcs.values := by
      cases b
      rw [collisions]
    rw [rpcCount_eq (a.merge b), rpcCount_eq a, rpcCount_eq b, hmerged, hevents,
      droppedRpcs_append, merge_eq]
    simp only [NameMap.weigh, NameMap.values, NameMap.size, List.length_map, List.map_map,
      Function.comp_def] at hchildren hrpcs ⊢
    omega

theorem nodup_rpcPlaces {ns : Namespace} (h : ns.WellFormed) : ns.rpcPlaces.Nodup := by
  rw [rpcPlaces, List.nodup_flatMap]
  constructor
  · rintro ⟨path, scope⟩ hsite
    have hscope := (mem_walk h.orderedChildren).mp hsite
    have hkeys : scope.rpcs.keys.Nodup :=
      (Everywhere.of_scopeAt? h hscope).here.rpcs.ordered.imp ne_of_lt
    exact hkeys.map fun x y hxy => (Prod.mk.inj hxy).2
  · refine (pairwise_walk h.orderedChildren).imp fun {x y} hlt => ?_
    simp only [Function.onFun, List.disjoint_left, List.mem_map, not_exists, not_and]
    rintro _ ⟨name, -, rfl⟩ other - heq
    exact ne_of_gt hlt (Prod.mk.inj heq).1

theorem mem_rpcPlaces {ns : Namespace} (h : ns.WellFormed) {path : List String} {name : String} :
    (path, name) ∈ ns.rpcPlaces ↔ (ns.rpcAt? path name).isSome = true := by
  have hkeys {scope : Namespace} (hscope : ns.scopeAt? path = some scope) :
      name ∈ scope.rpcs.keys ↔ scope.rpcs.contains name = true :=
    (Everywhere.of_scopeAt? h hscope).here.rpcs.ordered.mem_keys
  rw [rpcPlaces, List.mem_flatMap, rpcAt?]
  constructor
  · rintro ⟨⟨path, scope⟩, hsite, hplace⟩
    obtain ⟨name, hname, heq⟩ := List.mem_map.mp hplace
    obtain ⟨rfl, rfl⟩ := Prod.mk.inj heq
    have hscope := (mem_walk h.orderedChildren).mp hsite
    rw [hscope]
    exact (hkeys hscope).mp hname
  · intro hrpc
    obtain ⟨rpc, hrpc⟩ := Option.isSome_iff_exists.mp hrpc
    obtain ⟨scope, hscope, hrpc⟩ := Option.bind_eq_some_iff.mp hrpc
    refine ⟨(path, scope), (mem_walk h.orderedChildren).mpr hscope, ?_⟩
    exact List.mem_map_of_mem ((hkeys hscope).mpr (NameMap.contains_iff.mpr ⟨rpc, hrpc⟩))

theorem mem_rpcPlaces_merge {a b : Namespace} (ha : a.WellFormed) (hb : b.WellFormed)
    {place : List String × String} :
    place ∈ (a.merge b).rpcPlaces ↔ place ∈ a.rpcPlaces ∨ place ∈ b.rpcPlaces := by
  obtain ⟨path, name⟩ := place
  rw [mem_rpcPlaces (ha.merge hb), mem_rpcPlaces ha, mem_rpcPlaces hb,
    merges_rpcAt? path name ha hb, Option.isSome_merge, Bool.or_eq_true]

end Namespace

end InterfaceSchema
