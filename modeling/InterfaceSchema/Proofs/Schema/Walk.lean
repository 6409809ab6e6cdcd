import InterfaceSchema.Proofs.Schema.Lookup

namespace InterfaceSchema

namespace Namespace

mutual

def walk : Namespace → List (List String × Namespace)
  | ns@⟨_, ⟨children⟩, _, _, _, _⟩ => ([], ns) :: walkBelow children

def walkBelow : List (String × Namespace) → List (List String × Namespace)
  | [] => []
  | (key, child) :: rest => child.walk.map (Prod.map (key :: ·) id) ++ walkBelow rest

end

theorem walk_eq_cons (ns : Namespace) : ns.walk = ([], ns) :: walkBelow ns.children.entries := by
  cases ns
  rw [walk]

theorem walkBelow_eq_flatMap (entries : List (String × Namespace)) :
    walkBelow entries =
      entries.flatMap fun entry => entry.2.walk.map (Prod.map (entry.1 :: ·) id) := by
  induction entries with
  | nil => rw [walkBelow, List.flatMap_nil]
  | cons entry rest ih => rw [walkBelow, ih, List.flatMap_cons]

def OrderedChildren (ns : Namespace) : Prop :=
  ns.children.Ordered

theorem WellFormed.orderedChildren {ns : Namespace} (h : ns.WellFormed) :
    ns.Everywhere OrderedChildren :=
  h.imp fun _ hns => hns.children.ordered

theorem mem_walk {ns : Namespace} (h : ns.Everywhere OrderedChildren) {path : List String}
    {scope : Namespace} : (path, scope) ∈ ns.walk ↔ ns.scopeAt? path = some scope := by
  induction h generalizing path with
  | @intro ns hns _ ih =>
    rw [walk_eq_cons, walkBelow_eq_flatMap, List.mem_cons, List.mem_flatMap]
    cases path with
    | nil => simp [scopeAt?, eq_comm]
    | cons key path =>
      rw [scopeAt?, Option.bind_eq_some_iff]
      constructor
      · rintro (hhere | ⟨entry, hentry, hbelow⟩)
        · cases hhere
        · obtain ⟨⟨inner, scope⟩, hinner, heq⟩ := List.mem_map.mp hbelow
          obtain ⟨⟨rfl, rfl⟩, rfl⟩ : (entry.1 = key ∧ inner = path) ∧ scope = _ := by
            simpa using heq
          have hget := hns.get?_eq_some_iff.mpr hentry
          exact ⟨entry.2, hget, (ih hget).mp hinner⟩
      · rintro ⟨child, hget, hscope⟩
        exact .inr ⟨(key, child), hns.get?_eq_some_iff.mp hget,
          List.mem_map.mpr ⟨(path, scope), (ih hget).mpr hscope, rfl⟩⟩

theorem pairwise_walk {ns : Namespace} (h : ns.Everywhere OrderedChildren) :
    ns.walk.Pairwise fun a b => a.1 < b.1 := by
  induction h with
  | @intro ns hns _ ih =>
    rw [walk_eq_cons, walkBelow_eq_flatMap, List.pairwise_cons, List.pairwise_flatMap]
    refine ⟨?_, ?_, ?_⟩
    · intro site hsite
      obtain ⟨entry, -, hsite⟩ := List.mem_flatMap.mp hsite
      obtain ⟨inner, -, rfl⟩ := List.mem_map.mp hsite
      exact List.nil_lt_cons _ _
    · intro entry hentry
      refine List.pairwise_map.mpr ((ih (hns.get?_eq_some_iff.mpr hentry)).imp fun hlt => ?_)
      exact List.cons_lt_cons_iff.mpr (.inr ⟨rfl, hlt⟩)
    · refine (NameMap.ordered_iff.mp hns).imp fun hlt site hsite other hother => ?_
      obtain ⟨inner, -, rfl⟩ := List.mem_map.mp hsite
      obtain ⟨later, -, rfl⟩ := List.mem_map.mp hother
      exact List.cons_lt_cons_iff.mpr (.inl hlt)

end Namespace

end InterfaceSchema
