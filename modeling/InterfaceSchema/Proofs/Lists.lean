import Mathlib.Data.List.Duplicate
import Mathlib.Data.List.Nodup

namespace InterfaceSchema

namespace List

variable {α β γ : Type}

theorem nodup_eraseDups [BEq α] [LawfulBEq α] (xs : List α) : xs.eraseDups.Nodup := by
  match xs with
  | [] => exact List.nodup_nil
  | x :: xs =>
    rw [List.eraseDups_cons, List.nodup_cons]
    refine ⟨fun h => ?_, nodup_eraseDups _⟩
    simpa using (List.mem_filter.mp (List.mem_eraseDups.mp h)).2
termination_by xs.length
decreasing_by exact Nat.lt_succ_of_le (List.length_filter_le _ _)

theorem eraseDups_of_nodup [BEq α] [LawfulBEq α] {xs : List α} (h : xs.Nodup) :
    xs.eraseDups = xs := by
  induction xs with
  | nil => rfl
  | cons x xs ih =>
    obtain ⟨hx, hxs⟩ := List.nodup_cons.mp h
    have hfilter : xs.filter (fun y => !y == x) = xs := by
      refine List.filter_eq_self.mpr fun y hy => ?_
      have hne : y ≠ x := fun heq => hx (heq ▸ hy)
      simp [hne]
    rw [List.eraseDups_cons, hfilter, ih hxs]

theorem lookup_of_mem [BEq α] [LawfulBEq α] {entries : List (α × β)}
    (h : (entries.map Prod.fst).Nodup) {entry : α × β} (hentry : entry ∈ entries) :
    entries.lookup entry.1 = some entry.2 := by
  induction entries with
  | nil => cases hentry
  | cons first rest ih =>
    obtain ⟨hfirst, hrest⟩ := List.nodup_cons.mp h
    rw [List.lookup_cons]
    rcases List.mem_cons.mp hentry with rfl | hmem
    · simp
    · have hne : entry.1 ≠ first.1 := fun heq => hfirst (heq ▸ List.mem_map_of_mem hmem)
      simp [beq_eq_false_iff_ne.mpr hne, ih hrest hmem]

theorem find?_key_of_mem [BEq β] [LawfulBEq β] {f : α → β} {xs : List α} (h : (xs.map f).Nodup)
    {x : α} (hx : x ∈ xs) : xs.find? (fun y => f y == f x) = some x := by
  obtain ⟨y, hy⟩ : ∃ y, xs.find? (fun y => f y == f x) = some y :=
    Option.isSome_iff_exists.mp (List.find?_isSome.mpr ⟨x, hx, BEq.refl (f x)⟩)
  have hkey := List.find?_some hy
  rw [hy, List.inj_on_of_nodup_map h (List.mem_of_find?_eq_some hy) hx (eq_of_beq hkey)]

theorem filterMap_find?_map [BEq β] [LawfulBEq β] {f : α → β} {xs ys : List α}
    (h : (xs.map f).Nodup) (hys : ys ⊆ xs) :
    (ys.map f).filterMap (fun key => xs.find? (f · == key)) = ys := by
  induction ys with
  | nil => rfl
  | cons y ys ih =>
    obtain ⟨hy, hys⟩ := List.cons_subset.mp hys
    have hfirst := find?_key_of_mem h hy
    rw [List.map_cons, List.filterMap_cons, hfirst, ih hys]

theorem eq_of_append_cons_eq {x : α} {as bs cs ds : List α} (h : as ++ x :: cs = bs ++ x :: ds)
    (hc : x ∉ cs) (hd : x ∉ ds) : as = bs ∧ cs = ds := by
  rcases List.append_eq_append_iff.mp h with ⟨es, hbs, hes⟩ | ⟨es, has, hes⟩
  · cases es with
    | nil => exact ⟨by simpa using hbs.symm, (List.cons.inj hes).2⟩
    | cons e es =>
      obtain ⟨-, rfl⟩ := List.cons.inj hes
      exact absurd (List.mem_append_right es List.mem_cons_self) hc
  · cases es with
    | nil => exact ⟨by simpa using has, (List.cons.inj hes).2.symm⟩
    | cons e es =>
      obtain ⟨-, rfl⟩ := List.cons.inj hes
      exact absurd (List.mem_append_right es List.mem_cons_self) hd

theorem map_intercalate (f : α → β) (separator : List α) (xss : List (List α)) :
    (separator.intercalate xss).map f = (separator.map f).intercalate (xss.map (List.map f)) := by
  induction xss with
  | nil => rfl
  | cons xs xss ih =>
    by_cases hnil : xss = []
    · rw [hnil, List.map_singleton, List.intercalate_singleton, List.intercalate_singleton]
    · rw [List.intercalate_cons_of_ne_nil hnil, List.map_append, List.map_append, ih, List.map_cons,
        List.intercalate_cons_of_ne_nil (by simpa using hnil)]

theorem duplicate_append {x : α} {xs ys : List α} (h : (xs ++ ys).Duplicate x) :
    xs.Duplicate x ∨ ys.Duplicate x ∨ x ∈ xs ∧ x ∈ ys := by
  induction xs with
  | nil => exact .inr (.inl h)
  | cons y xs ih =>
    rw [List.cons_append, List.duplicate_cons_iff, List.mem_append] at h
    rw [List.duplicate_cons_iff, List.mem_cons]
    grind

theorem mapM_eq_ite {xs : List α} {write : α → β} {read : β → Option γ} {keep : α → γ}
    {p : α → Prop} [DecidablePred p]
    (h : ∀ x ∈ xs, read (write x) = if p x then some (keep x) else none) :
    (xs.map write).mapM read = if ∀ x ∈ xs, p x then some (xs.map keep) else none := by
  induction xs with
  | nil => simp
  | cons x xs ih =>
    obtain ⟨hx, hxs⟩ := List.forall_mem_cons.mp h
    rw [List.map_cons, List.mapM_cons, hx, ih hxs]
    by_cases hp : p x
    · by_cases hall : ∀ y ∈ xs, p y
      · rw [if_pos hp, if_pos hall, if_pos (List.forall_mem_cons.mpr ⟨hp, hall⟩)]
        rfl
      · rw [if_pos hp, if_neg hall, if_neg fun hcons => hall (List.forall_mem_cons.mp hcons).2]
        rfl
    · rw [if_neg hp, if_neg fun hcons => hp (List.forall_mem_cons.mp hcons).1]
      rfl

end List

end InterfaceSchema
