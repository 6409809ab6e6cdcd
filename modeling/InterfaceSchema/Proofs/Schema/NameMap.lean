import InterfaceSchema.Schema.NameMap
import Mathlib.Data.String.Basic
import Mathlib.Data.List.Basic

namespace InterfaceSchema

theorem merge_old {α : Type} (x y : Option α) : Option.merge (fun old _ => old) x y = x.or y := by
  cases x <;> cases y <;> rfl

theorem merge_new {α : Type} (x y : Option α) : Option.merge (fun _ new => new) x y = y.or x := by
  cases x <;> cases y <;> rfl

namespace NameMap

variable {α : Type}

theorem ordered_empty : (empty : NameMap α).Ordered := List.Pairwise.nil

theorem get?_insert (m : NameMap α) (key other : String) (value : α) :
    (m.insert key value).get? other = if other = key then some value else m.get? other := by
  by_cases h : other = key
  · subst h; simp
  · rw [get?_insert_of_ne h, if_neg h]

theorem contains_iff {m : NameMap α} {key : String} :
    m.contains key = true ↔ ∃ value, m.get? key = some value := by
  rw [contains, Option.isSome_iff_exists]

theorem not_contains_iff {m : NameMap α} {key : String} :
    m.contains key = false ↔ m.get? key = none := by
  rw [contains, Option.isSome_eq_false_iff, Option.isNone_iff_eq_none]

theorem contains_insert (m : NameMap α) (key other : String) (value : α) :
    (m.insert key value).contains other = true ↔ other = key ∨ m.contains other = true := by
  rw [contains, get?_insert]
  split <;> simp_all [contains]

theorem get?_insert_empty {key other : String} {value found : α}
    (h : (empty.insert key value).get? other = some found) : found = value := by
  rw [get?_insert] at h
  split at h <;> simp_all

theorem mem_insertEntry {key : String} {value : α} {entry : String × α}
    {entries : List (String × α)} (h : entry ∈ insertEntry key value entries) :
    entry = (key, value) ∨ entry ∈ entries := by
  induction entries with
  | nil => simpa [insertEntry] using h
  | cons first rest ih =>
      obtain ⟨k, v⟩ := first
      rw [insertEntry] at h
      split at h
      · simpa using h
      · split at h
        · rcases List.mem_cons.mp h with h | h
          · exact .inl h
          · exact .inr (List.mem_cons_of_mem _ h)
        · rcases List.mem_cons.mp h with h | h
          · exact .inr (h ▸ List.mem_cons_self)
          · exact (ih h).imp_right (List.mem_cons_of_mem _)

theorem pairwise_insertEntry (key : String) (value : α) {entries : List (String × α)}
    (h : entries.Pairwise (fun a b => a.1 < b.1)) :
    (insertEntry key value entries).Pairwise (fun a b => a.1 < b.1) := by
  induction entries with
  | nil => simp [insertEntry]
  | cons first rest ih =>
      obtain ⟨k, v⟩ := first
      obtain ⟨hfirst, hrest⟩ := List.pairwise_cons.mp h
      rw [insertEntry]
      split
      · next hlt =>
          refine List.pairwise_cons.mpr ⟨?_, h⟩
          intro entry hentry
          rcases List.mem_cons.mp hentry with rfl | hentry
          · exact hlt
          · exact lt_trans hlt (hfirst entry hentry)
      · next hlt =>
          split
          · next heq =>
              subst heq
              exact List.pairwise_cons.mpr ⟨hfirst, hrest⟩
          · next hne =>
              refine List.pairwise_cons.mpr ⟨?_, ih hrest⟩
              intro entry hentry
              rcases mem_insertEntry hentry with rfl | hentry
              · exact lt_of_le_of_ne (not_lt.mp hlt) (Ne.symm hne)
              · exact hfirst entry hentry

theorem ordered_iff {m : NameMap α} :
    m.Ordered ↔ m.entries.Pairwise (fun a b => a.1 < b.1) := by
  rw [Ordered, keys, List.pairwise_map]

theorem Ordered.insert {m : NameMap α} (h : m.Ordered) (key : String) (value : α) :
    (m.insert key value).Ordered :=
  ordered_iff.mpr (pairwise_insertEntry key value (ordered_iff.mp h))

theorem lookup_eq_some_iff {entries : List (String × α)}
    (h : entries.Pairwise (fun a b => a.1 < b.1)) {key : String} {value : α} :
    entries.lookup key = some value ↔ (key, value) ∈ entries := by
  induction entries with
  | nil => simp
  | cons first rest ih =>
      obtain ⟨k, v⟩ := first
      obtain ⟨hfirst, hrest⟩ := List.pairwise_cons.mp h
      rw [List.lookup_cons, List.mem_cons]
      by_cases hk : key = k
      · subst hk
        have hnot : (key, value) ∉ rest := fun hmem => lt_irrefl key (hfirst (key, value) hmem)
        simp [hnot, eq_comm]
      · simp [beq_eq_false_iff_ne.mpr hk, ih hrest, hk]

theorem Ordered.get?_eq_some_iff {m : NameMap α} (h : m.Ordered) {key : String} {value : α} :
    m.get? key = some value ↔ (key, value) ∈ m.entries :=
  lookup_eq_some_iff (ordered_iff.mp h)

theorem Ordered.ext {m n : NameMap α} (hm : m.Ordered) (hn : n.Ordered)
    (h : ∀ key, m.get? key = n.get? key) : m = n := by
  have hmem : ∀ entry, entry ∈ m.entries ↔ entry ∈ n.entries := by
    rintro ⟨key, value⟩
    rw [← hm.get?_eq_some_iff, ← hn.get?_eq_some_iff, h key]
  have hirrefl : ∀ a b : String × α, a.1 < b.1 → a ≠ b := fun a b hab heq =>
    lt_irrefl _ (heq ▸ hab)
  have hperm : m.entries.Perm n.entries :=
    (List.perm_ext_iff_of_nodup ((ordered_iff.mp hm).imp (hirrefl _ _))
      ((ordered_iff.mp hn).imp (hirrefl _ _))).mpr hmem
  have heq : m.entries = n.entries :=
    hperm.eq_of_pairwise (fun a b _ _ hab hba => absurd hab (lt_asymm hba))
      (ordered_iff.mp hm) (ordered_iff.mp hn)
  cases m; cases n; simp_all

theorem get?_add (nameOf : α → String) (combine : α → α → α) (m : NameMap α) (node : α)
    (key : String) :
    (m.add nameOf combine node).get? key =
      if key = nameOf node then Option.merge combine (m.get? key) (some node)
      else m.get? key := by
  unfold add
  cases hold : m.get? (nameOf node) <;> rw [get?_insert] <;> split <;> simp_all

theorem get?_addIfNew (nameOf : α → String) (m : NameMap α) (node : α) (key : String) :
    (m.addIfNew nameOf node).get? key =
      if key = nameOf node then Option.merge (fun old _ => old) (m.get? key) (some node)
      else m.get? key := by
  unfold addIfNew
  split
  · next h =>
      obtain ⟨value, hvalue⟩ := contains_iff.mp h
      split <;> simp_all
  · next h =>
      have hnone := not_contains_iff.mp (Bool.eq_false_iff.mpr h)
      rw [get?_insert]
      split <;> simp_all

theorem addIfNew_of_not_contains {nameOf : α → String} {m : NameMap α} {node : α}
    (h : m.contains (nameOf node) = false) :
    m.addIfNew nameOf node = m.insert (nameOf node) node := by
  simp [addIfNew, h]

theorem Ordered.add {m : NameMap α} (h : m.Ordered) (nameOf : α → String)
    (combine : α → α → α) (node : α) : (m.add nameOf combine node).Ordered := by
  unfold NameMap.add
  cases m.get? (nameOf node) <;> exact h.insert _ _

theorem Ordered.addIfNew {m : NameMap α} (h : m.Ordered) (nameOf : α → String) (node : α) :
    (m.addIfNew nameOf node).Ordered := by
  unfold NameMap.addIfNew
  split
  · exact h
  · exact h.insert _ _

theorem Ordered.foldl {β : Type} {step : NameMap α → β → NameMap α}
    (hstep : ∀ m b, m.Ordered → (step m b).Ordered) {m : NameMap α} (h : m.Ordered)
    (bs : List β) : (bs.foldl step m).Ordered := by
  induction bs generalizing m with
  | nil => exact h
  | cons b bs ih => exact ih (hstep m b h)

theorem Ordered.insertAll {m : NameMap α} (h : m.Ordered) (entries : List (String × α)) :
    (m.insertAll entries).Ordered :=
  h.foldl (fun _ _ hm => hm.insert _ _) entries

-- The three ways of adding entries differ only in what they make of an old and a new value.
theorem get?_foldl_of_step {combine : α → α → α} {step : NameMap α → String × α → NameMap α}
    {entries : List (String × α)} (hentries : entries.Pairwise (fun a b => a.1 < b.1))
    (hstep : ∀ m, ∀ entry ∈ entries, ∀ key, (step m entry).get? key =
      if key = entry.1 then Option.merge combine (m.get? key) (some entry.2) else m.get? key)
    (base : NameMap α) (key : String) :
    (entries.foldl step base).get? key =
      Option.merge combine (base.get? key) (entries.lookup key) := by
  induction entries generalizing base with
  | nil => simp
  | cons first rest ih =>
      obtain ⟨k, v⟩ := first
      obtain ⟨hfirst, hrest⟩ := List.pairwise_cons.mp hentries
      have hfirst' := hstep base (k, v) List.mem_cons_self key
      have ih' := ih hrest (fun m entry hentry => hstep m entry (List.mem_cons_of_mem _ hentry))
        (step base (k, v))
      rw [List.foldl_cons, ih', hfirst', List.lookup_cons]
      by_cases hk : key = k
      · subst hk
        have hnone : rest.lookup key = none := by
          rw [Option.eq_none_iff_forall_not_mem]
          intro value hvalue
          exact lt_irrefl key (hfirst _ ((lookup_eq_some_iff hrest).mp hvalue))
        simp [hnone]
      · simp [hk, beq_eq_false_iff_ne.mpr hk]

theorem Ordered.get?_insertAll {m : NameMap α} (h : m.Ordered) (base : NameMap α)
    (key : String) :
    (base.insertAll m.entries).get? key = (m.get? key).or (base.get? key) := by
  rw [← merge_new]
  refine get?_foldl_of_step (ordered_iff.mp h) ?_ base key
  intro acc entry _ other
  rw [get?_insert, merge_new]
  rfl

structure Indexed (nameOf : α → String) (m : NameMap α) : Prop where
  ordered : m.Ordered
  named : ∀ {key value}, m.get? key = some value → nameOf value = key

namespace Indexed

variable {nameOf : α → String} {m base : NameMap α}

theorem empty : (NameMap.empty : NameMap α).Indexed nameOf :=
  ⟨ordered_empty, fun h => by simp at h⟩

theorem name_of_mem (h : m.Indexed nameOf) {entry : String × α} (hentry : entry ∈ m.entries) :
    nameOf entry.2 = entry.1 :=
  h.named (h.ordered.get?_eq_some_iff.mpr hentry)

theorem get?_name (h : m.Indexed nameOf) {value : α} (hvalue : value ∈ m.values) :
    m.get? (nameOf value) = some value := by
  obtain ⟨entry, hentry, rfl⟩ := List.mem_map.mp hvalue
  rw [h.name_of_mem hentry]
  exact h.ordered.get?_eq_some_iff.mpr hentry

theorem get?_eq_some_iff (h : m.Indexed nameOf) {key : String} {value : α} :
    m.get? key = some value ↔ value ∈ m.values ∧ nameOf value = key := by
  constructor
  · intro hget
    exact ⟨List.mem_map.mpr ⟨_, h.ordered.get?_eq_some_iff.mp hget, rfl⟩, h.named hget⟩
  · rintro ⟨hvalue, rfl⟩
    exact h.get?_name hvalue

theorem pairwise_values (h : m.Indexed nameOf) :
    m.values.Pairwise fun a b => nameOf a < nameOf b := by
  refine List.pairwise_map.mpr ((ordered_iff.mp h.ordered).imp_of_mem fun ha hb hab => ?_)
  rwa [h.name_of_mem ha, h.name_of_mem hb]

theorem contains_name (h : m.Indexed nameOf) {value : α} (hvalue : value ∈ m.values) :
    m.contains (nameOf value) = true :=
  contains_iff.mpr ⟨value, h.get?_name hvalue⟩

theorem get?_foldl_add (h : m.Indexed nameOf) (combine : α → α → α) (base : NameMap α)
    (key : String) :
    (m.values.foldl (NameMap.add nameOf combine) base).get? key =
      Option.merge combine (base.get? key) (m.get? key) := by
  rw [values, List.foldl_map]
  refine get?_foldl_of_step (ordered_iff.mp h.ordered) ?_ base key
  intro acc entry hentry other
  rw [get?_add, h.name_of_mem hentry]

theorem get?_foldl_addIfNew (h : m.Indexed nameOf) (base : NameMap α) (key : String) :
    (m.values.foldl (NameMap.addIfNew nameOf) base).get? key =
      (base.get? key).or (m.get? key) := by
  rw [← merge_old, values, List.foldl_map]
  refine get?_foldl_of_step (ordered_iff.mp h.ordered) ?_ base key
  intro acc entry hentry other
  rw [get?_addIfNew, h.name_of_mem hentry]

theorem foldl_add (hm : m.Indexed nameOf) (hbase : base.Indexed nameOf) {combine : α → α → α}
    (hname : ∀ a b, nameOf a = nameOf b → nameOf (combine a b) = nameOf a) :
    (m.values.foldl (NameMap.add nameOf combine) base).Indexed nameOf := by
  refine ⟨hbase.ordered.foldl (fun _ _ h => h.add _ _ _) _, ?_⟩
  intro key value h
  rw [hm.get?_foldl_add, Option.merge_eq_some_iff] at h
  rcases h with ⟨ha, -⟩ | ⟨-, hb⟩ | ⟨a, b, ha, hb, rfl⟩
  · exact hbase.named ha
  · exact hm.named hb
  · rw [hname a b ((hbase.named ha).trans (hm.named hb).symm)]
    exact hbase.named ha

theorem foldl_addIfNew (hm : m.Indexed nameOf) (hbase : base.Indexed nameOf) :
    (m.values.foldl (NameMap.addIfNew nameOf) base).Indexed nameOf := by
  refine ⟨hbase.ordered.foldl (fun _ _ h => h.addIfNew _ _) _, ?_⟩
  intro key value h
  rw [hm.get?_foldl_addIfNew, Option.or_eq_some_iff] at h
  rcases h with h | ⟨-, h⟩
  · exact hbase.named h
  · exact hm.named h

theorem insert (h : base.Indexed nameOf) (node : α) :
    (base.insert (nameOf node) node).Indexed nameOf := by
  refine ⟨h.ordered.insert _ _, ?_⟩
  intro key value hvalue
  rw [get?_insert] at hvalue
  split at hvalue
  · simp_all
  · exact h.named hvalue

theorem addIfNew (h : base.Indexed nameOf) (node : α) :
    (base.addIfNew nameOf node).Indexed nameOf := by
  unfold NameMap.addIfNew
  split
  · exact h
  · exact h.insert node

end Indexed

end NameMap

end InterfaceSchema
