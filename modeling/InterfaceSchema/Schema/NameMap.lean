namespace InterfaceSchema

structure NameMap (α : Type) where
  entries : List (String × α)
  deriving DecidableEq

namespace NameMap

variable {α : Type}

def empty : NameMap α :=
  ⟨[]⟩

def get? (m : NameMap α) (key : String) : Option α :=
  m.entries.lookup key

def contains (m : NameMap α) (key : String) : Bool :=
  (m.get? key).isSome

def size (m : NameMap α) : Nat :=
  m.entries.length

def isEmpty (m : NameMap α) : Bool :=
  m.entries.isEmpty

def keys (m : NameMap α) : List String :=
  m.entries.map Prod.fst

def values (m : NameMap α) : List α :=
  m.entries.map Prod.snd

def insertEntry (key : String) (value : α) : List (String × α) → List (String × α)
  | [] => [(key, value)]
  | (k, v) :: rest =>
      if key < k then (key, value) :: (k, v) :: rest
      else if key = k then (key, value) :: rest
      else (k, v) :: insertEntry key value rest

def insert (m : NameMap α) (key : String) (value : α) : NameMap α :=
  ⟨insertEntry key value m.entries⟩

def add (nameOf : α → String) (combine : α → α → α) (m : NameMap α) (node : α) : NameMap α :=
  match m.get? (nameOf node) with
  | none => m.insert (nameOf node) node
  | some old => m.insert (nameOf node) (combine old node)

def addIfNew (nameOf : α → String) (m : NameMap α) (node : α) : NameMap α :=
  if m.contains (nameOf node) then m else m.insert (nameOf node) node

def insertAll (m : NameMap α) (entries : List (String × α)) : NameMap α :=
  entries.foldl (fun acc entry => acc.insert entry.1 entry.2) m

def ofList (entries : List (String × α)) : NameMap α :=
  empty.insertAll entries

def Ordered (m : NameMap α) : Prop :=
  m.keys.Pairwise (· < ·)

@[simp] theorem get?_empty (key : String) : (empty : NameMap α).get? key = none :=
  rfl

theorem lookup_insertEntry_self (key : String) (value : α) (entries : List (String × α)) :
    (insertEntry key value entries).lookup key = some value := by
  induction entries with
  | nil => simp [insertEntry]
  | cons entry rest ih =>
      obtain ⟨k, v⟩ := entry
      rw [insertEntry]
      split
      · simp
      · split
        · simp
        · next h => simp [List.lookup_cons, beq_eq_false_iff_ne.mpr h, ih]

theorem lookup_insertEntry_of_ne {key other : String} (h : other ≠ key) (value : α)
    (entries : List (String × α)) :
    (insertEntry key value entries).lookup other = entries.lookup other := by
  have hb : (other == key) = false := beq_eq_false_iff_ne.mpr h
  induction entries with
  | nil => simp [insertEntry, List.lookup_cons, hb]
  | cons entry rest ih =>
      obtain ⟨k, v⟩ := entry
      rw [insertEntry]
      split
      · simp [List.lookup_cons, hb]
      · split
        · next hk => subst hk; simp [List.lookup_cons, hb]
        · simp [List.lookup_cons, ih]

@[simp] theorem get?_insert_self (m : NameMap α) (key : String) (value : α) :
    (m.insert key value).get? key = some value :=
  lookup_insertEntry_self key value m.entries

theorem get?_insert_of_ne {key other : String} (h : other ≠ key) (m : NameMap α) (value : α) :
    (m.insert key value).get? other = m.get? other :=
  lookup_insertEntry_of_ne h value m.entries

end NameMap

end InterfaceSchema
