-- Maps from names, with their entries in the order of the names. A name has one entry,
-- so two maps with the same entries are the same map.

namespace SearchQuery

structure NameMap (α : Type) where
  entries : List (String × α)
  sorted : entries.Pairwise fun a b => a.1 < b.1
deriving DecidableEq

namespace NameMap

variable {α : Type}

def empty : NameMap α :=
  ⟨[], .nil⟩

instance : Inhabited (NameMap α) :=
  ⟨empty⟩

def names (m : NameMap α) : List String :=
  m.entries.map Prod.fst

def size (m : NameMap α) : Nat :=
  m.entries.length

def get? (m : NameMap α) (name : String) : Option α :=
  m.entries.lookup name

def contains (m : NameMap α) (name : String) : Bool :=
  (m.get? name).isSome

-- Puts an entry at its place, instead of the one that has its name.
def insertEntry (name : String) (value : α) : List (String × α) → List (String × α)
  | [] => [(name, value)]
  | (n, v) :: rest =>
      if name < n then (name, value) :: (n, v) :: rest
      else if name = n then (name, value) :: rest
      else (n, v) :: insertEntry name value rest

theorem mem_insertEntry {name : String} {value : α} {entries : List (String × α)}
    {e : String × α} (h : e ∈ insertEntry name value entries) :
    e = (name, value) ∨ e ∈ entries := by
  induction entries with
  | nil => simpa [insertEntry] using h
  | cons first rest ih =>
      simp only [insertEntry] at h
      split at h
      · simpa using h
      · split at h
        · cases List.mem_cons.mp h with
          | inl he => exact .inl he
          | inr he => exact .inr (List.mem_cons_of_mem _ he)
        · cases List.mem_cons.mp h with
          | inl he => exact .inr (he ▸ List.mem_cons_self)
          | inr he => exact (ih he).imp_right (List.mem_cons_of_mem _)

theorem sorted_insertEntry (name : String) (value : α) {entries : List (String × α)}
    (h : entries.Pairwise fun a b => a.1 < b.1) :
    (insertEntry name value entries).Pairwise fun a b => a.1 < b.1 := by
  induction entries with
  | nil => simp [insertEntry]
  | cons first rest ih =>
      obtain ⟨hfirst, hrest⟩ := List.pairwise_cons.mp h
      simp only [insertEntry]
      split
      · next hlt =>
        refine List.pairwise_cons.mpr ⟨fun e he => ?_, h⟩
        cases List.mem_cons.mp he with
        | inl he => exact he ▸ hlt
        | inr he => exact String.lt_trans hlt (hfirst e he)
      · next hlt =>
        split
        · next heq => exact List.pairwise_cons.mpr ⟨fun e he => heq ▸ hfirst e he, hrest⟩
        · next hne =>
          refine List.pairwise_cons.mpr ⟨fun e he => ?_, ih hrest⟩
          cases mem_insertEntry he with
          | inl he =>
              subst he
              exact String.not_le.mp fun hle => hne (String.le_antisymm hle (String.not_lt.mp hlt))
          | inr he => exact hfirst e he

def insert (m : NameMap α) (name : String) (value : α) : NameMap α :=
  ⟨insertEntry name value m.entries, sorted_insertEntry name value m.sorted⟩

theorem ext {m n : NameMap α} (h : m.entries = n.entries) : m = n := by
  cases m
  cases n
  simpa using h

theorem get?_empty (name : String) : (empty : NameMap α).get? name = none :=
  rfl

theorem lookup_cons_ite (name : String) (first : String × α) (rest : List (String × α)) :
    (first :: rest).lookup name = if name = first.1 then some first.2 else rest.lookup name := by
  obtain ⟨n, v⟩ := first
  by_cases h : name = n
  · simp [h]
  · have hne : (name == n) = false := by simpa using h
    simp [List.lookup_cons, h, hne]

theorem lookup_insertEntry (name other : String) (value : α) (entries : List (String × α)) :
    (insertEntry name value entries).lookup other =
      if other = name then some value else entries.lookup other := by
  induction entries with
  | nil => simp [insertEntry, lookup_cons_ite]
  | cons first rest ih =>
      simp only [insertEntry]
      split
      · simp only [lookup_cons_ite]
      · split
        · next heq => by_cases h : other = name <;> simp_all [lookup_cons_ite]
        · next hne =>
          simp only [lookup_cons_ite, ih]
          by_cases h : other = first.1 <;> by_cases h' : other = name <;> simp_all

theorem get?_insert (m : NameMap α) (name other : String) (value : α) :
    (m.insert name value).get? other = if other = name then some value else m.get? other :=
  lookup_insertEntry name other value m.entries

end NameMap

end SearchQuery
