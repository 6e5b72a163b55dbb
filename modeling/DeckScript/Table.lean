/-!
# Tables

A table gives each of its keys one value and remembers the order in which the keys were first
written.

## Main definitions

* `Table` — the entries, no key twice
* `Table.get?`, `Table.insert`, `Table.contains`, `Table.keys`, `Table.size`

## Main results

* `get?_insert` — what a table answers after a write
-/

namespace DeckScript

variable {α : Type}

/-- Write `value` under `key`: over the old value if there is one, at the end otherwise. -/
def Table.put (key : String) (value : α) : List (String × α) → List (String × α)
  | [] => [(key, value)]
  | e :: rest => if e.1 = key then (key, value) :: rest else e :: Table.put key value rest

theorem Table.mem_keys_put {key k : String} {value : α} {es : List (String × α)} :
    k ∈ (Table.put key value es).map Prod.fst ↔ k = key ∨ k ∈ es.map Prod.fst := by
  induction es with
  | nil => simp [Table.put]
  | cons e rest ih =>
    by_cases h : e.1 = key
    · simp [Table.put, h]
    · simp only [Table.put, h, if_false, List.map_cons, List.mem_cons, ih]
      grind

theorem Table.nodup_keys_put {key : String} {value : α} {es : List (String × α)}
    (h : (es.map Prod.fst).Nodup) : ((Table.put key value es).map Prod.fst).Nodup := by
  induction es with
  | nil => simp [Table.put]
  | cons e rest ih =>
    simp only [List.map_cons, List.nodup_cons] at h
    by_cases hk : e.1 = key
    · simp only [Table.put, hk, if_true, List.map_cons, List.nodup_cons]
      exact ⟨hk ▸ h.1, h.2⟩
    · have hne : ¬ (e.1 = key ∨ e.1 ∈ rest.map Prod.fst) := fun hm => hm.elim hk h.1
      simp only [Table.put, hk, if_false, List.map_cons, List.nodup_cons]
      exact ⟨fun hm => hne (Table.mem_keys_put.1 hm), ih h.2⟩

/-- The value of the first entry under `key`. -/
def Table.find (key : String) : List (String × α) → Option α
  | [] => none
  | e :: rest => if e.1 = key then some e.2 else Table.find key rest

/-- Keys with one value each, in the order in which they were first written. -/
structure Table (α : Type) where
  entries : List (String × α)
  nodup : (entries.map Prod.fst).Nodup

namespace Table

/-- The table without entries. -/
def empty : Table α := ⟨[], by simp⟩

instance : Inhabited (Table α) := ⟨empty⟩
instance : EmptyCollection (Table α) := ⟨empty⟩

/-- The value under a key. -/
def get? (t : Table α) (key : String) : Option α := find key t.entries

/-- The key has a value. -/
def contains (t : Table α) (key : String) : Bool := (t.get? key).isSome

/-- The table with `value` under `key` and otherwise unchanged. -/
def insert (t : Table α) (key : String) (value : α) : Table α :=
  ⟨put key value t.entries, nodup_keys_put t.nodup⟩

/-- The keys in the order in which they were first written. -/
def keys (t : Table α) : List String := t.entries.map Prod.fst

/-- The number of keys. -/
def size (t : Table α) : Nat := t.entries.length

/-- There are no keys. -/
def isEmpty (t : Table α) : Bool := t.entries.isEmpty

/-- The table that results from writing the pairs in order. -/
def ofList (pairs : List (String × α)) : Table α :=
  pairs.foldl (fun t p => t.insert p.1 p.2) empty

@[simp] theorem get?_empty (key : String) : (empty : Table α).get? key = none := rfl

theorem find_put (key : String) (value : α) (es : List (String × α)) (k : String) :
    find k (put key value es) = if k = key then some value else find k es := by
  induction es with
  | nil => by_cases h : key = k <;> simp [put, find, h, eq_comm]
  | cons e rest ih =>
    rw [put, find]
    split
    · rename_i he
      rw [find, he]
      grind
    · rw [find, ih]
      grind

/-- After a write the key has the new value and every other key what it had. -/
theorem get?_insert (t : Table α) (key : String) (value : α) (k : String) :
    (t.insert key value).get? k = if k = key then some value else t.get? k :=
  find_put key value t.entries k

@[simp] theorem get?_insert_self (t : Table α) (key : String) (value : α) :
    (t.insert key value).get? key = some value := by simp [get?_insert]

theorem get?_insert_of_ne (t : Table α) {key k : String} (value : α) (h : k ≠ key) :
    (t.insert key value).get? k = t.get? k := by simp [get?_insert, h]

end Table

end DeckScript
