/-
Dictionaries of texts. The entries stand in ascending order of their keys, by code point, and no key
stands twice; `get?` is the view through which the operations are described.

* **`get?_insert`:** inserting changes the value at one key and at no other.
* `ofList` inserts from left to right, so of two entries with one key the later wins.
-/

namespace JetSql

/-- A dictionary from texts to texts. -/
structure Dictionary where
  entries : List (String × String)
deriving DecidableEq, Repr

namespace Dictionary

/-- The dictionary without entries. -/
def empty : Dictionary := ⟨[]⟩

/-- The value at a key among entries. -/
def lookupEntry (key : String) : List (String × String) → Option String
  | [] => none
  | (k, v) :: rest => if key = k then some v else lookupEntry key rest

/-- The value at a key. -/
def get? (dictionary : Dictionary) (key : String) : Option String :=
  lookupEntry key dictionary.entries

/-- Entries with a value put at a key, in its place by order. -/
def insertEntry (key value : String) : List (String × String) → List (String × String)
  | [] => [(key, value)]
  | (k, v) :: rest =>
    if key < k then (key, value) :: (k, v) :: rest
    else if key = k then (key, value) :: rest
    else (k, v) :: insertEntry key value rest

/-- The dictionary with a value put at a key. -/
def insert (dictionary : Dictionary) (key value : String) : Dictionary :=
  ⟨insertEntry key value dictionary.entries⟩

/-- The dictionary of some entries, put in from left to right. -/
def ofList (entries : List (String × String)) : Dictionary :=
  entries.foldl (fun dictionary (key, value) => dictionary.insert key value) empty

/-- Inserting changes the value at one key and at no other. -/
theorem get?_insert (dictionary : Dictionary) (key value key' : String) :
    (dictionary.insert key value).get? key' =
      if key' = key then some value else dictionary.get? key' := by
  obtain ⟨entries⟩ := dictionary
  simp only [insert, get?]
  induction entries with
  | nil => simp [insertEntry, lookupEntry]
  | cons entry rest ih =>
    obtain ⟨k, v⟩ := entry
    simp only [insertEntry]
    split
    · simp [lookupEntry]
    · split
      · rename_i h
        subst h
        by_cases h : key' = key <;> simp [lookupEntry, h]
      · rename_i h
        by_cases hk : key' = k
        · simp [lookupEntry, hk, Ne.symm h]
        · simp [lookupEntry, hk, ih]

end Dictionary

end JetSql
