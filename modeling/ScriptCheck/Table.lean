/-!
# Finite tables

A table holds at most one value per key and keeps its keys in the order in which they were first inserted. It is a list of
pairs, so two tables can be compared, printed and reasoned about as lists are. What the operations do is said once, by what
`find?` answers afterwards.
-/

namespace ScriptCheck

/-- A finite table from `κ` to `ν`, in the order of first insertion. -/
structure Table (κ ν : Type) where
  entries : List (κ × ν)
  deriving Repr

namespace Table

variable {κ ν : Type} [DecidableEq κ]

/-- The table without entries. -/
def empty : Table κ ν := ⟨[]⟩

instance : Inhabited (Table κ ν) := ⟨empty⟩

/-- The value that the first pair with this key carries. -/
def findIn (k : κ) : List (κ × ν) → Option ν
  | [] => none
  | (k', v) :: rest => if k' = k then some v else findIn k rest

/-- The value at a key. -/
def find? (t : Table κ ν) (k : κ) : Option ν := findIn k t.entries

/-- Whether the table has the key. -/
def contains (t : Table κ ν) (k : κ) : Bool := (t.find? k).isSome

/-- Puts `v` at the place of `k`, or at the end where `k` is new. -/
def insertIn (k : κ) (v : ν) : List (κ × ν) → List (κ × ν)
  | [] => [(k, v)]
  | (k', v') :: rest => if k' = k then (k, v) :: rest else (k', v') :: insertIn k v rest

/-- Sets the value at a key; a value already there is replaced and the key keeps its place. -/
def insert (t : Table κ ν) (k : κ) (v : ν) : Table κ ν := ⟨insertIn k v t.entries⟩

/-- Sets the value at a key that has none; a value already there stays. -/
def insertNew (t : Table κ ν) (k : κ) (v : ν) : Table κ ν := if t.contains k then t else t.insert k v

/-- Keeps the entries whose key passes the test. -/
def filterKeys (t : Table κ ν) (keep : κ → Bool) : Table κ ν := ⟨t.entries.filter fun e => keep e.1⟩

/-- Drops a key. -/
def erase (t : Table κ ν) (k : κ) : Table κ ν := t.filterKeys fun k' => k' ≠ k

/-- The keys in their order. -/
def keys (t : Table κ ν) : List κ := t.entries.map (·.1)

/-- The values in the order of their keys. -/
def values (t : Table κ ν) : List ν := t.entries.map (·.2)

/-- The number of entries. -/
def size (t : Table κ ν) : Nat := t.entries.length

/-- Whether there are no entries. -/
def isEmpty (t : Table κ ν) : Bool := t.entries.isEmpty

/-- The table that a list of pairs writes in turn, so that the last pair of a key counts. -/
def ofList (pairs : List (κ × ν)) : Table κ ν := pairs.foldl (fun t e => t.insert e.1 e.2) empty

@[simp] theorem find?_empty (k : κ) : (empty : Table κ ν).find? k = none := rfl

theorem findIn_insertIn (k j : κ) (v : ν) (l : List (κ × ν)) :
    findIn j (insertIn k v l) = if k = j then some v else findIn j l := by
  induction l with
  | nil => simp [insertIn, findIn]
  | cons e rest ih =>
    obtain ⟨k', v'⟩ := e
    by_cases h : k' = k
    · subst h
      by_cases hj : k' = j <;> simp [insertIn, findIn, hj]
    · by_cases hj : k' = j
      · subst hj
        simp [insertIn, findIn, h, Ne.symm h]
      · simp [insertIn, findIn, h, hj, ih]

/-- After a write the written key has the new value and every other key the value it had. -/
@[simp] theorem find?_insert (t : Table κ ν) (k j : κ) (v : ν) :
    (t.insert k v).find? j = if k = j then some v else t.find? j := findIn_insertIn k j v t.entries

/-- A first write fills a free key and changes nothing else. -/
theorem find?_insertNew (t : Table κ ν) (k j : κ) (v : ν) :
    (t.insertNew k v).find? j = if k = j ∧ t.find? k = none then some v else t.find? j := by
  unfold insertNew contains
  cases h : t.find? k with
  | none => simp
  | some w => simp

theorem findIn_filter (keep : κ → Bool) (j : κ) (l : List (κ × ν)) :
    findIn j (l.filter fun e => keep e.1) = if keep j then findIn j l else none := by
  induction l with
  | nil => simp [findIn]
  | cons e rest ih =>
    obtain ⟨k', v'⟩ := e
    by_cases h : k' = j
    · subst h
      cases hk : keep k' <;> simp [findIn, hk, ih]
    · cases hk : keep k' <;> simp [findIn, hk, ih, h]

/-- A table restricted to some keys answers at those keys as before, and nowhere else. -/
@[simp] theorem find?_filterKeys (t : Table κ ν) (keep : κ → Bool) (j : κ) :
    (t.filterKeys keep).find? j = if keep j then t.find? j else none := findIn_filter keep j t.entries

/-- A dropped key is gone and every other key keeps its value. -/
@[simp] theorem find?_erase (t : Table κ ν) (k j : κ) : (t.erase k).find? j = if j = k then none else t.find? j := by
  unfold erase
  rw [find?_filterKeys]
  by_cases h : j = k <;> simp [h]

end Table

end ScriptCheck
