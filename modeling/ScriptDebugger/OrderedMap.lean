/-
  ScriptDebugger/OrderedMap.lean
  ==============================
  **Finite maps that remember the order of first insertion.**

  Object members, the bindings of a frame and the configured breakpoint lines
  are all maps whose order can be seen.  A key that is inserted again keeps its
  place and takes the new value; the keys are pairwise distinct by construction,
  so the list of entries is the map.
-/

namespace ScriptDebugger

/-- A finite map as the list of its entries, in order of first insertion. -/
structure OrderedMap (α β : Type) where
  entries : List (α × β)
  nodup : (entries.map Prod.fst).Nodup

namespace OrderedMap

variable {α β : Type}

@[ext] theorem ext {m n : OrderedMap α β} (h : m.entries = n.entries) : m = n := by
  cases m; cases n; simp_all

/-- The map without entries. -/
def empty : OrderedMap α β := ⟨[], List.nodup_nil⟩

instance : Inhabited (OrderedMap α β) := ⟨empty⟩

instance [DecidableEq α] [DecidableEq β] : DecidableEq (OrderedMap α β) := fun m n =>
  if h : m.entries = n.entries then isTrue (ext h)
  else isFalse fun e => h (congrArg entries e)

instance [Repr α] [Repr β] : Repr (OrderedMap α β) := ⟨fun m n => reprPrec m.entries n⟩

/-- The keys, in order of first insertion. -/
def keys (m : OrderedMap α β) : List α := m.entries.map Prod.fst

/-- The number of entries. -/
def size (m : OrderedMap α β) : Nat := m.entries.length

variable [DecidableEq α]

/-- The value of the first entry with the given key. -/
def lookup (k : α) : List (α × β) → Option β
  | [] => none
  | (j, v) :: rest => if j = k then some v else lookup k rest

/-- The value stored under a key. -/
def get? (m : OrderedMap α β) (k : α) : Option β := lookup k m.entries

/-- Overwrites the entry of a key in place, or appends a new entry. -/
def put (k : α) (v : β) : List (α × β) → List (α × β)
  | [] => [(k, v)]
  | (j, w) :: rest => if j = k then (k, v) :: rest else (j, w) :: put k v rest

/-! ### What writing does to the keys and to the values -/

theorem keys_put (k : α) (v : β) (es : List (α × β)) :
    (put k v es).map Prod.fst =
      if k ∈ es.map Prod.fst then es.map Prod.fst else es.map Prod.fst ++ [k] := by
  induction es with
  | nil => simp [put]
  | cons e rest ih =>
    obtain ⟨j, w⟩ := e
    by_cases h : j = k
    · subst h; simp [put]
    · have h' : k ≠ j := fun e => h e.symm
      by_cases hk : k ∈ rest.map Prod.fst <;> simp_all [put]

theorem nodup_put (k : α) (v : β) {es : List (α × β)} (h : (es.map Prod.fst).Nodup) :
    ((put k v es).map Prod.fst).Nodup := by
  rw [keys_put]
  split
  · exact h
  · rename_i hk
    exact List.nodup_append.2 ⟨h, by simp, by
      intro a ha b hb
      rw [List.mem_singleton.1 hb]
      exact fun e => hk (e ▸ ha)⟩

/-- Stores a value under a key.  A key that is present keeps its place. -/
def insert (m : OrderedMap α β) (k : α) (v : β) : OrderedMap α β :=
  ⟨put k v m.entries, nodup_put k v m.nodup⟩

/-- Inserts the entries of a list one after another. -/
def insertMany (m : OrderedMap α β) (es : List (α × β)) : OrderedMap α β :=
  es.foldl (fun m e => m.insert e.1 e.2) m

/-- The map built by inserting the entries of a list one after another. -/
def ofList (es : List (α × β)) : OrderedMap α β := empty.insertMany es

theorem lookup_put (k j : α) (v : β) (es : List (α × β)) :
    lookup j (put k v es) = if k = j then some v else lookup j es := by
  induction es with
  | nil => simp [put, lookup]
  | cons e rest ih =>
    obtain ⟨i, w⟩ := e
    by_cases hi : i = k
    · subst hi; by_cases hj : i = j <;> simp [put, lookup, hj]
    · simp only [put, lookup, if_neg hi, ih]
      by_cases hk : k = j
      · subst hk; simp [hi]
      · simp [hk]

@[simp] theorem get?_empty (k : α) : (empty : OrderedMap α β).get? k = none := rfl

@[simp] theorem get?_insert (m : OrderedMap α β) (k j : α) (v : β) :
    (m.insert k v).get? j = if k = j then some v else m.get? j :=
  lookup_put k j v m.entries

theorem keys_insert (m : OrderedMap α β) (k : α) (v : β) :
    (m.insert k v).keys = if k ∈ m.keys then m.keys else m.keys ++ [k] :=
  keys_put k v m.entries

omit [DecidableEq α] in
theorem keys_nodup (m : OrderedMap α β) : m.keys.Nodup := m.nodup

end OrderedMap

end ScriptDebugger
