/-
  ScriptDebugger/Proofs/OrderedMap.lean
  =====================================
  **Maps that are filled from a list.**

  The keys of a map come in the order in which they were first inserted (`keys_ofList`),
  and under each of them the value is found that was stored last (`get?_ofList_eq`).  If
  the value of a key is a function of the key, a map that is filled key by key has one
  entry for each of the different keys that have a value, in the order of their first
  occurrences (`entries_ofList`).
-/
import ScriptDebugger.OrderedMap

namespace ScriptDebugger

/-- A key that occurred before is dropped, and a new one comes last. -/
theorem eraseDups_concat {α : Type} [DecidableEq α] (keys : List α) (k : α) :
    (keys ++ [k]).eraseDups = if k ∈ keys then keys.eraseDups else keys.eraseDups ++ [k] := by
  rw [List.eraseDups_append]
  by_cases hk : k ∈ keys
  · simp [hk, List.removeAll]
  · simp [hk, List.removeAll, List.eraseDups_cons]

namespace OrderedMap

variable {α β : Type}

/-- The entry of a key that may have a value. -/
def entryOf? (value : α → Option β) (k : α) : Option (α × β) := (value k).map fun v => (k, v)

theorem entryOf?_of_some {value : α → Option β} {k : α} {v : β} (hv : value k = some v) :
    entryOf? value k = some (k, v) := by
  rw [entryOf?, hv]
  rfl

theorem entryOf?_of_none {value : α → Option β} {k : α} (hv : value k = none) :
    entryOf? value k = none := by
  rw [entryOf?, hv]
  rfl

theorem mem_of_mem_entries {value : α → Option β} {k : α} {keys : List α}
    (hk : k ∈ (keys.filterMap (entryOf? value)).map Prod.fst) : k ∈ keys := by
  obtain ⟨entry, hentry, rfl⟩ := List.mem_map.mp hk
  obtain ⟨j, hj, hvalue⟩ := List.mem_filterMap.mp hentry
  obtain ⟨v, _, rfl⟩ := Option.map_eq_some_iff.mp hvalue
  exact hj

/-- The keys of the entries are the keys that have a value. -/
theorem map_fst_entryOf? (value : α → Option β) (keys : List α) :
    (keys.filterMap (entryOf? value)).map Prod.fst = keys.filter fun k => (value k).isSome := by
  induction keys with
  | nil => rfl
  | cons k keys ih =>
    cases hv : value k with
    | none =>
      rw [List.filterMap_cons_none (entryOf?_of_none hv), List.filter_cons_of_neg (by simp [hv]), ih]
    | some v =>
      rw [List.filterMap_cons_some (entryOf?_of_some hv), List.filter_cons_of_pos (by simp [hv]),
        List.map_cons, ih]

variable [DecidableEq α]

/-! ### Storing an entry -/

theorem put_of_not_mem {k : α} (v : β) {entries : List (α × β)}
    (hk : k ∉ entries.map Prod.fst) : put k v entries = entries ++ [(k, v)] := by
  induction entries with
  | nil => rfl
  | cons entry rest ih =>
    obtain ⟨j, w⟩ := entry
    rw [List.map_cons, List.mem_cons, not_or] at hk
    rw [put, if_neg fun h => hk.1 h.symm, ih hk.2, List.cons_append]

/-- What is stored already is stored without effect. -/
theorem put_of_lookup {k : α} {v : β} {entries : List (α × β)} (hk : lookup k entries = some v) :
    put k v entries = entries := by
  induction entries with
  | nil => cases hk
  | cons entry rest ih =>
    obtain ⟨j, w⟩ := entry
    rw [lookup] at hk
    rw [put]
    split at hk
    · rename_i hj
      cases hk
      rw [if_pos hj, hj]
    · rename_i hj
      rw [if_neg hj, ih hk]

/-! ### Looking entries up -/

/-- Keys are distinct, so an entry is what is found under its key. -/
theorem mem_entries_iff (m : OrderedMap α β) (k : α) (v : β) :
    (k, v) ∈ m.entries ↔ m.get? k = some v := by
  obtain ⟨entries, hnodup⟩ := m
  show (k, v) ∈ entries ↔ lookup k entries = some v
  induction entries with
  | nil => simp [lookup]
  | cons entry rest ih =>
    obtain ⟨j, w⟩ := entry
    rw [List.map_cons, List.nodup_cons] at hnodup
    rw [lookup, List.mem_cons]
    split
    · rename_i hj
      subst hj
      -- the key does not occur again
      have hrest : (j, v) ∉ rest := fun hmem =>
        hnodup.1 (List.mem_map.mpr ⟨(j, v), hmem, rfl⟩)
      simp [hrest, eq_comm]
    · rename_i hj
      rw [ih hnodup.2]
      simp [Ne.symm hj]

/-! ### Filling a map key by key -/

theorem lookup_filterMap (value : α → Option β) (k : α) (keys : List α) :
    lookup k (keys.filterMap (entryOf? value)) = if k ∈ keys then value k else none := by
  induction keys with
  | nil => rfl
  | cons j keys ih =>
    cases hv : value j with
    | none =>
      rw [List.filterMap_cons_none (entryOf?_of_none hv), ih]
      by_cases hj : j = k
      · simp [← hj, hv]
      · simp [Ne.symm hj]
    | some v =>
      rw [List.filterMap_cons_some (entryOf?_of_some hv), lookup, ih]
      by_cases hj : j = k
      · simp [← hj, hv]
      · simp [hj, Ne.symm hj]

/-- Further keys go to the end, unless they are there. -/
theorem entries_insertMany (value : α → Option β) (m : OrderedMap α β) (before keys : List α)
    (hm : m.entries = before.eraseDups.filterMap (entryOf? value)) :
    (m.insertMany (keys.filterMap (entryOf? value))).entries =
      (before ++ keys).eraseDups.filterMap (entryOf? value) := by
  induction keys generalizing m before with
  | nil =>
    rw [List.append_nil]
    exact hm
  | cons k keys ih =>
    rw [List.append_cons]
    cases hv : value k with
    | none =>
      rw [List.filterMap_cons_none (entryOf?_of_none hv)]
      apply ih m
      rw [hm, eraseDups_concat]
      split
      · rfl
      · rw [List.filterMap_append, List.filterMap_cons_none (entryOf?_of_none hv), List.filterMap_nil,
          List.append_nil]
    | some v =>
      rw [List.filterMap_cons_some (entryOf?_of_some hv)]
      apply ih (m.insert k v)
      have hput : (m.insert k v).entries = put k v m.entries := rfl
      rw [hput, hm, eraseDups_concat]
      split
      · rename_i hk
        apply put_of_lookup
        rw [lookup_filterMap, if_pos (List.mem_eraseDups.mpr hk), hv]
      · rename_i hk
        rw [put_of_not_mem v fun hmem => hk (List.mem_eraseDups.mp (mem_of_mem_entries hmem)),
          List.filterMap_append, List.filterMap_cons_some (entryOf?_of_some hv), List.filterMap_nil]

/-- **The entries come in the order of the first occurrences of their keys.** -/
theorem entries_ofList (value : α → Option β) (keys : List α) :
    (ofList (keys.filterMap (entryOf? value))).entries =
      keys.eraseDups.filterMap (entryOf? value) :=
  entries_insertMany value empty [] keys rfl

theorem get?_ofList (value : α → Option β) (k : α) (keys : List α) :
    (ofList (keys.filterMap (entryOf? value))).get? k = if k ∈ keys then value k else none := by
  rw [get?, entries_ofList, lookup_filterMap]
  simp only [List.mem_eraseDups]

/-! ### Filling a map with any entries -/

/-- The values that a list of entries stores under a key, in order. -/
def stored (entries : List (α × β)) (k : α) : List β :=
  (entries.filter fun entry => entry.1 = k).map Prod.snd

theorem stored_cons (entry : α × β) (entries : List (α × β)) (k : α) :
    stored (entry :: entries) k =
      if entry.1 = k then entry.2 :: stored entries k else stored entries k := by
  by_cases hk : entry.1 = k
  · simp [stored, hk]
  · simp [stored, hk]

theorem stored_append (entries later : List (α × β)) (k : α) :
    stored (entries ++ later) k = stored entries k ++ stored later k := by
  rw [stored, List.filter_append, List.map_append]
  rfl

theorem stored_eq_nil_iff (entries : List (α × β)) (k : α) :
    stored entries k = [] ↔ k ∉ entries.map Prod.fst := by
  rw [stored, List.map_eq_nil_iff, List.filter_eq_nil_iff]
  simp only [decide_eq_true_eq, List.mem_map, not_exists, not_and]

/-- **Keys come in the order in which they were first stored.** -/
theorem keys_insertMany (m : OrderedMap α β) (before : List α) (entries : List (α × β))
    (hm : m.keys = before.eraseDups) :
    (m.insertMany entries).keys = (before ++ entries.map Prod.fst).eraseDups := by
  induction entries generalizing m before with
  | nil =>
    rw [List.map_nil, List.append_nil]
    exact hm
  | cons entry entries ih =>
    rw [List.map_cons, List.append_cons]
    apply ih (m.insert entry.1 entry.2)
    rw [keys_insert, hm, eraseDups_concat]
    simp only [List.mem_eraseDups]

/-- **The value that was stored last under a key counts.** -/
theorem get?_insertMany (m : OrderedMap α β) (entries : List (α × β)) (k : α) :
    (m.insertMany entries).get? k = (stored entries k).getLast?.or (m.get? k) := by
  induction entries generalizing m with
  | nil => rfl
  | cons entry entries ih =>
    have hstep : m.insertMany (entry :: entries) =
        (m.insert entry.1 entry.2).insertMany entries := rfl
    rw [hstep, ih, get?_insert, stored_cons]
    split
    · rw [List.getLast?_cons]
      cases (stored entries k).getLast? <;> rfl
    · rfl

theorem keys_ofList (entries : List (α × β)) :
    (ofList entries).keys = (entries.map Prod.fst).eraseDups :=
  keys_insertMany empty [] entries rfl

theorem get?_ofList_eq (entries : List (α × β)) (k : α) :
    (ofList entries).get? k = (stored entries k).getLast? := by
  rw [ofList, get?_insertMany, get?_empty, Option.or_none]

theorem ofList_append (entries later : List (α × β)) :
    ofList (entries ++ later) = (ofList entries).insertMany later :=
  List.foldl_append

/-- A map is the list of its keys, each with what is found under it. -/
theorem entries_eq_map (m : OrderedMap α β) {value : α → β}
    (hvalue : ∀ k ∈ m.keys, m.get? k = some (value k)) :
    m.entries = m.keys.map fun k => (k, value k) := by
  have hentry (entry : α × β) (h : entry ∈ m.entries) : entry = (entry.1, value entry.1) := by
    have hget := (m.mem_entries_iff entry.1 entry.2).mp h
    rw [hvalue entry.1 (List.mem_map.mpr ⟨entry, h, rfl⟩)] at hget
    exact Prod.ext rfl (Option.some.inj hget).symm
  rw [keys, List.map_map]
  exact (List.map_id m.entries).symm.trans (List.map_congr_left hentry)

theorem entries_insertMany_of_fresh (m : OrderedMap α β) (entries : List (α × β))
    (hfresh : ((m.entries ++ entries).map Prod.fst).Nodup) :
    (m.insertMany entries).entries = m.entries ++ entries := by
  induction entries generalizing m with
  | nil => exact (List.append_nil _).symm
  | cons entry entries ih =>
    have hkey : entry.1 ∉ m.entries.map Prod.fst := by
      rw [List.map_append, List.map_cons, List.nodup_append] at hfresh
      exact fun hmem => hfresh.2.2 _ hmem _ List.mem_cons_self rfl
    have hput : (m.insert entry.1 entry.2).entries = m.entries ++ [entry] :=
      put_of_not_mem entry.2 hkey
    rw [List.append_cons, ← hput] at hfresh ⊢
    exact ih (m.insert entry.1 entry.2) hfresh

/-- Every map is built from its entries. -/
theorem ofList_entries (m : OrderedMap α β) : ofList m.entries = m :=
  ext (entries_insertMany_of_fresh empty m.entries m.nodup)

end OrderedMap

end ScriptDebugger
