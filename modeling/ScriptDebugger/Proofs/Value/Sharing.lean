/-
  ScriptDebugger/Proofs/Value/Sharing.lean
  ========================================
  **Composites that are written to through shared handles.**

  A handle may be held in many places, in the composite itself among them, and each of
  its holders can write.  What a composite holds after any writes hangs on the writes
  through its own handle alone, in their order (`Heap.cell?_writeAll`): an array has what
  was pushed after what it had, and an object is the map that is filled with what it was
  built from and then with what was inserted.  All else stays as it is, so to see each
  other's writes is to have the same identity (`Heap.same_array_iff`,
  `Heap.same_object_iff`).
-/
import ScriptDebugger.Proofs.OrderedMap
import ScriptDebugger.Value.Heap

namespace ScriptDebugger

/-! ### Writes -/

/-- A write to a composite through a handle of it. -/
inductive Write
  | push (array : Handle) (v : Value)
  | insert (object : Handle) (key : String) (v : Value)
  deriving DecidableEq, Repr

namespace Write

/-- The handle through which is written. -/
def target : Write → Handle
  | .push array _ => array
  | .insert object _ _ => object

/-- What a write does to the composite behind its handle. -/
def change : Write → Cell → Cell
  | .push _ v => Cell.push v
  | .insert _ key v => Cell.insert key v

/-- The value that a write pushes. -/
def pushed? : Write → Option Value
  | .push _ v => some v
  | .insert .. => none

/-- The member that a write inserts. -/
def inserted? : Write → Option (String × Value)
  | .push .. => none
  | .insert _ key v => some (key, v)

/-- The writes through a handle. -/
def through (h : Handle) (writes : List Write) : List Write :=
  writes.filter fun w => w.target = h

/-- The values that are pushed through a handle, in order. -/
def pushedThrough (h : Handle) (writes : List Write) : List Value :=
  (through h writes).filterMap pushed?

/-- The members that are inserted through a handle, in order. -/
def insertedThrough (h : Handle) (writes : List Write) : List (String × Value) :=
  (through h writes).filterMap inserted?

theorem through_through (h : Handle) (writes : List Write) :
    through h (through h writes) = through h writes := by
  rw [through, through, List.filter_filter]
  simp only [Bool.and_self]

theorem through_eq_nil {h : Handle} {writes : List Write} (hothers : ∀ w ∈ writes, w.target ≠ h) :
    through h writes = [] :=
  List.filter_eq_nil_iff.mpr fun w hw => by simpa using hothers w hw

end Write

namespace Heap

/-- Carries out a write. -/
def write (heap : Heap) : Write → Heap
  | .push array v => heap.push array v
  | .insert object key v => heap.insert object key v

/-- Carries out writes, one after another. -/
def writeAll (heap : Heap) (writes : List Write) : Heap := writes.foldl write heap

end Heap

/-! ### The writes to one composite -/

namespace Cell

/-- The composite after some writes to it. -/
def changeAll (cell : Cell) (writes : List Write) : Cell :=
  writes.foldl (fun cell w => w.change cell) cell

theorem changeAll_array (elements : List Value) (writes : List Write) :
    (array elements).changeAll writes = .array (elements ++ writes.filterMap Write.pushed?) := by
  induction writes generalizing elements with
  | nil => exact congrArg array (List.append_nil elements).symm
  | cons w writes ih =>
    cases w with
    | push h v =>
      have hrest := ih (elements ++ [v])
      rw [List.append_assoc] at hrest
      exact hrest
    | insert h key v => exact ih elements

theorem changeAll_object (members : OrderedMap String Value) (writes : List Write) :
    (object members).changeAll writes =
      .object (members.insertMany (writes.filterMap Write.inserted?)) := by
  induction writes generalizing members with
  | nil => rfl
  | cons w writes ih =>
    cases w with
    | push h v => exact ih members
    | insert h key v => exact ih (members.insert key v)

/-- Writes do not turn a composite into one of another kind. -/
theorem isComposite_changeAll (cell : Cell) (writes : List Write) :
    (cell.changeAll writes).isComposite = cell.isComposite := by
  induction writes generalizing cell with
  | nil => rfl
  | cons w writes ih =>
    have hchange : (w.change cell).isComposite = cell.isComposite := by
      cases w <;> cases cell <;> rfl
    exact (ih (w.change cell)).trans hchange

end Cell

namespace Heap

theorem cell?_write (heap : Heap) (w : Write) (h : Handle) :
    (heap.write w).cell? h = if w.target = h then (heap.cell? h).map w.change else heap.cell? h := by
  cases w with
  | push array v => exact cell?_update heap array h (Cell.push v)
  | insert object key v => exact cell?_update heap object h (Cell.insert key v)

theorem cell?_write_target (heap : Heap) (w : Write) :
    (heap.write w).cell? w.target = (heap.cell? w.target).map w.change := by
  rw [cell?_write, if_pos rfl]

/-- **A composite holds what was written through its own handle, and nothing else.** -/
theorem cell?_writeAll (heap : Heap) (writes : List Write) (h : Handle) :
    (heap.writeAll writes).cell? h =
      (heap.cell? h).map fun cell => cell.changeAll (Write.through h writes) := by
  induction writes generalizing heap with
  | nil => exact Option.map_id'.symm
  | cons w writes ih =>
    have hstep : heap.writeAll (w :: writes) = (heap.write w).writeAll writes := rfl
    rw [hstep, ih, cell?_write]
    by_cases hw : w.target = h
    · have hthrough : Write.through h (w :: writes) = w :: Write.through h writes :=
        List.filter_cons_of_pos (decide_eq_true hw)
      rw [if_pos hw, hthrough, Option.map_map]
      rfl
    · have hthrough : Write.through h (w :: writes) = Write.through h writes :=
        List.filter_cons_of_neg (by simpa using hw)
      rw [if_neg hw, hthrough]

variable {heap : Heap} {a b h : Handle}

theorem elements_of_cell? {elements : List Value} (hcell : heap.cell? h = some (.array elements)) :
    heap.elements h = elements := by
  rw [Heap.elements, hcell]
  rfl

theorem members_of_cell? {members : OrderedMap String Value}
    (hcell : heap.cell? h = some (.object members)) : heap.members h = members := by
  rw [Heap.members, hcell]
  rfl

theorem elements_writeAll {elements : List Value} (hcell : heap.cell? h = some (.array elements))
    (writes : List Write) :
    (heap.writeAll writes).elements h = elements ++ Write.pushedThrough h writes := by
  apply elements_of_cell?
  rw [cell?_writeAll, hcell, Option.map_some, Cell.changeAll_array]
  rfl

theorem members_writeAll {built : List (String × Value)}
    (hcell : heap.cell? h = some (.object (.ofList built))) (writes : List Write) :
    (heap.writeAll writes).members h = .ofList (built ++ Write.insertedThrough h writes) := by
  apply members_of_cell?
  rw [cell?_writeAll, hcell, Option.map_some, Cell.changeAll_object, OrderedMap.ofList_append]
  rfl

/-! ### Identity -/

theorem same_iff (heap : Heap) (a b : Handle) :
    heap.same (.shared a) (.shared b) = true ↔
      a = b ∧ ∃ cell, heap.cell? a = some cell ∧ cell.isComposite = true := by
  rw [same, Bool.and_eq_true, decide_eq_true_eq]
  cases heap.cell? a <;> simp

theorem same_writeAll (heap : Heap) (writes : List Write) (v w : Value) :
    (heap.writeAll writes).same v w = heap.same v w := by
  have hkind (h : Handle) : (((heap.writeAll writes).cell? h).map Cell.isComposite).getD false =
      ((heap.cell? h).map Cell.isComposite).getD false := by
    rw [cell?_writeAll, Option.map_map]
    congr 2
    exact funext fun cell => cell.isComposite_changeAll _
  cases v with
  | shared a =>
    cases w with
    | shared b => rw [same, same, hkind]
    | _ => rfl
  | _ => rfl

theorem elements_write_of_ne {w : Write} (hne : w.target ≠ h) :
    (heap.write w).elements h = heap.elements h := by
  rw [Heap.elements, cell?_write, if_neg hne]
  rfl

theorem member?_write_of_ne {w : Write} (hne : w.target ≠ h) (key : String) :
    (heap.write w).member? h key = heap.member? h key := by
  rw [member?, Heap.members, cell?_write, if_neg hne]
  rfl

/-- **A handle is a given one of an array if what is pushed through that one arrives.** -/
theorem same_array_iff {elements : List Value} (ha : heap.cell? a = some (.array elements)) :
    heap.same (.shared a) (.shared b) = true ↔
      ∀ v, (heap.push a v).elements b = heap.elements b ++ [v] := by
  rw [same_iff]
  constructor
  · rintro ⟨rfl, -⟩ v
    have hpush : (heap.push a v).cell? a = (heap.cell? a).map (Cell.push v) :=
      cell?_write_target heap (.push a v)
    rw [ha] at hpush
    rw [elements_of_cell? ha, elements_of_cell? hpush]
  · intro hseen
    refine ⟨Decidable.byContradiction fun hne => ?_, _, ha, rfl⟩
    have hkept : (heap.push a .null).elements b = heap.elements b :=
      elements_write_of_ne (w := .push a .null) hne
    rw [hseen .null] at hkept
    exact absurd (congrArg List.length hkept) (by simp)

/-- **A handle is a given one of an object if what is inserted through that one is found.** -/
theorem same_object_iff {members : OrderedMap String Value}
    (ha : heap.cell? a = some (.object members)) :
    heap.same (.shared a) (.shared b) = true ↔
      ∀ key v, (heap.insert a key v).member? b key = some v := by
  rw [same_iff]
  constructor
  · rintro ⟨rfl, -⟩ key v
    have hinsert : (heap.insert a key v).cell? a = (heap.cell? a).map (Cell.insert key v) :=
      cell?_write_target heap (.insert a key v)
    rw [ha] at hinsert
    rw [member?, members_of_cell? hinsert, OrderedMap.get?_insert, if_pos rfl]
  · intro hseen
    refine ⟨Decidable.byContradiction fun hne => ?_, _, ha, rfl⟩
    -- two values under one key cannot both have been there before
    have hkept (v : Value) : heap.member? b "" = some v :=
      (member?_write_of_ne (w := .insert a "" v) hne "").symm.trans (hseen "" v)
    cases (hkept .null).symm.trans (hkept .undefined)

/-- **Composites are shared by their handles.**  After any writes through any handles, the
    composites themselves possibly among the values that are written:

      * an array has what it had and then what was pushed through its handle, in order;
      * an object, which is the map built from some members, has every key once, in the order
        of first insertion, that from which it was built included, and under it the value
        that was inserted last; what is found under a key is what is listed, and nothing is
        found under a key that was never inserted;
      * a composite only hangs on the writes through its own handle, so it stays as it is if
        there are none;
      * no identity changes, and two handles have the same one exactly if every write through
        the one is seen through the other. -/
theorem handles_share_contents (heap : Heap) (writes : List Write) :
    let after := heap.writeAll writes
    -- arrays
    (∀ h elements, heap.cell? h = some (.array elements) →
      after.elements h = elements ++ Write.pushedThrough h writes ∧
      (after.elements h).length = elements.length + (Write.pushedThrough h writes).length) ∧
    -- objects
    (∀ h members, heap.cell? h = some (.object members) →
      members = .ofList members.entries ∧
      ∀ built, members = .ofList built →
        let inserted := built ++ Write.insertedThrough h writes
        (after.members h).keys.Nodup ∧
        (after.members h).keys = (inserted.map Prod.fst).eraseDups ∧
        (∀ key, after.member? h key =
          ((inserted.filter fun m => m.1 = key).map Prod.snd).getLast?) ∧
        (∀ key v, (key, v) ∈ (after.members h).entries ↔ after.member? h key = some v) ∧
        ∀ key, after.member? h key = none ↔ key ∉ inserted.map Prod.fst) ∧
    -- other composites
    (∀ h, after.cell? h = (heap.writeAll (Write.through h writes)).cell? h) ∧
    (∀ h, (∀ w ∈ writes, w.target ≠ h) → after.cell? h = heap.cell? h) ∧
    -- identity
    (∀ v w, after.same v w = heap.same v w) ∧
    (∀ a b elements, after.cell? a = some (.array elements) →
      (after.same (.shared a) (.shared b) = true ↔
        ∀ v, (after.push a v).elements b = after.elements b ++ [v])) ∧
    (∀ a b members, after.cell? a = some (.object members) →
      (after.same (.shared a) (.shared b) = true ↔
        ∀ key v, (after.insert a key v).member? b key = some v)) := by
  intro after
  refine ⟨?_, ?_, ?_, ?_, same_writeAll heap writes, fun a b elements => same_array_iff,
    fun a b members => same_object_iff⟩
  · intro h elements hcell
    have helements := elements_writeAll hcell writes
    exact ⟨helements, by rw [helements, List.length_append]⟩
  · intro h members hcell
    refine ⟨members.ofList_entries.symm, ?_⟩
    rintro built rfl inserted
    have hmembers : after.members h = .ofList inserted := members_writeAll hcell writes
    have hfind (key : String) : after.member? h key = (OrderedMap.stored inserted key).getLast? := by
      rw [member?, hmembers, OrderedMap.get?_ofList_eq]
    refine ⟨OrderedMap.keys_nodup _, ?_, hfind, ?_, ?_⟩
    · rw [hmembers, OrderedMap.keys_ofList]
    · exact fun key v => OrderedMap.mem_entries_iff _ key v
    · intro key
      rw [hfind, List.getLast?_eq_none_iff, OrderedMap.stored_eq_nil_iff]
  · intro h
    rw [cell?_writeAll, cell?_writeAll, Write.through_through]
  · intro h hothers
    rw [cell?_writeAll, Write.through_eq_nil hothers]
    exact Option.map_id'

-- An array comes to hold itself, and the object was built with a key twice.
example :
    let heap : Heap := ⟨#[.array [.null], .object (.ofList [("a", .null), ("b", .null), ("a", .undefined)])]⟩
    let after := heap.writeAll
      [.push ⟨0⟩ (.shared ⟨0⟩), .insert ⟨1⟩ "b" (.shared ⟨0⟩), .push ⟨0⟩ .undefined]
    after.elements ⟨0⟩ = [.null, .shared ⟨0⟩, .undefined] ∧
      (after.members ⟨1⟩).entries = [("a", .undefined), ("b", .shared ⟨0⟩)] := by decide

end Heap

end ScriptDebugger
