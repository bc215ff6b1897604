/-
  ScriptDebugger/Proofs/Stack/Failures.lean
  =========================================
  **What a failure does to a snapshot.**

  A frame may fail to be read as a whole, or at its name, its identifiers or one of
  its bindings, and other frames show nothing of it.  What can fail is the content of
  a `Place` of a call stack: of a saved frame, or of a position of the live table.
  `Shows` says which place a snapshot shows at which index, by the sequence of callers
  alone, and two call stacks agree off a set of places (`AgreeOff`) if they have the
  same shape and the same content at all other places.  Then

    * `getElem?_readings` — what is read at an index is the content of its place;
    * `Shows.of_agree` — the shape alone decides which place is shown where;
    * `readings_of_agree` — what is read at other places is the same.
-/
import Mathlib.Data.List.Basic
import Mathlib.Data.Set.Insert
import ScriptDebugger.Proofs.OrderedMap
import ScriptDebugger.Proofs.Stack.Chain

namespace ScriptDebugger

/-! ### The first end of a chain -/

/-- The first end of the chain of callers is `k` callers away from the head. -/
structure FirstEnd (saved : List SavedFrame) (head k : Nat) (anchor : Option Anchor) : Prop where
  ends : ChainEnd saved head k anchor
  first : ∀ j < k, ∀ other, ¬ ChainEnd saved head j other

section Ends

variable {saved : List SavedFrame} {head k k' : Nat} {anchor anchor' : Option Anchor}

theorem ChainEnd.unique (h : ChainEnd saved head k anchor) (h' : ChainEnd saved head k anchor') :
    anchor' = anchor := by
  cases h with
  | missing hnone =>
    cases h' with
    | missing | met => rfl
    | anchored hn _ hframe =>
      rw [frameAt_of_callerAt hn, hframe] at hnone
      cases hnone
  | met hn hj hbefore =>
    cases h' with
    | missing | met => rfl
    | anchored hn' hnew =>
      cases Option.some.inj (hn.symm.trans hn')
      exact absurd hbefore (hnew _ hj)
  | anchored hn hnew hframe hanchor =>
    cases h' with
    | missing hnone =>
      rw [frameAt_of_callerAt hn, hframe] at hnone
      cases hnone
    | met hn' hj hbefore =>
      cases Option.some.inj (hn.symm.trans hn')
      exact absurd hbefore (hnew _ hj)
    | anchored hn' _ hframe' hanchor' =>
      cases Option.some.inj (hn.symm.trans hn')
      cases Option.some.inj (hframe.symm.trans hframe')
      exact hanchor'.symm.trans hanchor

theorem FirstEnd.unique (h : FirstEnd saved head k anchor) (h' : FirstEnd saved head k' anchor') :
    k' = k ∧ anchor' = anchor := by
  have hk : k' = k := by
    rcases Nat.lt_trichotomy k' k with hlt | heq | hgt
    · exact absurd h'.ends (h.first k' hlt anchor')
    · exact heq
    · exact absurd h.ends (h'.first k hgt anchor)
  subst hk
  exact ⟨rfl, h.ends.unique h'.ends⟩

end Ends

/-! ### Places -/

/-- A place of a call stack whose content can be read. -/
inductive Place
  | saved (number : Nat)
  | live (position : Nat)

/-- A snapshot of the call stack shows at an index what is read at a place. -/
inductive Shows : ExecutionContext → Nat → Place → Reading → Prop
  | direct {table : FrameTable} {i : Nat} (hi : i < table.count) :
      Shows (.direct table) i (.live i) (table.frame i)
  | saved {saved : List SavedFrame} {head k i n : Nat} {anchor : Option Anchor}
      {frame : SavedFrame} (hend : FirstEnd saved head k anchor) (hi : i < k)
      (hn : callerAt saved head i = some n) (hframe : saved[n]? = some frame) :
      Shows (.resumed saved head) i (.saved n) frame.scope
  | live {saved : List SavedFrame} {head k j : Nat} {anchor : Anchor}
      (hend : FirstEnd saved head k (some anchor))
      (hj : anchor.start + j < anchor.table.count) :
      Shows (.resumed saved head) (k + j) (.live (anchor.start + j))
        (anchor.table.frame (anchor.start + j))

theorem getElem?_readings_resumed (saved : List SavedFrame) (head i : Nat) (reading : Reading) :
    (ExecutionContext.resumed saved head).readings[i]? = some reading ↔
      ∃ p, Shows (.resumed saved head) i p reading := by
  obtain ⟨k, unvisited, shown, anchor, h, hend, hreadings⟩ := exists_walked saved head
  have hfirst : FirstEnd saved head k anchor := ⟨hend, h.noEnd⟩
  rw [hreadings]
  constructor
  · intro hread
    by_cases hi : i < k
    · rw [List.getElem?_append_left (h.length.symm ▸ hi), h.reads i hi] at hread
      obtain ⟨frame, hframe, rfl⟩ := Option.map_eq_some_iff.mp hread
      obtain ⟨n, hn, hsaved⟩ := Option.bind_eq_some_iff.mp hframe
      exact ⟨.saved n, .saved hfirst hi hn hsaved⟩
    · obtain ⟨j, rfl⟩ := Nat.exists_eq_add_of_le (Nat.le_of_not_lt hi)
      rw [← h.length, List.getElem?_append_right (Nat.le_add_right _ j), Nat.add_sub_cancel_left,
        getElem?_drained] at hread
      cases anchor with
      | none => cases hread
      | some anchor =>
        rw [Option.bind_some] at hread
        split at hread
        · rename_i hj
          cases hread
          exact ⟨_, .live hfirst hj⟩
        · cases hread
  · rintro ⟨p, hshows⟩
    cases hshows with
    | saved hend' hi hn hframe =>
      obtain ⟨rfl, rfl⟩ := hfirst.unique hend'
      rw [List.getElem?_append_left (h.length.symm ▸ hi), h.reads i hi, frameAt_of_callerAt hn,
        hframe]
      rfl
    | @live _ _ _ j x hend' hj =>
      obtain ⟨rfl, rfl⟩ := hfirst.unique hend'
      rw [← h.length, List.getElem?_append_right (Nat.le_add_right _ j), Nat.add_sub_cancel_left,
        getElem?_drained, Option.bind_some, if_pos hj]

/-- **What is read at an index is the content of the place that is shown there.** -/
theorem getElem?_readings (c : ExecutionContext) (i : Nat) (reading : Reading) :
    c.readings[i]? = some reading ↔ ∃ p, Shows c i p reading := by
  cases c with
  | direct table =>
    rw [ExecutionContext.readings, FrameTable.getElem?_readingsFrom, Nat.zero_add]
    constructor
    · intro hread
      split at hread
      · rename_i hi
        cases hread
        exact ⟨_, .direct hi⟩
      · cases hread
    · rintro ⟨p, hshows⟩
      cases hshows with
      | direct hi => rw [if_pos hi]
  | resumed saved head => exact getElem?_readings_resumed saved head i reading

/-- No place is shown twice. -/
theorem Shows.index_eq {c : ExecutionContext} {i j : Nat} {p p' : Place}
    {reading reading' : Reading} (h : Shows c i p reading) (h' : Shows c j p' reading') (hp : p = p') : i = j := by
  cases h with
  | direct =>
    cases h' with
    | direct =>
      cases hp
      rfl
  | saved hend hi hn =>
    cases h' with
    | live => cases hp
    | saved hend' hj hn' =>
      cases hp
      obtain ⟨rfl, rfl⟩ := hend.unique hend'
      rcases Nat.lt_trichotomy i j with hlt | heq | hgt
      · exact absurd (.met hn' hlt hn) (hend.first j hj none)
      · exact heq
      · exact absurd (.met hn hgt hn') (hend.first i hi none)
  | live hend =>
    cases h' with
    | saved => cases hp
    | live hend' =>
      obtain ⟨rfl, hanchor⟩ := hend.unique hend'
      cases hanchor
      injection hp with hposition
      rw [Nat.add_left_cancel hposition]

/-! ### Call stacks of the same shape -/

section Agreement

variable (S : Set Place)

/-- Two tables agree off some places. -/
def FrameTable.AgreeOff (table table' : FrameTable) : Prop :=
  table'.count = table.count ∧
    ∀ position, .live position ∉ S → table'.frame position = table.frame position

def Anchor.AgreeOff (anchor anchor' : Anchor) : Prop :=
  anchor'.start = anchor.start ∧ anchor.table.AgreeOff S anchor'.table

structure SavedFrame.AgreeOff (n : Nat) (frame frame' : SavedFrame) : Prop where
  scope : .saved n ∉ S → frame'.scope = frame.scope
  parent : frame'.parent = frame.parent
  anchor : Option.Rel (Anchor.AgreeOff S) frame.anchor frame'.anchor

/-- Two call stacks have the same shape, and the same content off some places. -/
def ExecutionContext.AgreeOff : ExecutionContext → ExecutionContext → Prop
  | .direct table, .direct table' => table.AgreeOff S table'
  | .resumed saved head, .resumed saved' head' =>
    head' = head ∧ ∀ n : Nat, Option.Rel (SavedFrame.AgreeOff S n) saved[n]? saved'[n]?
  | _, _ => False

end Agreement

section Equivalence

variable {S : Set Place}

theorem rel_refl {α : Type} {r : α → α → Prop} (hr : ∀ a, r a a) (x : Option α) :
    Option.Rel r x x := by
  cases x with
  | some a => exact .some (hr a)
  | none => exact .none

theorem rel_symm {α β : Type} {r : α → β → Prop} {r' : β → α → Prop} (hr : ∀ a b, r a b → r' b a)
    {x : Option α} {y : Option β} (h : Option.Rel r x y) : Option.Rel r' y x := by
  cases h with
  | some hab => exact .some (hr _ _ hab)
  | none => exact .none

theorem FrameTable.AgreeOff.symm {table table' : FrameTable} (h : table.AgreeOff S table') :
    table'.AgreeOff S table :=
  ⟨h.1.symm, fun position hposition => (h.2 position hposition).symm⟩

theorem Anchor.AgreeOff.symm {anchor anchor' : Anchor} (h : anchor.AgreeOff S anchor') :
    anchor'.AgreeOff S anchor :=
  ⟨h.1.symm, h.2.symm⟩

theorem SavedFrame.AgreeOff.symm {n : Nat} {frame frame' : SavedFrame}
    (h : frame.AgreeOff S n frame') : frame'.AgreeOff S n frame where
  scope hn := (h.scope hn).symm
  parent := h.parent.symm
  anchor := rel_symm (fun _ _ => Anchor.AgreeOff.symm) h.anchor

theorem ExecutionContext.AgreeOff.symm {c c' : ExecutionContext} (h : c.AgreeOff S c') :
    c'.AgreeOff S c := by
  cases c with
  | direct table =>
    cases c' with
    | direct table' => exact FrameTable.AgreeOff.symm h
    | resumed => exact h.elim
  | resumed saved head =>
    cases c' with
    | direct => exact h.elim
    | resumed saved' head' =>
      exact ⟨h.1.symm, fun n => rel_symm (fun _ _ => SavedFrame.AgreeOff.symm) (h.2 n)⟩

theorem Anchor.AgreeOff.refl (anchor : Anchor) : anchor.AgreeOff S anchor :=
  ⟨rfl, rfl, fun _ _ => rfl⟩

theorem SavedFrame.AgreeOff.refl (n : Nat) (frame : SavedFrame) : frame.AgreeOff S n frame where
  scope _ := rfl
  parent := rfl
  anchor := rel_refl Anchor.AgreeOff.refl frame.anchor

end Equivalence

/-- The content of a saved frame can be another one. -/
theorem agreeOff_modify (saved : List SavedFrame) (head n : Nat) (reading : Reading) :
    (ExecutionContext.resumed saved head).AgreeOff {.saved n}
      (.resumed (saved.modify n fun frame => { frame with scope := reading }) head) := by
  refine ⟨rfl, fun m => ?_⟩
  rw [List.getElem?_modify]
  cases saved[m]? with
  | none => exact .none
  | some frame =>
    refine .some ?_
    by_cases hm : n = m
    · simp only [if_pos hm]
      refine ⟨fun hother => absurd ?_ hother, rfl, rel_refl Anchor.AgreeOff.refl frame.anchor⟩
      rw [hm]
      rfl
    · simp only [if_neg hm]
      exact .refl m frame

theorem agreeOff_update (table : FrameTable) (position : Nat) (reading : Reading) :
    (ExecutionContext.direct table).AgreeOff {.live position}
      (.direct { table with frame := Function.update table.frame position reading }) := by
  refine ⟨rfl, fun other hother => ?_⟩
  apply Function.update_of_ne
  rintro rfl
  exact hother rfl

section SameShape

variable {S : Set Place} {saved saved' : List SavedFrame} {head i k : Nat}
  {anchor : Option Anchor}

theorem exists_of_rel {α β : Type} {r : α → β → Prop} {x : Option α} {y : Option β}
    (h : Option.Rel r x y) {a : α} (hx : x = some a) : ∃ b, y = some b ∧ r a b := by
  subst hx
  cases h with
  | some hab => exact ⟨_, rfl, hab⟩

theorem none_of_rel {α β : Type} {r : α → β → Prop} {x : Option α} {y : Option β}
    (h : Option.Rel r x y) (hx : x = none) : y = none := by
  subst hx
  cases h with
  | none => rfl

theorem callerAt_of_agree
    (h : ∀ n : Nat, Option.Rel (SavedFrame.AgreeOff S n) saved[n]? saved'[n]?) (i : Nat) :
    callerAt saved' head i = callerAt saved head i := by
  induction i with
  | zero => rfl
  | succ i ih =>
    rw [callerAt, callerAt, ih]
    cases callerAt saved head i with
    | none => rfl
    | some n =>
      rw [Option.bind_some, Option.bind_some]
      cases hframe : saved[n]? with
      | none => rw [none_of_rel (h n) hframe]
      | some frame =>
        obtain ⟨frame', hframe', hagree⟩ := exists_of_rel (h n) hframe
        rw [hframe']
        exact hagree.parent

theorem ChainEnd.of_agree
    (h : ∀ n : Nat, Option.Rel (SavedFrame.AgreeOff S n) saved[n]? saved'[n]?)
    (hend : ChainEnd saved head i anchor) :
    ∃ anchor', Option.Rel (Anchor.AgreeOff S) anchor anchor' ∧ ChainEnd saved' head i anchor' := by
  have hcaller : ∀ i, callerAt saved' head i = callerAt saved head i := callerAt_of_agree h
  cases hend with
  | missing hnone =>
    refine ⟨none, .none, .missing ?_⟩
    cases hn : callerAt saved head i with
    | none => rw [frameAt, hcaller, hn]; rfl
    | some n =>
      rw [frameAt_of_callerAt hn] at hnone
      rw [frameAt_of_callerAt ((hcaller i).trans hn), none_of_rel (h n) hnone]
  | @met n j hn hj hbefore =>
    exact ⟨none, .none, .met ((hcaller i).trans hn) hj ((hcaller j).trans hbefore)⟩
  | @anchored n frame anchor hn hnew hframe hanchor =>
    obtain ⟨frame', hframe', hagree⟩ := exists_of_rel (h n) hframe
    obtain ⟨anchor', hanchor', hsame⟩ := exists_of_rel hagree.anchor hanchor
    have hnew' (j : Nat) (hj : j < i) : callerAt saved' head j ≠ some n := by
      rw [hcaller]
      exact hnew j hj
    exact ⟨some anchor', .some hsame, .anchored ((hcaller i).trans hn) hnew' hframe' hanchor'⟩

theorem FirstEnd.of_agree
    (h : ∀ n : Nat, Option.Rel (SavedFrame.AgreeOff S n) saved[n]? saved'[n]?)
    (hend : FirstEnd saved head k anchor) :
    ∃ anchor', Option.Rel (Anchor.AgreeOff S) anchor anchor' ∧ FirstEnd saved' head k anchor' := by
  obtain ⟨anchor', hsame, hend'⟩ := hend.ends.of_agree h
  refine ⟨anchor', hsame, hend', fun j hj other hother => ?_⟩
  -- an earlier end would be one of the first chain as well
  have hback (n : Nat) : Option.Rel (SavedFrame.AgreeOff S n) saved'[n]? saved[n]? :=
    rel_symm (fun _ _ => SavedFrame.AgreeOff.symm) (h n)
  obtain ⟨_, _, hearlier⟩ := hother.of_agree hback
  exact hend.first j hj _ hearlier

end SameShape

variable {S : Set Place} {c c' : ExecutionContext}

/-- **Call stacks of the same shape show the same places, with the same content off
    the places where they differ.** -/
theorem Shows.of_agree {i : Nat} {p : Place} {reading : Reading} (h : Shows c i p reading)
    (hagree : c.AgreeOff S c') :
    ∃ reading', Shows c' i p reading' ∧ (p ∉ S → reading' = reading) := by
  cases h with
  | direct hi =>
    cases c' with
    | direct table' =>
      obtain ⟨hcount, hframes⟩ := hagree
      exact ⟨_, .direct (hcount ▸ hi), hframes i⟩
    | resumed => exact hagree.elim
  | saved hend hi hn hframe =>
    cases c' with
    | direct => exact hagree.elim
    | resumed saved' head' =>
      obtain ⟨rfl, hsaved⟩ := hagree
      obtain ⟨anchor', _, hend'⟩ := hend.of_agree hsaved
      obtain ⟨frame', hframe', hsame⟩ := exists_of_rel (hsaved _) hframe
      exact ⟨_, .saved hend' hi ((callerAt_of_agree hsaved i).trans hn) hframe', hsame.scope⟩
  | @live _ _ k j anchor hend hj =>
    cases c' with
    | direct => exact hagree.elim
    | resumed saved' head' =>
      obtain ⟨rfl, hsaved⟩ := hagree
      obtain ⟨_, hrel, hend'⟩ := hend.of_agree hsaved
      obtain ⟨anchor', rfl, hstart, hcount, hframes⟩ := exists_of_rel hrel rfl
      have hshows := Shows.live hend' (j := j) (by rw [hstart, hcount]; exact hj)
      rw [hstart] at hshows
      exact ⟨_, hshows, hframes _⟩

theorem readings_of_agree (hagree : c.AgreeOff S c') {i : Nat}
    (hi : ∀ p ∈ S, ∀ reading, ¬ Shows c i p reading) : c'.readings[i]? = c.readings[i]? := by
  apply Option.ext
  intro reading
  rw [getElem?_readings, getElem?_readings]
  constructor
  · rintro ⟨p, hshows⟩
    obtain ⟨reading', hshows', hsame⟩ := hshows.of_agree hagree.symm
    have hp : p ∉ S := fun hp => hi p hp reading' hshows'
    exact ⟨p, hsame hp ▸ hshows'⟩
  · rintro ⟨p, hshows⟩
    obtain ⟨reading', hshows', hsame⟩ := hshows.of_agree hagree
    have hp : p ∉ S := fun hp => hi p hp reading hshows
    exact ⟨p, hsame hp ▸ hshows'⟩

theorem length_readings_le (hagree : c.AgreeOff S c') : c.readings.length ≤ c'.readings.length := by
  by_contra hlt
  rw [Nat.not_le] at hlt
  obtain ⟨p, hshows⟩ := (getElem?_readings c _ _).mp (List.getElem?_eq_getElem hlt)
  obtain ⟨reading, hshows', _⟩ := hshows.of_agree hagree
  have hread := (getElem?_readings c' _ reading).mpr ⟨p, hshows'⟩
  rw [List.getElem?_eq_none (Nat.le_refl _)] at hread
  cases hread

theorem length_readings_of_agree (hagree : c.AgreeOff S c') :
    c'.readings.length = c.readings.length :=
  Nat.le_antisymm (length_readings_le hagree.symm) (length_readings_le hagree)

/-! ### Frames -/

namespace Assembler

variable (a : Assembler) (heap : Heap)

theorem getElem?_frames_eq_some (c : ExecutionContext) (i : Nat) (frame : ScopeFrame) :
    (a.assemble heap c).frames[i]? = some frame ↔
      ∃ p reading, Shows c i p reading ∧ frame = a.frame heap i reading := by
  rw [getElem?_assemble]
  constructor
  · intro hframe
    obtain ⟨reading, hread, rfl⟩ := Option.map_eq_some_iff.mp hframe
    obtain ⟨p, hshows⟩ := (getElem?_readings c i reading).mp hread
    exact ⟨p, reading, hshows, rfl⟩
  · rintro ⟨p, reading, hshows, rfl⟩
    rw [(getElem?_readings c i reading).mpr ⟨p, hshows⟩]
    rfl

theorem map_index_frames (c : ExecutionContext) :
    (a.assemble heap c).frames.map ScopeFrame.index = List.range c.readings.length := by
  apply List.ext_getElem
  · simp [length_assemble]
  · intro i _ _
    simp [assemble, frame_index]

/-- The bindings in the order of the first occurrences of their names. -/
theorem entries_bindings (scope : Scope) (names : List String) :
    (a.bindings heap scope names).entries =
      names.eraseDups.filterMap
        (OrderedMap.entryOf? fun n => a.bindingText heap (scope.binding n)) :=
  OrderedMap.entries_ofList _ names

theorem get?_bindings (scope : Scope) (names : List String) (n : String) :
    (a.bindings heap scope names).get? n =
      if n ∈ names then a.bindingText heap (scope.binding n) else none :=
  OrderedMap.get?_ofList _ n names

/-- What some names are bound to hangs on what is read at these names only. -/
theorem filter_entries_bindings {scope scope' : Scope} {keep : String → Bool}
    (h : ∀ n, keep n = true → scope'.binding n = scope.binding n) (names : List String) :
    (a.bindings heap scope' names).entries.filter (fun b => keep b.1) =
      (a.bindings heap scope names).entries.filter (fun b => keep b.1) := by
  rw [entries_bindings, entries_bindings, List.filter_filterMap, List.filter_filterMap]
  refine List.filterMap_congr fun n _ => ?_
  by_cases hn : keep n = true
  · simp only [OrderedMap.entryOf?, h n hn]
  · simp [OrderedMap.entryOf?, Option.filter_map, Function.comp_def, hn]

theorem frame_of_names {scope : Scope} {names : List String}
    (hnames : scope.identifiers = .ok names) (i : Nat) :
    a.frame heap i (.ok scope) =
      ⟨i, a.functionName scope, a.bindings heap scope names, none⟩ := by
  simp only [frame, hnames]

/-- **A failure stays where it happens.**  Each entry of a snapshot is made of what is
    read at one place of the call stack, and no place is shown twice.  Call stacks of
    the same shape have entries of the same number and with the same indices, whatever
    fails.  A frame that cannot be read is one entry without bindings; a name that
    cannot be read is replaced; without its identifiers a frame keeps its name only;
    a binding that cannot be read is replaced, and other bindings of the frame stay as
    they are.  If two call stacks differ in the content of one place only, all entries
    but the one that shows this place are equal. -/
theorem failures_are_local :
    -- entries and places
    (∀ c i frame, (a.assemble heap c).frames[i]? = some frame ↔
      ∃ p reading, Shows c i p reading ∧ frame = a.frame heap i reading) ∧
    (∀ c i j p reading reading', Shows c i p reading → Shows c j p reading' → i = j) ∧
    -- number and indices
    (∀ (S : Set Place) c c', c.AgreeOff S c' →
      (a.assemble heap c').frames.length = (a.assemble heap c).frames.length ∧
      (a.assemble heap c').frames.map ScopeFrame.index =
        (a.assemble heap c).frames.map ScopeFrame.index) ∧
    -- a frame, a name, identifiers
    (∀ i error, a.frame heap i (.error error) =
      ⟨i, "<unavailable>", .empty, some error.message⟩) ∧
    (∀ i (scope : Scope) error,
      a.frame heap i (.ok { scope with functionName := .error error }) =
        { a.frame heap i (.ok scope) with functionName := "<unavailable>" }) ∧
    (∀ i (scope : Scope) error,
      a.frame heap i (.ok { scope with identifiers := .error error }) =
        ⟨i, (a.frame heap i (.ok scope)).functionName, .empty, some error.message⟩) ∧
    -- bindings
    (∀ i (scope scope' : Scope) names (keep : String → Bool), scope.identifiers = .ok names →
      scope'.identifiers = .ok names → scope'.functionName = scope.functionName →
      (∀ n, keep n = true → scope'.binding n = scope.binding n) →
      let frame := a.frame heap i (.ok scope)
      let failed := a.frame heap i (.ok scope')
      failed.functionName = frame.functionName ∧ failed.error = none ∧
        failed.bindings.entries.filter (fun b => keep b.1) =
          frame.bindings.entries.filter (fun b => keep b.1) ∧
        ∀ n ∈ names, ∀ error, scope'.binding n = .error error →
          failed.bindings.get? n = some "<unavailable>") ∧
    -- the content of one place
    (∀ saved head n reading, (ExecutionContext.resumed saved head).AgreeOff {.saved n}
      (.resumed (saved.modify n fun frame => { frame with scope := reading }) head)) ∧
    (∀ table position reading, (ExecutionContext.direct table).AgreeOff {.live position}
      (.direct { table with frame := Function.update table.frame position reading })) ∧
    (∀ c c' p, c.AgreeOff {p} c' → ∀ i, (∀ reading, ¬ Shows c i p reading) →
      (a.assemble heap c').frames[i]? = (a.assemble heap c).frames[i]?) := by
  refine ⟨a.getElem?_frames_eq_some heap, ?_, ?_, ?_, ?_, ?_, ?_, agreeOff_modify,
    agreeOff_update, ?_⟩
  · intro c i j p reading reading' h h'
    exact h.index_eq h' rfl
  · intro S c c' hagree
    have hlength := length_readings_of_agree hagree
    rw [length_assemble, length_assemble, map_index_frames, map_index_frames, hlength]
    exact ⟨rfl, rfl⟩
  · intro i error
    rfl
  · intro i scope error
    simp only [frame]
    cases scope.identifiers with
    | error e => rfl
    | ok names => rfl
  · intro i scope error
    simp only [frame]
    cases scope.identifiers with
    | error e => rfl
    | ok names => rfl
  · intro i scope scope' names keep hnames hnames' hname hkeep frame failed
    have hframe : frame = _ := a.frame_of_names heap hnames i
    have hfailed : failed = _ := a.frame_of_names heap hnames' i
    rw [hframe, hfailed]
    refine ⟨?_, rfl, a.filter_entries_bindings heap hkeep names, fun n hn error hread => ?_⟩
    · simp only [functionName, hname]
    · rw [get?_bindings, if_pos hn, hread]
      rfl
  · intro c c' p hagree i hi
    rw [getElem?_assemble, getElem?_assemble, readings_of_agree hagree]
    rintro q rfl reading
    exact hi reading

end Assembler

-- The frame in the middle cannot be read.
example (a : Assembler) (heap : Heap) (scope : Scope) (error : IntrospectionError) :
    let frames := (a.assemble heap (.resumed [⟨.ok scope, some 1, none⟩,
      ⟨.error error, some 2, none⟩, ⟨.ok scope, none, none⟩] 0)).frames
    frames[1]? = some ⟨1, "<unavailable>", .empty, some error.message⟩ ∧ frames.length = 3 := by
  simp [Assembler.assemble, Assembler.frame, ExecutionContext.readings, walk, List.range_succ,
    unavailableMarker]

end ScriptDebugger
