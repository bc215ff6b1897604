/-
  ScriptDebugger/Proofs/Stack/Chain.lean
  ======================================
  **Which frames a snapshot shows, and in which order.**

  The callers of a captured call stack are a sequence of frame numbers
  (`callerAt`), which may end, run into a loop, or come to a frame that stands for
  the rest of a live table.  `ChainEnd` tells these three ways apart.  The walk shows
  the frames before the first end, and then the rest of the table if that end is of
  the third kind:

    * `Walked` is what is true after `i` frames, and `Walked.step` is one round;
    * `Walked.run` follows the rounds to the first end, which comes after as many
      rounds as there are frames, at the latest.
-/
import ScriptDebugger.Stack.Assembly

namespace ScriptDebugger

/-! ### The callers of a captured call stack -/

/-- The number of the frame that is `i` callers away from the head. -/
def callerAt (saved : List SavedFrame) (head : Nat) : Nat → Option Nat
  | 0 => some head
  | i + 1 => (callerAt saved head i).bind fun n => saved[n]?.bind SavedFrame.parent

/-- The frame that is `i` callers away from the head. -/
def frameAt (saved : List SavedFrame) (head : Nat) (i : Nat) : Option SavedFrame :=
  (callerAt saved head i).bind fun n => saved[n]?

/-- The chain of callers ends at its `i`-th frame, with the anchor of that frame if
    the rest of a live table stands for it. -/
inductive ChainEnd (saved : List SavedFrame) (head : Nat) (i : Nat) : Option Anchor → Prop
  /-- There is no such frame. -/
  | missing (hframe : frameAt saved head i = none) : ChainEnd saved head i none
  /-- It is a frame that came before. -/
  | met {n j : Nat} (hn : callerAt saved head i = some n) (hj : j < i)
      (hbefore : callerAt saved head j = some n) : ChainEnd saved head i none
  /-- It is a new frame, and it is anchored. -/
  | anchored {n : Nat} {frame : SavedFrame} {anchor : Anchor}
      (hn : callerAt saved head i = some n) (hnew : ∀ j < i, callerAt saved head j ≠ some n)
      (hframe : saved[n]? = some frame) (hanchor : frame.anchor = some anchor) :
      ChainEnd saved head i (some anchor)

section Callers

variable {saved : List SavedFrame} {head i n : Nat} {frame : SavedFrame}

theorem frameAt_of_callerAt (hn : callerAt saved head i = some n) :
    frameAt saved head i = saved[n]? := by
  rw [frameAt, hn]
  rfl

theorem callerAt_succ (hn : callerAt saved head i = some n) (hframe : saved[n]? = some frame) :
    callerAt saved head (i + 1) = frame.parent := by
  rw [callerAt, hn, Option.bind_some, hframe, Option.bind_some]

/-- A new frame that is not anchored is no end. -/
theorem not_chainEnd (hn : callerAt saved head i = some n)
    (hnew : ∀ j < i, callerAt saved head j ≠ some n) (hframe : saved[n]? = some frame)
    (hanchor : frame.anchor = none) (anchor : Option Anchor) : ¬ ChainEnd saved head i anchor := by
  intro hend
  cases hend with
  | missing hnone =>
    rw [frameAt_of_callerAt hn, hframe] at hnone
    cases hnone
  | met hm hj hbefore =>
    rw [hn] at hm
    exact hnew _ hj (hm ▸ hbefore)
  | anchored hm _ hframe' hanchor' =>
    cases Option.some.inj (hn.symm.trans hm)
    cases Option.some.inj (hframe.symm.trans hframe')
    rw [hanchor] at hanchor'
    cases hanchor'

end Callers

/-! ### One round of the walk -/

section Walk

variable {saved : List SavedFrame} {unvisited : List Nat} {n : Nat} {frame : SavedFrame}

theorem walk_none : walk saved unvisited none = [] := by
  rw [walk]

theorem walk_of_not_mem (hn : n ∉ unvisited) : walk saved unvisited (some n) = [] := by
  rw [walk]
  exact dif_neg hn

theorem walk_of_missing (hframe : saved[n]? = none) : walk saved unvisited (some n) = [] := by
  rw [walk]
  split <;> simp only [hframe]

theorem walk_of_anchored (hn : n ∈ unvisited) (hframe : saved[n]? = some frame) {anchor : Anchor}
    (hanchor : frame.anchor = some anchor) :
    walk saved unvisited (some n) = anchor.table.readingsFrom anchor.start := by
  rw [walk]
  simp only [dif_pos hn, hframe, hanchor]

theorem walk_of_saved (hn : n ∈ unvisited) (hframe : saved[n]? = some frame)
    (hanchor : frame.anchor = none) :
    walk saved unvisited (some n) =
      frame.scope :: walk saved (unvisited.erase n) frame.parent := by
  rw [walk]
  simp only [dif_pos hn, hframe, hanchor]

end Walk

namespace FrameTable

variable (table : FrameTable) (start : Nat)

theorem length_readingsFrom : (table.readingsFrom start).length = table.count - start := by
  simp [readingsFrom]

theorem getElem?_readingsFrom (j : Nat) :
    (table.readingsFrom start)[j]? =
      if start + j < table.count then some (table.frame (start + j)) else none := by
  unfold readingsFrom
  rw [List.getElem?_map]
  split
  · rename_i hj
    rw [List.getElem?_range' (by omega)]
    simp
  · rename_i hj
    rw [List.getElem?_eq_none (by rw [List.length_range']; omega)]
    rfl

end FrameTable

/-- The frames that the end of a chain brings along. -/
def drained : Option Anchor → List Reading
  | none => []
  | some anchor => anchor.table.readingsFrom anchor.start

theorem length_drained (anchor : Option Anchor) :
    (drained anchor).length = anchor.elim 0 fun x => x.table.count - x.start := by
  cases anchor with
  | none => rfl
  | some x => exact x.table.length_readingsFrom x.start

theorem getElem?_drained (anchor : Option Anchor) (j : Nat) :
    (drained anchor)[j]? = anchor.bind fun x =>
      if x.start + j < x.table.count then some (x.table.frame (x.start + j)) else none := by
  cases anchor with
  | none => rfl
  | some x => exact x.table.getElem?_readingsFrom x.start j

/-- What is true after `i` frames: none of them was an end, they were shown in this
    order, and the walk goes on from the next caller with the frames that are left. -/
structure Walked (saved : List SavedFrame) (head i : Nat) (unvisited : List Nat)
    (shown : List Reading) : Prop where
  nodup : unvisited.Nodup
  left : ∀ n, n ∈ unvisited ↔ n < saved.length ∧ ∀ j < i, callerAt saved head j ≠ some n
  count : unvisited.length + i = saved.length
  noEnd : ∀ j < i, ∀ anchor, ¬ ChainEnd saved head j anchor
  length : shown.length = i
  reads : ∀ j < i, shown[j]? = (frameAt saved head j).map SavedFrame.scope
  rest : walk saved (List.range saved.length) (some head) =
    shown ++ walk saved unvisited (callerAt saved head i)

namespace Walked

variable {saved : List SavedFrame} {head i : Nat} {unvisited : List Nat} {shown : List Reading}

theorem start : Walked saved head 0 (List.range saved.length) [] where
  nodup := List.nodup_range
  left n := by simp
  count := by simp
  noEnd j hj := absurd hj (Nat.not_lt_zero j)
  length := rfl
  reads j hj := absurd hj (Nat.not_lt_zero j)
  rest := rfl

/-- A caller that is no more among the unvisited frames is an end of the chain. -/
theorem chainEnd_of_not_mem (h : Walked saved head i unvisited shown) {n : Nat}
    (hn : callerAt saved head i = some n) (hmem : n ∉ unvisited) : ChainEnd saved head i none := by
  by_cases hlt : n < saved.length
  · by_cases hmet : ∃ j, j < i ∧ callerAt saved head j = some n
    · obtain ⟨j, hj, hbefore⟩ := hmet
      exact .met hn hj hbefore
    · have hnew : ∀ j < i, callerAt saved head j ≠ some n := fun j hj hbefore =>
        hmet ⟨j, hj, hbefore⟩
      exact absurd ((h.left n).mpr ⟨hlt, hnew⟩) hmem
  · refine .missing ?_
    rw [frameAt_of_callerAt hn]
    exact List.getElem?_eq_none (Nat.le_of_not_lt hlt)

/-- The frames that are left after one more was visited. -/
theorem left_erase (h : Walked saved head i unvisited shown) {n : Nat}
    (hn : callerAt saved head i = some n) (m : Nat) :
    m ∈ unvisited.erase n ↔ m < saved.length ∧ ∀ j < i + 1, callerAt saved head j ≠ some m := by
  rw [h.nodup.mem_erase_iff, h.left m]
  constructor
  · rintro ⟨hne, hlt, hbefore⟩
    refine ⟨hlt, fun j hj => ?_⟩
    rcases Nat.lt_succ_iff_lt_or_eq.mp hj with hj | rfl
    · exact hbefore j hj
    · rw [hn]
      exact fun e => hne (Option.some.inj e).symm
  · rintro ⟨hlt, hbefore⟩
    refine ⟨fun e => ?_, hlt, fun j hj => hbefore j (Nat.lt_succ_of_lt hj)⟩
    exact hbefore i (Nat.lt_succ_self i) (e ▸ hn)

/-- A frame that is neither anchored nor came before is shown, and the walk goes on
    to its parent. -/
theorem next (h : Walked saved head i unvisited shown) {n : Nat} {frame : SavedFrame}
    (hn : callerAt saved head i = some n) (hmem : n ∈ unvisited) (hframe : saved[n]? = some frame)
    (hanchor : frame.anchor = none) :
    Walked saved head (i + 1) (unvisited.erase n) (shown ++ [frame.scope]) where
  nodup := h.nodup.erase n
  left := h.left_erase hn
  count := by
    have hpos : 0 < unvisited.length := List.length_pos_of_mem hmem
    have hcount := h.count
    rw [List.length_erase_of_mem hmem]
    omega
  noEnd j hj anchor := by
    rcases Nat.lt_succ_iff_lt_or_eq.mp hj with hj | rfl
    · exact h.noEnd j hj anchor
    · exact not_chainEnd hn ((h.left n).mp hmem).2 hframe hanchor anchor
  length := by rw [List.length_append, h.length, List.length_singleton]
  reads j hj := by
    rcases Nat.lt_succ_iff_lt_or_eq.mp hj with hj | rfl
    · rw [List.getElem?_append_left (h.length.symm ▸ hj)]
      exact h.reads j hj
    · rw [List.getElem?_append_right (Nat.le_of_eq h.length), h.length, frameAt_of_callerAt hn, hframe]
      simp
  rest := by
    rw [h.rest, hn, walk_of_saved hmem hframe hanchor, callerAt_succ hn hframe, List.append_assoc,
      List.singleton_append]

/-- **One round:** the chain ends here, or the walk shows one more frame. -/
theorem step (h : Walked saved head i unvisited shown) :
    (∃ anchor, ChainEnd saved head i anchor ∧
      walk saved unvisited (callerAt saved head i) = drained anchor) ∨
      ∃ n ∈ unvisited, ∃ frame : SavedFrame,
        Walked saved head (i + 1) (unvisited.erase n) (shown ++ [frame.scope]) := by
  cases hn : callerAt saved head i with
  | none => exact .inl ⟨none, .missing (by rw [frameAt, hn]; rfl), walk_none⟩
  | some n =>
    by_cases hmem : n ∈ unvisited
    · obtain ⟨hlt, hnew⟩ := (h.left n).mp hmem
      have hframe : saved[n]? = some saved[n] := List.getElem?_eq_getElem hlt
      cases hanchor : saved[n].anchor with
      | none => exact .inr ⟨n, hmem, saved[n], h.next hn hmem hframe hanchor⟩
      | some anchor =>
        exact .inl ⟨some anchor, .anchored hn hnew hframe hanchor,
          walk_of_anchored hmem hframe hanchor⟩
    · exact .inl ⟨none, h.chainEnd_of_not_mem hn hmem, walk_of_not_mem hmem⟩

/-- **All rounds:** the walk comes to an end, since every round visits a new frame. -/
theorem run {i : Nat} {unvisited : List Nat} {shown : List Reading}
    (h : Walked saved head i unvisited shown) :
    ∃ k unvisited' shown' anchor, Walked saved head k unvisited' shown' ∧
      ChainEnd saved head k anchor ∧
      walk saved (List.range saved.length) (some head) = shown' ++ drained anchor := by
  rcases h.step with ⟨anchor, hend, hwalk⟩ | ⟨n, hmem, frame, hnext⟩
  · exact ⟨i, unvisited, shown, anchor, h, hend, by rw [h.rest, hwalk]⟩
  · exact hnext.run
termination_by unvisited.length
decreasing_by
  have hpos : 0 < unvisited.length := List.length_pos_of_mem hmem
  rw [List.length_erase_of_mem hmem]
  omega

theorem frameAt_isSome (h : Walked saved head i unvisited shown) {j : Nat} (hj : j < i) :
    ∃ frame, frameAt saved head j = some frame := by
  cases hframe : frameAt saved head j with
  | none => exact absurd (.missing hframe) (h.noEnd j hj none)
  | some frame => exact ⟨frame, rfl⟩

/-- The frames that were shown are different ones. -/
theorem callerAt_injective (h : Walked saved head i unvisited shown) {j j' : Nat} (hj : j < i)
    (hj' : j' < i) (hsame : callerAt saved head j = callerAt saved head j') : j = j' := by
  -- the later one of two equal callers would end the chain
  have hlater {l m : Nat} (hm : m < i) (hlm : callerAt saved head l = callerAt saved head m) :
      ¬ l < m := by
    intro hlt
    obtain ⟨frame, hframe⟩ := h.frameAt_isSome hm
    cases hn : callerAt saved head m with
    | none =>
      rw [frameAt, hn] at hframe
      cases hframe
    | some n => exact h.noEnd m hm none (.met hn hlt (hlm.trans hn))
  rcases Nat.lt_trichotomy j j' with hlt | heq | hgt
  · exact absurd hlt (hlater hj' hsame)
  · exact heq
  · exact absurd hgt (hlater hj hsame.symm)

end Walked

/-- **A captured call stack up to the first end of its chain, and what that end
    brings along.** -/
theorem exists_walked (saved : List SavedFrame) (head : Nat) :
    ∃ k unvisited shown anchor, Walked saved head k unvisited shown ∧
      ChainEnd saved head k anchor ∧
      (ExecutionContext.resumed saved head).readings = shown ++ drained anchor :=
  Walked.start.run

/-! ### What the walk does not look at -/

/-- Frames that the walk cannot tell apart: equal ones, or two anchored ones that
    stand for the same rest of a table. -/
def SavedFrame.Alike (frame frame' : SavedFrame) : Prop :=
  match frame.anchor, frame'.anchor with
  | none, none => frame = frame'
  | some anchor, some anchor' =>
    anchor.start = anchor'.start ∧ anchor.table.count = anchor'.table.count ∧
      ∀ position, anchor.start ≤ position → anchor.table.frame position = anchor'.table.frame position
  | _, _ => False

namespace SavedFrame.Alike

variable {frame frame' : SavedFrame}

theorem eq_of_saved (h : frame.Alike frame') (hanchor : frame.anchor = none) :
    frame' = frame := by
  unfold Alike at h
  rw [hanchor] at h
  cases hanchor' : frame'.anchor with
  | none =>
    rw [hanchor'] at h
    exact h.symm
  | some anchor' => rw [hanchor'] at h; exact h.elim

theorem readingsFrom (h : frame.Alike frame') {anchor : Anchor}
    (hanchor : frame.anchor = some anchor) :
    ∃ anchor', frame'.anchor = some anchor' ∧
      anchor'.table.readingsFrom anchor'.start = anchor.table.readingsFrom anchor.start := by
  unfold Alike at h
  rw [hanchor] at h
  cases hanchor' : frame'.anchor with
  | none => rw [hanchor'] at h; exact h.elim
  | some anchor' =>
    rw [hanchor'] at h
    obtain ⟨hstart, hcount, hframes⟩ := h
    refine ⟨anchor', rfl, ?_⟩
    unfold FrameTable.readingsFrom
    rw [hstart, hcount]
    refine List.map_congr_left fun position hposition => (hframes position ?_).symm
    rw [hstart]
    exact (List.mem_range'_1.mp hposition).1

end SavedFrame.Alike

/-- **Frames that the walk cannot tell apart make no difference.** -/
theorem walk_congr {saved saved' : List SavedFrame} (hlength : saved'.length = saved.length)
    (halike : ∀ (n : Nat) frame frame', saved[n]? = some frame → saved'[n]? = some frame' →
      frame.Alike frame') (unvisited : List Nat) (current : Option Nat) :
    walk saved' unvisited current = walk saved unvisited current := by
  have hother {n : Nat} {frame : SavedFrame} (hframe : saved[n]? = some frame) :
      ∃ frame', saved'[n]? = some frame' ∧ frame.Alike frame' := by
    have hlt : n < saved'.length := by
      rw [hlength]
      exact (List.getElem?_eq_some_iff.mp hframe).1
    have hframe' : saved'[n]? = some saved'[n] := List.getElem?_eq_getElem hlt
    exact ⟨saved'[n], hframe', halike n frame _ hframe hframe'⟩
  induction unvisited, current using walk.induct saved with
  | case1 unvisited => rw [walk_none, walk_none]
  | case2 unvisited n _ hframe =>
    have hframe' : saved'[n]? = none := by
      rw [List.getElem?_eq_none_iff] at hframe ⊢
      rw [hlength]
      exact hframe
    rw [walk_of_missing hframe, walk_of_missing hframe']
  | case3 unvisited n hmem frame hframe anchor hanchor =>
    obtain ⟨frame', hframe', hframes⟩ := hother hframe
    obtain ⟨anchor', hanchor', hreadings⟩ := hframes.readingsFrom hanchor
    rw [walk_of_anchored hmem hframe hanchor, walk_of_anchored hmem hframe' hanchor', hreadings]
  | case4 unvisited n hmem frame hframe hanchor ih =>
    obtain ⟨frame', hframe', hframes⟩ := hother hframe
    rw [hframes.eq_of_saved hanchor] at hframe'
    rw [walk_of_saved hmem hframe hanchor, walk_of_saved hmem hframe' hanchor, ih]
  | case5 unvisited n hmem => rw [walk_of_not_mem hmem, walk_of_not_mem hmem]

theorem readings_congr {saved saved' : List SavedFrame} {head : Nat}
    (hlength : saved'.length = saved.length)
    (halike : ∀ (n : Nat) frame frame', saved[n]? = some frame → saved'[n]? = some frame' →
      frame.Alike frame') :
    (ExecutionContext.resumed saved' head).readings =
      (ExecutionContext.resumed saved head).readings := by
  simp only [ExecutionContext.readings]
  rw [hlength, walk_congr hlength halike]

/-! ### The snapshot -/

namespace Assembler

variable (a : Assembler) (heap : Heap)

theorem frame_index (index : Nat) (reading : Reading) : (a.frame heap index reading).index = index := by
  unfold frame
  split
  · rfl
  · split <;> rfl

theorem getElem?_assemble (context : ExecutionContext) (i : Nat) :
    (a.assemble heap context).frames[i]? = (context.readings[i]?).map (a.frame heap i) :=
  List.getElem?_mapIdx

theorem length_assemble (context : ExecutionContext) :
    (a.assemble heap context).frames.length = context.readings.length :=
  List.length_mapIdx

/-- **The frames of a snapshot.**  A captured call stack is shown up to the first end
    of its chain, `k` callers away from the head, followed by the rest of the table
    if that end is an anchored frame; no frame comes twice, and nothing hangs on the
    scope and the parent of an anchored frame or on the frames of a table below its
    start.  A live call stack is shown as its table.  The frames are numbered in
    order. -/
theorem frames_of_snapshot :
    (∀ saved head,
      let frames := (a.assemble heap (.resumed saved head)).frames
      ∃ k anchor, k ≤ saved.length ∧
        -- the first end of the chain
        ChainEnd saved head k anchor ∧ (∀ i < k, ∀ other, ¬ ChainEnd saved head i other) ∧
        -- the saved frames, each of them once
        (∀ i < k, ∃ frame, frameAt saved head i = some frame ∧
          frames[i]? = some (a.frame heap i frame.scope)) ∧
        (∀ i < k, ∀ j < k, callerAt saved head i = callerAt saved head j → i = j) ∧
        -- the rest of the table
        (∀ j, frames[k + j]? = anchor.bind fun x =>
          if x.start + j < x.table.count then
            some (a.frame heap (k + j) (x.table.frame (x.start + j)))
          else none) ∧
        frames.length = k + anchor.elim 0 fun x => x.table.count - x.start) ∧
    -- what makes no difference
    (∀ saved saved' head, saved'.length = saved.length →
      (∀ (n : Nat) frame frame', saved[n]? = some frame → saved'[n]? = some frame' →
        frame.Alike frame') →
      a.assemble heap (.resumed saved' head) = a.assemble heap (.resumed saved head)) ∧
    -- a live call stack
    (∀ table : FrameTable, (a.assemble heap (.direct table)).frames.length = table.count ∧
      ∀ position < table.count, (a.assemble heap (.direct table)).frames[position]? =
        some (a.frame heap position (table.frame position))) ∧
    -- the numbers
    (∀ context i (frame : ScopeFrame), (a.assemble heap context).frames[i]? = some frame →
      frame.index = i) := by
  refine ⟨?_, ?_, ?_, ?_⟩
  · intro saved head frames
    obtain ⟨k, unvisited, shown, anchor, h, hend, hreadings⟩ := exists_walked saved head
    have hsaved {i : Nat} (hi : i < k) :
        frames[i]? = ((frameAt saved head i).map SavedFrame.scope).map (a.frame heap i) := by
      rw [getElem?_assemble, hreadings, List.getElem?_append_left (h.length.symm ▸ hi), h.reads i hi]
    have hrest (j : Nat) : frames[k + j]? = ((drained anchor)[j]?).map (a.frame heap (k + j)) := by
      rw [getElem?_assemble, hreadings, ← h.length, List.getElem?_append_right (Nat.le_add_right _ j),
        Nat.add_sub_cancel_left]
    refine ⟨k, anchor, Nat.le.intro (Nat.add_comm k _ ▸ h.count), hend, h.noEnd, ?_, ?_, ?_, ?_⟩
    · intro i hi
      obtain ⟨frame, hframe⟩ := h.frameAt_isSome hi
      exact ⟨frame, hframe, by rw [hsaved hi, hframe]; rfl⟩
    · intro i hi j hj hsame
      exact h.callerAt_injective hi hj hsame
    · intro j
      rw [hrest, getElem?_drained]
      cases anchor with
      | none => rfl
      | some x =>
        simp only [Option.bind_some]
        split <;> rfl
    · rw [length_assemble, hreadings, List.length_append, h.length, length_drained]
  · intro saved saved' head hlength halike
    unfold assemble
    rw [readings_congr hlength halike]
  · intro table
    refine ⟨?_, fun position hposition => ?_⟩
    · rw [length_assemble, ExecutionContext.readings, FrameTable.length_readingsFrom, Nat.sub_zero]
    · rw [getElem?_assemble, ExecutionContext.readings, FrameTable.getElem?_readingsFrom, Nat.zero_add,
        if_pos hposition]
      rfl
  · intro context i frame hframe
    rw [getElem?_assemble] at hframe
    obtain ⟨reading, _, rfl⟩ := Option.map_eq_some_iff.mp hframe
    exact a.frame_index heap i reading

end Assembler

-- A loop that leads back to the head, and a chain that enters a table at its second frame.
example (scope : Reading) (table : FrameTable) :
    (ExecutionContext.resumed [⟨scope, some 1, none⟩, ⟨scope, some 0, none⟩] 0).readings =
        [scope, scope] ∧
      (ExecutionContext.resumed [⟨scope, some 1, none⟩, ⟨scope, some 0, some ⟨table, 1⟩⟩] 0).readings =
        scope :: table.readingsFrom 1 := by
  simp [ExecutionContext.readings, walk, List.range_succ]

end ScriptDebugger
