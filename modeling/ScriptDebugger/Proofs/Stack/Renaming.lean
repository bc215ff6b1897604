/-
  ScriptDebugger/Proofs/Stack/Renaming.lean
  =========================================
  **Neither handles nor frame numbers show in a snapshot.**

  Handles tell composites apart, and numbers tell saved frames apart; nothing else
  hangs on them.  So two call stacks may give different handles to the composites and
  different numbers to the saved frames (`ExecutionContext.RenamedTo`), as long as what
  is different in one is different in the other.  The walks over both go on side by
  side, a frame is unvisited in one just if its counterpart is in the other
  (`walk_renamed`), and what they read is the same up to the handles, which the texts of
  values do not show (`Heap.RenamedTo.text_eq`).
-/
import ScriptDebugger.Proofs.Rendering.Renaming
import ScriptDebugger.Proofs.Stack.Failures

namespace ScriptDebugger

/-- Two attempts that fail alike, or come to results that the relation connects. -/
inductive SameOutcome {α β : Type} (r : α → β → Prop) :
    Except IntrospectionError α → Except IntrospectionError β → Prop
  | ok {a b} (h : r a b) : SameOutcome r (.ok a) (.ok b)
  | error (e : IntrospectionError) : SameOutcome r (.error e) (.error e)

/-! ### Call stacks up to handles and frame numbers -/

/-- The numbers that a captured call stack comes to, caller after caller. -/
def callers (saved : List SavedFrame) (head : Nat) : Set Nat :=
  {n | ∃ i, callerAt saved head i = some n}

theorem head_mem_callers (saved : List SavedFrame) (head : Nat) : head ∈ callers saved head :=
  ⟨0, rfl⟩

theorem parent_mem_callers {saved : List SavedFrame} {head n : Nat} {frame : SavedFrame}
    (hn : n ∈ callers saved head) (hframe : saved[n]? = some frame) {m : Nat}
    (hm : frame.parent = some m) : m ∈ callers saved head := by
  obtain ⟨i, hi⟩ := hn
  exact ⟨i + 1, (callerAt_succ hi hframe).trans hm⟩

/-- A set that holds the head and the parents of its frames holds all callers. -/
theorem callers_subset {saved : List SavedFrame} {head : Nat} {S : Set Nat} (hhead : head ∈ S)
    (hparent : ∀ n ∈ S, ∀ m, saved[n]?.bind SavedFrame.parent = some m → m ∈ S) :
    callers saved head ⊆ S := by
  rintro n ⟨i, hi⟩
  induction i generalizing n with
  | zero =>
    cases hi
    exact hhead
  | succ i ih =>
    obtain ⟨m, hm, hn⟩ := Option.bind_eq_some_iff.mp hi
    exact hparent m (ih hm) n hn

section Relations

variable (f : Handle → Handle) (heap heap' : Heap)

/-- The scopes have the same names, in the same order, for the same values up to the
    handles. -/
structure Scope.RenamedTo (scope scope' : Scope) : Prop where
  functionName : scope'.functionName = scope.functionName
  identifiers : scope'.identifiers = scope.identifiers
  binding : ∀ names, scope.identifiers = .ok names → ∀ n ∈ names,
    SameOutcome (fun v v' => v' = v.rename f ∧ Heap.RenamedTo f heap heap' v)
      (scope.binding n) (scope'.binding n)

/-- The readings fail alike, or are the same scope up to the handles. -/
abbrev Reading.RenamedTo : Reading → Reading → Prop := SameOutcome (Scope.RenamedTo f heap heap')

/-- The tables have the same frames from a position on. -/
structure FrameTable.RenamedTo (start : Nat) (table table' : FrameTable) : Prop where
  count : table'.count = table.count
  frame : ∀ i, start ≤ i → i < table.count →
    Reading.RenamedTo f heap heap' (table.frame i) (table'.frame i)

structure Anchor.RenamedTo (anchor anchor' : Anchor) : Prop where
  start : anchor'.start = anchor.start
  table : FrameTable.RenamedTo f heap heap' anchor.start anchor.table anchor'.table

/-- The saved frames have the same scope, and `g` leads from the parent of the one to
    that of the other. -/
structure SavedFrame.RenamedTo (g : Nat → Nat) (frame frame' : SavedFrame) : Prop where
  scope : Reading.RenamedTo f heap heap' frame.scope frame'.scope
  parent : frame'.parent = frame.parent.map g
  anchor : Option.Rel (Anchor.RenamedTo f heap heap') frame.anchor frame'.anchor

/-- The call stacks are the same up to the handles of composites, renamed by `f`, and
    the numbers of saved frames.  The frames that are no callers do not count. -/
inductive ExecutionContext.RenamedTo : ExecutionContext → ExecutionContext → Prop
  | direct {table table'} (htable : FrameTable.RenamedTo f heap heap' 0 table table') :
      RenamedTo (.direct table) (.direct table')
  | resumed {saved saved' head} (g : Nat → Nat)
      (hinjective : Set.InjOn g {n ∈ callers saved head | n < saved.length})
      (hframes : ∀ n ∈ callers saved head,
        Option.Rel (SavedFrame.RenamedTo f heap heap' g) saved[n]? saved'[g n]?) :
      RenamedTo (.resumed saved head) (.resumed saved' (g head))

end Relations

/-! ### What is read -/

section Readings

variable {f : Handle → Handle} {heap heap' : Heap}

theorem FrameTable.RenamedTo.readingsFrom {start : Nat} {table table' : FrameTable}
    (h : FrameTable.RenamedTo f heap heap' start table table') :
    List.Forall₂ (Reading.RenamedTo f heap heap') (table.readingsFrom start)
      (table'.readingsFrom start) := by
  unfold FrameTable.readingsFrom
  rw [h.count, List.forall₂_map_left_iff, List.forall₂_map_right_iff, List.forall₂_same]
  intro i hi
  obtain ⟨hstart, hend⟩ := List.mem_range'_1.mp hi
  exact h.frame i hstart (by omega)

/-- **The walks go on side by side.**  The frames on the way are unvisited in the one
    just if their counterparts are in the other. -/
theorem walk_renamed {saved saved' : List SavedFrame} {head : Nat} {g : Nat → Nat}
    (hinjective : Set.InjOn g {n ∈ callers saved head | n < saved.length})
    (hframes : ∀ n ∈ callers saved head,
      Option.Rel (SavedFrame.RenamedTo f heap heap' g) saved[n]? saved'[g n]?)
    {unvisited unvisited' : List Nat} {current : Option Nat} (hnodup : unvisited.Nodup)
    (hnodup' : unvisited'.Nodup) (hcurrent : ∀ n, current = some n → n ∈ callers saved head)
    (hleft : ∀ n ∈ callers saved head, n < saved.length → (g n ∈ unvisited' ↔ n ∈ unvisited)) :
    List.Forall₂ (Reading.RenamedTo f heap heap') (walk saved unvisited current)
      (walk saved' unvisited' (current.map g)) := by
  induction unvisited, current using walk.induct saved generalizing unvisited' with
  | case1 unvisited => rw [Option.map_none, walk_none, walk_none]; exact .nil
  | case2 unvisited n _ hframe =>
    have hframe' := none_of_rel (hframes n (hcurrent n rfl)) hframe
    rw [Option.map_some, walk_of_missing hframe, walk_of_missing hframe']
    exact .nil
  | case3 unvisited n hmem frame hframe anchor hanchor =>
    have hn := hcurrent n rfl
    have hlt : n < saved.length := (List.getElem?_eq_some_iff.mp hframe).1
    obtain ⟨frame', hframe', hsame⟩ := exists_of_rel (hframes n hn) hframe
    obtain ⟨anchor', hanchor', htable⟩ := exists_of_rel hsame.anchor hanchor
    rw [Option.map_some, walk_of_anchored hmem hframe hanchor,
      walk_of_anchored ((hleft n hn hlt).mpr hmem) hframe' hanchor', htable.start]
    exact htable.table.readingsFrom
  | case4 unvisited n hmem frame hframe hanchor ih =>
    have hn := hcurrent n rfl
    have hlt : n < saved.length := (List.getElem?_eq_some_iff.mp hframe).1
    obtain ⟨frame', hframe', hsame⟩ := exists_of_rel (hframes n hn) hframe
    have hanchor' : frame'.anchor = none := none_of_rel hsame.anchor hanchor
    rw [Option.map_some, walk_of_saved hmem hframe hanchor,
      walk_of_saved ((hleft n hn hlt).mpr hmem) hframe' hanchor', hsame.parent]
    refine .cons hsame.scope (ih (hnodup.erase n) (hnodup'.erase (g n)) ?_ ?_)
    · exact fun m hm => parent_mem_callers hn hframe hm
    · -- different frames have different counterparts
      intro m hm hmlt
      have hne : g m = g n ↔ m = n :=
        ⟨fun hgm => hinjective ⟨hm, hmlt⟩ ⟨hn, hlt⟩ hgm, congrArg g⟩
      rw [hnodup'.mem_erase_iff, hnodup.mem_erase_iff, hleft m hm hmlt, ne_eq, ne_eq, hne]
  | case5 unvisited n hmem =>
    have hn := hcurrent n rfl
    rw [Option.map_some, walk_of_not_mem hmem]
    cases hframe : saved[n]? with
    | none => rw [walk_of_missing (none_of_rel (hframes n hn) hframe)]; exact .nil
    | some frame =>
      have hlt : n < saved.length := (List.getElem?_eq_some_iff.mp hframe).1
      rw [walk_of_not_mem fun hmem' => hmem ((hleft n hn hlt).mp hmem')]
      exact .nil

/-- What is read of the one call stack is what is read of the other, up to the handles. -/
theorem ExecutionContext.RenamedTo.readings {context context' : ExecutionContext}
    (h : context.RenamedTo f heap heap' context') :
    List.Forall₂ (Reading.RenamedTo f heap heap') context.readings context'.readings := by
  cases h with
  | direct htable => exact htable.readingsFrom
  | @resumed saved saved' head g hinjective hframes =>
    change List.Forall₂ _ (walk saved _ (some head)) (walk saved' _ ((some head).map g))
    refine walk_renamed hinjective hframes List.nodup_range List.nodup_range ?_ ?_
    · intro n hn
      cases hn
      exact head_mem_callers saved head
    · intro n hn hlt
      obtain ⟨frame', hframe', _⟩ := exists_of_rel (hframes n hn) (List.getElem?_eq_getElem hlt)
      simp [hlt, (List.getElem?_eq_some_iff.mp hframe').1]

end Readings

/-! ### What is shown -/

namespace Assembler

variable {f : Handle → Handle} {heap heap' : Heap} (a : Assembler)

theorem bindingText_renamed {outcome outcome' : Except IntrospectionError Value}
    (h : SameOutcome (fun v v' => v' = v.rename f ∧ Heap.RenamedTo f heap heap' v)
      outcome outcome') :
    a.bindingText heap' outcome' = a.bindingText heap outcome := by
  cases h with
  | error e => rfl
  | @ok v v' h =>
    obtain ⟨rfl, h⟩ := h
    have hundefined : (v.rename f).isUndefined = v.isUndefined := by cases v <;> rfl
    rw [bindingText, bindingText, hundefined, h.text_eq]

theorem frame_renamed {reading reading' : Reading}
    (h : Reading.RenamedTo f heap heap' reading reading') (index : Nat) :
    a.frame heap' index reading' = a.frame heap index reading := by
  cases h with
  | error e => rfl
  | @ok scope scope' h =>
    have hname : a.functionName scope' = a.functionName scope := by
      rw [functionName, functionName, h.functionName]
    rw [frame, frame, h.identifiers, hname]
    cases hnames : scope.identifiers with
    | error e => rfl
    | ok names =>
      have hbindings : a.bindings heap' scope' names = a.bindings heap scope names := by
        refine congrArg OrderedMap.ofList (List.filterMap_congr fun n hn => ?_)
        rw [a.bindingText_renamed (h.binding names hnames n hn)]
      simp only [hbindings]

theorem assemble_renamed {context context' : ExecutionContext}
    (h : context.RenamedTo f heap heap' context') :
    a.assemble heap' context' = a.assemble heap context := by
  have hreadings := h.readings
  refine congrArg Snapshot.mk (List.ext_getElem ?_ fun i hi' hi => ?_)
  · rw [List.length_mapIdx, List.length_mapIdx, hreadings.length_eq]
  · rw [List.length_mapIdx] at hi hi'
    rw [List.getElem_mapIdx, List.getElem_mapIdx]
    exact a.frame_renamed (hreadings.get hi hi') i

end Assembler

/-- **Handles do not show.**  If all that a value leads to has other handles in another
    heap, different ones for different arrays and objects, then the value and its
    counterpart have the same tree and the same text, whatever else the heaps hold.  If
    a call stack differs from another one by such handles only, with as many frames and
    other numbers for the saved ones, then the two have the same snapshot. -/
theorem handles_do_not_show (f : Handle → Handle) (heap heap' : Heap) :
    (∀ v, Heap.RenamedTo f heap heap' v → ∀ options : RenderOptions,
      heap'.render options.maxDepth (v.rename f) = heap.render options.maxDepth v ∧
      heap'.text options (v.rename f) = heap.text options v) ∧
    (∀ context context', ExecutionContext.RenamedTo f heap heap' context context' →
      ∀ a : Assembler, a.assemble heap' context' = a.assemble heap context) := by
  constructor
  · intro v h options
    exact ⟨h.render_eq options.maxDepth, h.text_eq options⟩
  · intro context context' h a
    exact a.assemble_renamed h

/-- A loop of an array, an object and an object of the host, and a chain of saved frames
    that runs into a loop, both of them turned around and with something added. -/
theorem handles_do_not_show_loop :
    let heap : Heap := ⟨#[.array [.shared ⟨1⟩, .shared ⟨0⟩],
      .object (.ofList [("up", .shared ⟨0⟩), ("timer", .shared ⟨2⟩)]), .host "timer" (.shared ⟨1⟩)]⟩
    let heap' : Heap := ⟨#[.array [.shared ⟨0⟩], .array [], .host "clock" (.shared ⟨3⟩),
      .object (.ofList [("up", .shared ⟨4⟩), ("timer", .shared ⟨2⟩)]),
      .array [.shared ⟨3⟩, .shared ⟨4⟩]]⟩
    let f : Handle → Handle := fun h => ⟨4 - h.id⟩
    let scope : Value → Reading := fun v => .ok ⟨.ok (some "draw"), .ok ["shape"], fun _ => .ok v⟩
    let broken : Reading := .error (.other "gone")
    let context : ExecutionContext :=
      .resumed [⟨scope (.shared ⟨0⟩), some 1, none⟩, ⟨broken, some 0, none⟩] 0
    let context' : ExecutionContext :=
      .resumed [⟨broken, none, none⟩, ⟨broken, some 2, none⟩, ⟨scope (.shared ⟨4⟩), some 1, none⟩] 2
    Heap.RenamedTo f heap heap' (.shared ⟨0⟩) ∧
      ExecutionContext.RenamedTo f heap heap' context context' ∧
      heap'.render 2 (.shared ⟨4⟩) = heap.render 2 (.shared ⟨0⟩) ∧
      heap.render 2 (.shared ⟨0⟩) =
        .list [.map [("up", .cyclic), ("timer", .depthLimit)], .cyclic] ∧
      ∀ a : Assembler, a.assemble heap' context' = a.assemble heap context := by
  intro heap heap' f scope broken context context'
  have hheap : Heap.RenamedTo f heap heap' (.shared ⟨0⟩) := by
    have hroot : Value.shared ⟨0⟩ ∈ [Value.shared ⟨0⟩, .shared ⟨1⟩, .shared ⟨2⟩] := by decide
    have hcases {h : Handle} (hh : Value.shared h ∈ [Value.shared ⟨0⟩, .shared ⟨1⟩, .shared ⟨2⟩]) :
        h = ⟨0⟩ ∨ h = ⟨1⟩ ∨ h = ⟨2⟩ := by simpa using hh
    refine .of_closed hroot (by decide) ?_ ?_
    · intro h hh
      rcases hcases hh with rfl | rfl | rfl
      · exact .some (.array _)
      · exact .some (.object rfl)
      · exact .some (.host _ _ _)
    · intro h hh h' hh' hsame
      rcases hcases hh with rfl | rfl | rfl <;> rcases hcases hh' with rfl | rfl | rfl <;>
        first | rfl | cases hsame
  have hscope : Reading.RenamedTo f heap heap' (scope (.shared ⟨0⟩)) (scope (.shared ⟨4⟩)) :=
    .ok ⟨rfl, rfl, fun _ _ _ _ => .ok ⟨rfl, hheap⟩⟩
  have hcontext : ExecutionContext.RenamedTo f heap heap' context context' := by
    refine .resumed (fun n => 2 - n) ?_ ?_
    · rintro n ⟨_, hn : n < 2⟩ m ⟨_, hm : m < 2⟩ (hsame : 2 - n = 2 - m)
      omega
    · intro n hn
      have hmem : n = 0 ∨ n = 1 := by
        refine callers_subset (S := {n | n = 0 ∨ n = 1}) (.inl rfl) ?_ hn
        rintro n (rfl | rfl) m hm <;> cases hm
        · exact .inr rfl
        · exact .inl rfl
      rcases hmem with rfl | rfl
      · exact .some ⟨hscope, rfl, .none⟩
      · exact .some ⟨.error _, rfl, .none⟩
  obtain ⟨hvalues, hcontexts⟩ := handles_do_not_show f heap heap'
  exact ⟨hheap, hcontext, (hvalues _ hheap ⟨2, none⟩).1, rfl, hcontexts _ _ hcontext⟩

end ScriptDebugger
