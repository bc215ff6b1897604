/-
  ScriptDebugger/Proofs/Stack/Bindings.lean
  =========================================
  **The bindings of a frame.**

  A scope lists its identifiers, possibly some of them several times, and each of them
  is read on its own.  An identifier whose value is the sign of a missing binding is
  left out; any other has one binding, at the place of its first occurrence, with the
  text of its value or with the marker that stands for a failed reading.  Only this
  sign is left out: null is a value like any other, and so is an object of the host,
  whatever it stands for.

  Every text of a value is cut to the configured length, and the text of null is no
  exception; the marker is not cut.
-/
import ScriptDebugger.Proofs.Rendering.Markers
import ScriptDebugger.Proofs.Stack.Failures

namespace ScriptDebugger

namespace Assembler

variable (a : Assembler) (heap : Heap)

/-! ### One identifier -/

theorem bindingText_of_value {v : Value} (hv : v ≠ .undefined) :
    a.bindingText heap (.ok v) = some (heap.text a.options v) := by
  cases v with
  | undefined => exact absurd rfl hv
  | _ => rfl

/-- An identifier has a text unless it is known to have no value. -/
theorem isSome_bindingText (outcome : Except IntrospectionError Value) :
    (a.bindingText heap outcome).isSome = decide (outcome ≠ .ok .undefined) := by
  cases outcome with
  | error e => rfl
  | ok v =>
    by_cases hv : v = .undefined
    · subst hv
      rfl
    · rw [bindingText_of_value a heap hv]
      simp [hv]

/-- The text of an identifier is the text of its value or the marker. -/
theorem bindingText_eq_some_iff (outcome : Except IntrospectionError Value) (t : String) :
    a.bindingText heap outcome = some t ↔
      (∃ v, outcome = .ok v ∧ v ≠ .undefined ∧ t = heap.text a.options v) ∨
        ∃ e, outcome = .error e ∧ t = unavailableMarker := by
  cases outcome with
  | error e => simp [bindingText, eq_comm]
  | ok v =>
    by_cases hv : v = .undefined
    · subst hv
      simp [bindingText, Value.isUndefined]
    · simp [bindingText_of_value a heap hv, hv, eq_comm]

/-! ### Values that are kept -/

theorem text_null (options : RenderOptions) : heap.text options .null = options.fit "null" := by
  rw [Heap.text, Heap.render, Heap.unfold_leaf (v := .null) rfl]
  rfl

/-- An object of the host shows what it stands for, unless no level may be opened. -/
theorem text_host (options : RenderOptions) {h : Handle} {typeName : String}
    (hhost : heap.cell? h = some (.host typeName .undefined)) :
    heap.text options (.shared h) =
      options.fit (if options.maxDepth = 0 then "<max depth>" else "undefined") := by
  have hshape : heap.shape (.shared h) = .host .undefined := by rw [Heap.shape, hhost]
  rw [Heap.text, Heap.render]
  cases options.maxDepth with
  | zero =>
    rw [Heap.unfold_zero (by rw [hshape]; rfl) fun _ _ _ => List.not_mem_nil]
    rfl
  | succ room =>
    rw [Heap.unfold_host hshape, Heap.unfold_leaf (v := .undefined) rfl]
    rfl

end Assembler

/-- A text that is not longer than the configured length is not cut. -/
theorem RenderOptions.fit_of_length_le {options : RenderOptions} {s : String}
    (hs : ∀ limit, options.maxStringLen = some limit → s.length ≤ limit) : options.fit s = s := by
  unfold fit
  split
  · rename_i limit hlimit
    exact Text.excerpt_of_length_le (hs limit hlimit)
  · rfl

namespace Assembler

variable (a : Assembler) (heap : Heap)

/-! ### All identifiers of a scope -/

theorem keys_bindings (scope : Scope) (names : List String) :
    (a.bindings heap scope names).keys =
      names.eraseDups.filter fun n => decide (scope.binding n ≠ .ok .undefined) := by
  rw [OrderedMap.keys, entries_bindings, OrderedMap.map_fst_entryOf?]
  simp only [isSome_bindingText]

theorem get?_bindings_eq_some_iff (scope : Scope) (names : List String) (n t : String) :
    (a.bindings heap scope names).get? n = some t ↔
      n ∈ names ∧ a.bindingText heap (scope.binding n) = some t := by
  rw [get?_bindings]
  split
  · rename_i hn
    simp [hn]
  · rename_i hn
    simp [hn]

/-- **A frame binds the identifiers that are not known to have no value.**  The names of
    its bindings are pairwise distinct: they are the different identifiers of the scope
    without those whose value is the sign of a missing binding, in the order of their
    first occurrences.  Each is bound to the text of its value or, if it could not be
    read, to the marker, and this is what the snapshot finds under it.  Null is kept, as
    the text `null` cut to the configured length, and so is an object of the host that
    stands for the sign of a missing binding. -/
theorem bindings_of_scope (c : ExecutionContext) (i : Nat) (scope : Scope) (names : List String)
    (hread : c.readings[i]? = some (.ok scope)) (hnames : scope.identifiers = .ok names) :
    ∃ frame, (a.assemble heap c).frames[i]? = some frame ∧ frame.error = none ∧
      -- the names
      frame.bindings.keys.Nodup ∧
      frame.bindings.keys =
        (names.eraseDups.filter fun n => decide (scope.binding n ≠ .ok .undefined)) ∧
      -- the texts
      (∀ n t, (n, t) ∈ frame.bindings.entries ↔ n ∈ names ∧
        ((∃ v, scope.binding n = .ok v ∧ v ≠ .undefined ∧ t = heap.text a.options v) ∨
          ∃ e, scope.binding n = .error e ∧ t = "<unavailable>")) ∧
      (∀ n t, (a.assemble heap c).binding? i n = some t ↔ (n, t) ∈ frame.bindings.entries) ∧
      -- null
      (∀ n ∈ names, scope.binding n = .ok .null →
        (a.assemble heap c).binding? i n = some (a.options.fit "null") ∧
        ((∀ limit, a.options.maxStringLen = some limit → 4 ≤ limit) →
          (a.assemble heap c).binding? i n = some "null")) ∧
      -- an object of the host
      (∀ n ∈ names, ∀ h typeName, scope.binding n = .ok (.shared h) →
        heap.cell? h = some (.host typeName .undefined) →
        (a.assemble heap c).binding? i n =
          some (a.options.fit (if a.options.maxDepth = 0 then "<max depth>" else "undefined"))) := by
  have hframe : (a.assemble heap c).frames[i]? = some (a.frame heap i (.ok scope)) := by
    rw [getElem?_assemble, hread]
    rfl
  have hfind (n t : String) : (a.assemble heap c).binding? i n = some t ↔
      n ∈ names ∧ a.bindingText heap (scope.binding n) = some t := by
    rw [Snapshot.binding?, hframe, a.frame_of_names heap hnames]
    exact a.get?_bindings_eq_some_iff heap scope names n t
  refine ⟨_, hframe, ?_⟩
  rw [a.frame_of_names heap hnames]
  refine ⟨rfl, OrderedMap.keys_nodup _, a.keys_bindings heap scope names, ?_, ?_, ?_, ?_⟩
  · intro n t
    rw [OrderedMap.mem_entries_iff, get?_bindings_eq_some_iff, bindingText_eq_some_iff]
    rfl
  · intro n t
    rw [OrderedMap.mem_entries_iff, get?_bindings_eq_some_iff, hfind]
  · intro n hn hnull
    have hnull' : (a.assemble heap c).binding? i n = some (a.options.fit "null") := by
      rw [hfind, hnull, bindingText_of_value a heap (by decide), text_null]
      exact ⟨hn, rfl⟩
    refine ⟨hnull', fun hlimit => ?_⟩
    rw [hnull', RenderOptions.fit_of_length_le hlimit]
  · intro n hn h typeName hshared hhost
    rw [hfind, hshared, bindingText_of_value a heap (by simp), text_host heap _ hhost]
    exact ⟨hn, rfl⟩

/-- A scope with a repeated identifier, a missing binding, a failed reading, null and an
    object of the host. -/
theorem bindings_of_scope_with_repetition :
    let heap : Heap := ⟨#[.host "promise" .undefined]⟩
    let scope : Scope := ⟨.ok (some "f"), .ok ["n", "u", "n", "bad", "h"], fun n =>
      if n = "n" then .ok .null
      else if n = "u" then .ok .undefined
      else if n = "h" then .ok (.shared ⟨0⟩)
      else .error (.missingField n)⟩
    let c : ExecutionContext := .direct ⟨1, fun _ => .ok scope⟩
    c.readings[0]? = some (.ok scope) ∧ scope.identifiers = .ok ["n", "u", "n", "bad", "h"] ∧
      ∃ frame, ((⟨{}, "main"⟩ : Assembler).assemble heap c).frames[0]? = some frame ∧
        frame.bindings.keys = ["n", "bad", "h"] ∧
        ((⟨{}, "main"⟩ : Assembler).assemble heap c).binding? 0 "n" = some "null" := by
  intro heap scope c
  obtain ⟨frame, hframe, _, _, hkeys, _, _, hnull, _⟩ := bindings_of_scope ⟨{}, "main"⟩ heap c 0
    scope ["n", "u", "n", "bad", "h"] rfl rfl
  exact ⟨rfl, rfl, frame, hframe, hkeys.trans (by decide), (hnull "n" (by decide) rfl).2 (by simp)⟩

/-- The text of null is cut where texts may have three characters only. -/
theorem null_is_cut :
    let a : Assembler := ⟨{ maxStringLen := some 3 }, "main"⟩
    let scope : Scope := ⟨.ok none, .ok ["a"], fun _ => .ok .null⟩
    let snapshot := a.assemble .empty (.direct ⟨1, fun _ => .ok scope⟩)
    snapshot.binding? 0 "a" = some "nul..." ∧ snapshot.binding? 0 "a" ≠ some "null" := by
  decide

end Assembler

end ScriptDebugger
