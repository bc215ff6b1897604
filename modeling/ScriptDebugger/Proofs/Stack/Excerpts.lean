/-
  ScriptDebugger/Proofs/Stack/Excerpts.lean
  =========================================
  **Texts that are cut, and snapshots made of them.**

  A limit counts characters, and the place of the cut is found among bytes, of which a
  character has one to four.  The bytes before the cut are those of the characters that
  the limit counts (`byteIdx_of_cut?`, `toByteArray_of_cut?`), so no character is divided.

  The dots come on top of the limit, and for a second cut they are characters like any
  other.  They do not add up all the same: a cut at the same limit or a smaller one takes
  away the dots of the first one (`excerpt_excerpt`).  So a text of a snapshot has at most
  three characters more than configured (`length_of_mem_assemble`), unless it is the
  marker for what could not be read, which is not cut.
-/
import Mathlib.Algebra.GroupWithZero.Nat
import ScriptDebugger.Proofs.Stack.Bindings

namespace ScriptDebugger

namespace Text

/-! ### The place of a cut -/

section Bytes

variable {limit : Nat} {s : String} {cut : s.Pos}

/-- The bytes of a text are the bytes of its characters. -/
theorem utf8ByteSize_ofList_eq_sum (cs : List Char) :
    (String.ofList cs).utf8ByteSize = (cs.map Char.utf8Size).sum := by
  rw [← String.size_toByteArray, String.toByteArray_ofList, List.utf8Encode]
  simp [List.length_flatMap]

theorem byteIdx_of_cut? (hcut : cut? limit s = some cut) :
    cut.offset.byteIdx = ((s.toList.take limit).map Char.utf8Size).sum := by
  rw [(splits_of_cut? hcut).offset_eq_rawEndPos, String.byteIdx_rawEndPos,
    utf8ByteSize_ofList_eq_sum]

theorem toByteArray_of_cut? (hcut : cut? limit s = some cut) :
    (excerpt limit s).toByteArray =
      s.toByteArray.extract 0 cut.offset.byteIdx ++ "...".toByteArray := by
  rw [excerpt_of_cut? hcut, String.toByteArray_append, (splits_of_cut? hcut).toByteArray_left_eq]
  rfl

end Bytes

/-! ### Cutting again -/

variable {limit m : Nat}

theorem length_ellipsis : ellipsis.length = 3 := rfl

theorem length_excerptChars (limit : Nat) (cs : List Char) :
    (excerptChars limit cs).length = if cs.length ≤ limit then cs.length else limit + 3 := by
  rw [excerptChars]
  split
  · rfl
  · rename_i hcs
    rw [List.length_append, length_ellipsis, List.length_take_of_le (by omega)]

/-- An excerpt is within the same limit or a smaller one exactly if the text is. -/
theorem length_excerptChars_le_iff (hm : m ≤ limit) (cs : List Char) :
    (excerptChars limit cs).length ≤ m ↔ cs.length ≤ m := by
  rw [length_excerptChars]
  split <;> omega

/-- A cut behind more characters keeps the first ones. -/
theorem take_excerptChars (hm : m ≤ limit) (cs : List Char) :
    (excerptChars limit cs).take m = cs.take m := by
  rw [excerptChars]
  split
  · rfl
  · rename_i hcs
    have hkept : m ≤ (cs.take limit).length := by
      rw [List.length_take_of_le (by omega)]
      exact hm
    rw [List.take_append_of_le_length hkept, List.take_take, Nat.min_eq_left hm]

theorem excerptChars_excerptChars (hm : m ≤ limit) (cs : List Char) :
    excerptChars m (excerptChars limit cs) = excerptChars m cs := by
  by_cases hcs : cs.length ≤ m
  · have hkept : excerptChars limit cs = cs := if_pos (Nat.le_trans hcs hm)
    rw [hkept]
  · have hlong : ¬ (excerptChars limit cs).length ≤ m := by
      rwa [length_excerptChars_le_iff hm]
    rw [excerptChars, if_neg hlong, take_excerptChars hm, excerptChars, if_neg hcs]

/-- Of two cuts the shorter one counts. -/
theorem excerpt_excerpt (hm : m ≤ limit) (s : String) :
    excerpt m (excerpt limit s) = excerpt m s := by
  simp only [excerpt_eq_ofList, String.toList_ofList, excerptChars_excerptChars hm]

theorem length_excerpt_le (limit : Nat) (s : String) : (excerpt limit s).length ≤ limit + 3 := by
  rw [excerpt_eq_ofList, String.length_ofList, length_excerptChars]
  split <;> omega

end Text

/-! ### Snapshots -/

theorem RenderOptions.length_fit_le {options : RenderOptions} {limit : Nat}
    (hlimit : options.maxStringLen = some limit) (s : String) :
    (options.fit s).length ≤ limit + 3 := by
  rw [fit, hlimit]
  exact Text.length_excerpt_le limit s

namespace Assembler

variable (a : Assembler) (heap : Heap) {limit : Nat}

/-- A binding of a frame is the text of a value or the marker. -/
theorem length_of_mem_frame (hlimit : a.options.maxStringLen = some limit) (i : Nat)
    (reading : Reading) {n t : String} (ht : (n, t) ∈ (a.frame heap i reading).bindings.entries) :
    t.length ≤ limit + 3 ∨ t = unavailableMarker := by
  cases reading with
  | error e => cases ht
  | ok scope =>
    cases hnames : scope.identifiers with
    | error e =>
      rw [frame, hnames] at ht
      cases ht
    | ok names =>
      rw [a.frame_of_names heap hnames, OrderedMap.mem_entries_iff, get?_bindings_eq_some_iff,
        bindingText_eq_some_iff] at ht
      obtain ⟨_, ⟨v, _, _, rfl⟩ | ⟨e, _, rfl⟩⟩ := ht
      · exact .inl (RenderOptions.length_fit_le hlimit _)
      · exact .inr rfl

theorem length_of_mem_assemble (hlimit : a.options.maxStringLen = some limit)
    (c : ExecutionContext) {frame : ScopeFrame} (hframe : frame ∈ (a.assemble heap c).frames)
    {n t : String} (ht : (n, t) ∈ frame.bindings.entries) :
    t.length ≤ limit + 3 ∨ t = unavailableMarker := by
  obtain ⟨i, hi, rfl⟩ := List.mem_mapIdx.mp hframe
  exact a.length_of_mem_frame heap hlimit i _ ht

end Assembler

/-- **Long texts are cut between characters.**  A text that has no more characters than
    the limit is kept.  Of a longer one the first characters are kept, as many as the limit
    says, and dots follow: the cut is at the byte at which these characters end, never
    inside of a character.  Cutting a text again at the same limit changes nothing, and of
    two cuts the shorter one counts.  Where texts have a limit, the text of a binding in a
    snapshot is longer by three characters at most, or it is the marker for what could not
    be read. -/
theorem texts_are_cut_between_characters (limit : Nat) (s : String) :
    -- a text within the limit
    (s.length ≤ limit → Text.excerpt limit s = s) ∧
    -- a longer one: its characters, and the place of the cut among its bytes
    (limit < s.length →
      Text.excerpt limit s = String.ofList (s.toList.take limit) ++ "..." ∧
      ∃ cut : String.Pos.Raw, (Text.cut? limit s).map String.Pos.offset = some cut ∧
        cut.IsValid s ∧ cut.byteIdx = ((s.toList.take limit).map Char.utf8Size).sum ∧
        (Text.excerpt limit s).toByteArray =
          s.toByteArray.extract 0 cut.byteIdx ++ "...".toByteArray) ∧
    -- cutting again
    Text.excerpt limit (Text.excerpt limit s) = Text.excerpt limit s ∧
    (∀ m ≤ limit, Text.excerpt m (Text.excerpt limit s) = Text.excerpt m s) ∧
    -- snapshots
    ∀ (a : Assembler) (heap : Heap) (c : ExecutionContext), a.options.maxStringLen = some limit →
      ∀ frame ∈ (a.assemble heap c).frames, ∀ n t, (n, t) ∈ frame.bindings.entries →
        t.length ≤ limit + 3 ∨ t = "<unavailable>" := by
  refine ⟨Text.excerpt_of_length_le, fun hs => ?_, Text.excerpt_excerpt (Nat.le_refl limit) s,
    fun m hm => Text.excerpt_excerpt hm s,
    fun a heap c hlimit frame hframe n t ht => a.length_of_mem_assemble heap hlimit c hframe ht⟩
  cases hcut : Text.cut? limit s with
  | none => exact absurd (Text.cut?_eq_none_iff.mp hcut) (Nat.not_le_of_lt hs)
  | some cut =>
    exact ⟨Text.excerpt_of_cut? hcut, cut.offset, rfl, cut.isValid, Text.byteIdx_of_cut? hcut,
      Text.toByteArray_of_cut? hcut⟩

/-- A text of characters with one, two and four bytes is cut behind the second of them and
    the third byte, and in a snapshot it has five characters. -/
theorem texts_are_cut_between_wide_characters :
    let a : Assembler := ⟨{ maxStringLen := some 2 }, "main"⟩
    let scope : Scope := ⟨.ok none, .ok ["x"], fun _ => .ok (.string "añ😀b")⟩
    let snapshot := a.assemble .empty (.direct ⟨1, fun _ => .ok scope⟩)
    2 < "añ😀b".length ∧ Text.excerpt 2 "añ😀b" = "añ..." ∧
      (∃ cut, (Text.cut? 2 "añ😀b").map String.Pos.offset = some cut ∧ cut.byteIdx = 3) ∧
      1 ≤ 2 ∧ Text.excerpt 1 (Text.excerpt 2 "añ😀b") = Text.excerpt 1 "añ😀b" ∧
      a.options.maxStringLen = some 2 ∧
      ∃ frame ∈ snapshot.frames, ("x", "añ...") ∈ frame.bindings.entries ∧
        ("añ...".length ≤ 2 + 3 ∨ "añ..." = "<unavailable>") := by
  intro a scope snapshot
  obtain ⟨_, hlong, _, hagain, hsnapshot⟩ := texts_are_cut_between_characters 2 "añ😀b"
  obtain ⟨htext, cut, hcut, _, hbytes, _⟩ := hlong (by decide)
  have hframe : a.frame .empty 0 (.ok scope) ∈ snapshot.frames := List.mem_singleton.mpr rfl
  have hentry : ("x", "añ...") ∈ (a.frame .empty 0 (.ok scope)).bindings.entries := by decide
  exact ⟨by decide, htext.trans (by decide), ⟨cut, hcut, hbytes.trans (by decide)⟩, by decide,
    hagain 1 (by decide), rfl, _, hframe, hentry, hsnapshot a .empty _ rfl _ hframe _ _ hentry⟩

end ScriptDebugger
