/-
  ScriptDebugger/Proofs/Stack/Document.lean
  =========================================
  **The document of a snapshot.**

  A snapshot is written as a JSON text, and nothing is lost: the text can be read, and what
  is read is the document of this snapshot and of no other.  The names, values and reasons
  are any texts at all.  The positions of the frames are numbers in the text; they are read
  back where they fit a machine word, as they do when frames are counted by machine words.
-/
import ScriptDebugger.Command.Output
import ScriptDebugger.Proofs.Json.RoundTrip
import ScriptDebugger.Proofs.Stack.Chain

namespace ScriptDebugger

open Json (nestingLimit parse?)

/-! ### From the document back to the snapshot -/

/-- What is written item by item is read item by item. -/
theorem mapM_map_of_reads {α β : Type} {write : α → β} {read : β → Option α}
    (hread : ∀ x, read (write x) = some x) (xs : List α) : (xs.map write).mapM read = some xs := by
  induction xs with
  | nil => rfl
  | cons x xs ih =>
    rw [List.map_cons, List.mapM_cons, hread, ih]
    rfl

namespace Snapshot

theorem bindingsOfJson?_entries (bindings : OrderedMap String String) :
    bindingsOfJson? (.object (bindings.entries.map fun b => (b.1, .string b.2))) =
      some bindings := by
  have hread (b : String × String) : bindingOfJson? (b.1, .string b.2) = some b := rfl
  have hentries := mapM_map_of_reads hread bindings.entries
  simp only [bindingsOfJson?, Json.object?, Option.bind_eq_bind, Option.bind_some, hentries,
    dif_pos bindings.nodup]

theorem frameOfJson?_frameToJson (frame : ScopeFrame) :
    frameOfJson? (frameToJson frame) = some frame := by
  obtain ⟨index, functionName, bindings, error⟩ := frame
  cases error with
  | none =>
    simp only [frameToJson, List.append_nil, frameOfJson?, bindingsOfJson?_entries, Json.natural?,
      Json.ofNat, Json.Number.ofNat, Json.Number.natural?, Json.string?, Option.bind_eq_bind,
      Option.bind_some]
  | some error =>
    simp only [frameToJson, List.cons_append, List.nil_append, frameOfJson?,
      bindingsOfJson?_entries, Json.natural?, Json.ofNat, Json.Number.ofNat, Json.Number.natural?,
      Json.string?, Option.bind_eq_bind, Option.bind_some]

/-- **The document of a snapshot gives the snapshot.** -/
theorem ofJson?_toJson (s : Snapshot) : ofJson? s.toJson = some s := by
  rw [toJson, ofJson?, mapM_map_of_reads frameOfJson?_frameToJson]
  rfl

end Snapshot

theorem CommandOutput.ofJson?_toJson (o : CommandOutput) : ofJson? o.toJson = some o := by
  cases o with
  | acknowledged text => rfl
  | snapshot s =>
    rw [toJson, ofJson?, Snapshot.ofJson?_toJson]
    rfl

/-! ### The documents can be read -/

namespace Snapshot

variable {s t : Snapshot}

theorem readable_bindings (bindings : OrderedMap String String) :
    (Json.object (bindings.entries.map fun b => (b.1, .string b.2))).Readable := by
  apply Json.readable_object
  intro m hm
  obtain ⟨b, _, rfl⟩ := List.mem_map.mp hm
  exact Json.readable_string b.2

theorem depth_bindings (bindings : OrderedMap String String) :
    (Json.object (bindings.entries.map fun b => (b.1, .string b.2))).depth ≤ 1 := by
  apply Json.depth_object_le
  intro m hm
  obtain ⟨b, _, rfl⟩ := List.mem_map.mp hm
  exact le_rfl

theorem readable_frameToJson {frame : ScopeFrame} (hindex : frame.index < 2 ^ 64) :
    (frameToJson frame).Readable := by
  apply Json.readable_object
  rw [List.forall_mem_append]
  constructor
  · simp only [List.forall_mem_cons]
    exact ⟨Json.readable_ofNat hindex, Json.readable_string _, readable_bindings _, by simp⟩
  · cases frame.error with
    | none => simp
    | some error =>
      rw [List.forall_mem_singleton]
      exact Json.readable_string error

theorem depth_frameToJson (frame : ScopeFrame) : (frameToJson frame).depth ≤ 2 := by
  apply Json.depth_object_le
  rw [List.forall_mem_append]
  constructor
  · simp only [List.forall_mem_cons]
    exact ⟨Nat.zero_le _, Nat.zero_le _, depth_bindings _, by simp⟩
  · cases frame.error with
    | none => simp
    | some error =>
      rw [List.forall_mem_singleton]
      exact Nat.zero_le _

theorem readable_toJson (hindex : ∀ frame ∈ s.frames, frame.index < 2 ^ 64) :
    s.toJson.Readable := by
  apply Json.readable_object
  rw [List.forall_mem_singleton]
  apply Json.readable_array
  intro doc hdoc
  obtain ⟨frame, hframe, rfl⟩ := List.mem_map.mp hdoc
  exact readable_frameToJson (hindex frame hframe)

theorem depth_toJson (s : Snapshot) : s.toJson.depth ≤ 4 := by
  apply Json.depth_object_le
  rw [List.forall_mem_singleton]
  apply Json.depth_array_le
  intro doc hdoc
  obtain ⟨frame, _, rfl⟩ := List.mem_map.mp hdoc
  exact depth_frameToJson frame

/-- Snapshots with the same text are the same. -/
theorem eq_of_text (hs : s.toJson.Readable) (ht : t.toJson.Readable)
    (h : s.toJson.compact = t.toJson.compact) : s = t := by
  have hdocs : s.toJson = t.toJson := Json.eq_of_compact hs ht s.depth_toJson t.depth_toJson h
  rw [← Option.some_inj, ← s.ofJson?_toJson, hdocs, t.ofJson?_toJson]

end Snapshot

namespace CommandOutput

theorem readable_acknowledged (text : String) : (acknowledged text).toJson.Readable := by
  apply Json.readable_object
  simp only [List.forall_mem_cons]
  exact ⟨Json.readable_string _, Json.readable_string _, by simp⟩

theorem readable_snapshot {s : Snapshot} (hs : s.toJson.Readable) :
    (snapshot s).toJson.Readable := by
  apply Json.readable_object
  simp only [List.forall_mem_cons]
  exact ⟨Json.readable_string _, hs, by simp⟩

theorem depth_toJson (o : CommandOutput) : o.toJson.depth ≤ 5 := by
  cases o with
  | acknowledged text =>
    apply Json.depth_object_le
    simp only [List.forall_mem_cons]
    exact ⟨Nat.zero_le _, Nat.zero_le _, by simp⟩
  | snapshot s =>
    apply Json.depth_object_le
    simp only [List.forall_mem_cons]
    exact ⟨Nat.zero_le _, s.depth_toJson, by simp⟩

/-- Outputs with the same text are the same. -/
theorem eq_of_text {o p : CommandOutput} (ho : o.toJson.Readable) (hp : p.toJson.Readable)
    (h : o.toJson.compact = p.toJson.compact) : o = p := by
  have hdocs : o.toJson = p.toJson := Json.eq_of_compact ho hp o.depth_toJson p.depth_toJson h
  rw [← Option.some_inj, ← o.ofJson?_toJson, hdocs, p.ofJson?_toJson]

end CommandOutput

/-! ### What the text of a snapshot says -/

/-- The document says all that the frame holds, with no name twice among the bindings. -/
structure ScopeFrame.IsDocument (frame : ScopeFrame) (doc : Json) : Prop where
  index : doc.member? "index" = some (.ofNat frame.index)
  functionName : doc.member? "functionName" = some (.string frame.functionName)
  bindings : doc.member? "bindings" =
    some (.object (frame.bindings.entries.map fun b => (b.1, .string b.2)))
  names : ∀ members, doc.member? "bindings" = some (.object members) →
    (members.map Prod.fst).Nodup
  error : doc.member? "error" = frame.error.map .string

theorem ScopeFrame.isDocument (frame : ScopeFrame) :
    frame.IsDocument (Snapshot.frameToJson frame) := by
  have hbindings : (Snapshot.frameToJson frame).member? "bindings" =
      some (.object (frame.bindings.entries.map fun b => (b.1, .string b.2))) := rfl
  refine ⟨rfl, rfl, hbindings, fun members hmembers => ?_, ?_⟩
  · rw [hbindings] at hmembers
    cases hmembers
    rw [List.map_map]
    exact frame.bindings.nodup
  · unfold Snapshot.frameToJson
    cases frame.error <;> rfl

/-- A snapshot that was taken of a call stack.  Frames are counted by machine words. -/
def Snapshot.IsTaken (s : Snapshot) : Prop :=
  s.size ≤ 2 ^ 64 ∧ ∃ (a : Assembler) (heap : Heap) (c : ExecutionContext), s = a.assemble heap c

namespace Snapshot

variable {s : Snapshot}

/-- The index of a frame is its position, so it can be read back. -/
theorem IsTaken.readable (hs : s.IsTaken) : s.toJson.Readable := by
  obtain ⟨hsize, a, heap, c, rfl⟩ := hs
  apply readable_toJson
  intro frame hframe
  obtain ⟨i, hi, rfl⟩ := List.mem_iff_getElem.mp hframe
  have hindex : (a.assemble heap c).frames[i].index = i := by
    simp [Assembler.assemble, Assembler.frame_index]
  rw [hindex]
  exact hi.trans_le hsize

/-- **The text of a snapshot loses nothing.**  The text of a snapshot that was taken of a call
    stack can be read, and what is read gives the snapshot back: there is one document for
    each frame, in order, with its index, its function, its bindings in order with no name
    twice, and an error exactly if the frame has one.  The text of a command's output holds
    the same documents.  So snapshots with the same text are the same, with or without the
    output around them, and no acknowledgement has the text of a snapshot. -/
theorem snapshot_text_loses_nothing (hs : s.IsTaken) :
    ∃ docs : List Json,
      parse? nestingLimit s.toJson.compact = some (.object [("frames", .array docs)]) ∧
      ofJson? (.object [("frames", .array docs)]) = some s ∧
      List.Forall₂ ScopeFrame.IsDocument s.frames docs ∧
      -- inside the output of a command
      parse? nestingLimit (CommandOutput.snapshot s).toJson.compact =
        some (.object
          [("kind", .string "snapshot"), ("value", .object [("frames", .array docs)])]) ∧
      CommandOutput.ofJson?
          (.object [("kind", .string "snapshot"), ("value", .object [("frames", .array docs)])]) =
        some (.snapshot s) ∧
      -- different texts
      (∀ t : Snapshot, t.IsTaken → (s.toJson.compact = t.toJson.compact ↔ s = t)) ∧
      (∀ t : Snapshot, t.IsTaken →
        ((CommandOutput.snapshot s).toJson.compact = (CommandOutput.snapshot t).toJson.compact ↔
          s = t)) ∧
      ∀ text, (CommandOutput.snapshot s).toJson.compact ≠
        (CommandOutput.acknowledged text).toJson.compact := by
  have houtput {t : Snapshot} (ht : t.IsTaken) : (CommandOutput.snapshot t).toJson.Readable :=
    CommandOutput.readable_snapshot ht.readable
  have hdepth : s.toJson.depth ≤ nestingLimit := s.depth_toJson.trans (by decide)
  have hdepth' : (CommandOutput.snapshot s).toJson.depth ≤ nestingLimit :=
    (CommandOutput.depth_toJson _).trans (by decide)
  refine ⟨s.frames.map frameToJson, Json.parse?_compact hs.readable hdepth, s.ofJson?_toJson, ?_,
    Json.parse?_compact (houtput hs) hdepth', CommandOutput.ofJson?_toJson (.snapshot s),
    ?_, ?_, ?_⟩
  · rw [List.forall₂_map_right_iff, List.forall₂_same]
    exact fun frame _ => frame.isDocument
  · exact fun t ht => ⟨eq_of_text hs.readable ht.readable, fun h => h ▸ rfl⟩
  · intro t ht
    refine ⟨fun htexts => ?_, fun h => h ▸ rfl⟩
    exact CommandOutput.snapshot.inj (CommandOutput.eq_of_text (houtput hs) (houtput ht) htexts)
  · intro text htexts
    have heq := CommandOutput.eq_of_text (houtput hs)
      (CommandOutput.readable_acknowledged text) htexts
    cases heq

/-- Two frames, one of them unreadable, with quotation marks and a control character. -/
theorem snapshot_text_loses_nothing_with_error :
    let a : Assembler := ⟨{}, "main"⟩
    let scope : Scope := ⟨.ok (some "say \"\\\""), .ok ["\n", "x"], fun _ => .ok (.string "\x01")⟩
    let c : ExecutionContext := .direct ⟨2, fun i =>
      if i = 0 then .ok scope else .error (.frameOutOfRange i 1)⟩
    (a.assemble .empty c).IsTaken ∧
      (a.assemble .empty c).frames.map (fun frame => frame.error.isSome) = [false, true] ∧
      ∃ docs, parse? nestingLimit (a.assemble .empty c).toJson.compact =
          some (.object [("frames", .array docs)]) ∧
        ofJson? (.object [("frames", .array docs)]) = some (a.assemble .empty c) ∧
        List.Forall₂ ScopeFrame.IsDocument (a.assemble .empty c).frames docs := by
  intro a scope c
  have htaken : (a.assemble .empty c).IsTaken := ⟨by decide, a, .empty, c, rfl⟩
  obtain ⟨docs, hparse, hread, hdocs, _⟩ := snapshot_text_loses_nothing htaken
  exact ⟨htaken, by decide, docs, hparse, hread, hdocs⟩

end Snapshot

end ScriptDebugger
