/-
  ScriptDebugger/Proofs/Rendering/Renaming.lean
  =============================================
  **The tree of a value does not show its handles.**

  Handles are only ever compared with those on the path.  If the arrays and objects
  that a value leads to get other handles, different ones for different composites,
  then the value is looked up as before, up to the new handles (`shape_rename`), and a
  composite is on the path just if it was before (`mem_map_path`).  So the unfolding
  of the value and the one of its counterpart go the same way (`unfold_rename`).
-/
import Mathlib.Data.Set.Function
import ScriptDebugger.Proofs.Rendering.Reach

namespace ScriptDebugger

/-- The value with another handle, if it has one. -/
def Value.rename (f : Handle → Handle) : Value → Value
  | .shared h => .shared (f h)
  | v => v

/-- The same composite with other handles inside.  What an object of the host is called
    does not count. -/
inductive Cell.Renamed (f : Handle → Handle) : Cell → Cell → Prop
  | array (elements : List Value) :
      Renamed f (.array elements) (.array (elements.map (Value.rename f)))
  | object {members members' : OrderedMap String Value}
      (hentries : members'.entries = members.entries.map fun m => (m.1, m.2.rename f)) :
      Renamed f (.object members) (.object members')
  | host (typeName typeName' : String) (inner : Value) :
      Renamed f (.host typeName inner) (.host typeName' (inner.rename f))

/-- What is looked up, with other handles. -/
def Shape.rename (f : Handle → Handle) : Shape → Shape
  | .leaf shown => .leaf shown
  | .array h elements => .array (f h) (elements.map (Value.rename f))
  | .object h members => .object (f h) (members.map fun m => (m.1, m.2.rename f))
  | .host inner => .host (inner.rename f)

namespace Heap

/-- In the second heap all that the value leads to stands under other handles, and no
    two of the arrays and objects there under the same one.  The rest of the two heaps
    has nothing to do with each other. -/
structure RenamedTo (f : Handle → Handle) (heap heap' : Heap) (root : Value) : Prop where
  cells : ∀ h, heap.Reaches root (.shared h) →
    Option.Rel (Cell.Renamed f) (heap.cell? h) (heap'.cell? (f h))
  injective : Set.InjOn f (heap.composites root)

namespace RenamedTo

variable {f : Handle → Handle} {heap heap' : Heap} {root v : Value}

/-- It is enough to look at some values that have their parts among them. -/
theorem of_closed {values : List Value} (hroot : root ∈ values)
    (hparts : ∀ u ∈ values, ∀ w ∈ (heap.shape u).parts, w ∈ values)
    (hcells : ∀ h, Value.shared h ∈ values →
      Option.Rel (Cell.Renamed f) (heap.cell? h) (heap'.cell? (f h)))
    (hinjective : Set.InjOn f {h | Value.shared h ∈ values}) :
    RenamedTo f heap heap' root where
  cells h hh := hcells h (hh.mem_of_closed hroot hparts)
  injective := hinjective.mono fun _ hh =>
    (reaches_of_mem_composites hh).mem_of_closed hroot hparts

/-- **What is looked up is the same up to the handles.** -/
theorem shape_rename (h : RenamedTo f heap heap' root) (hv : heap.Reaches root v) :
    heap'.shape (v.rename f) = (heap.shape v).rename f := by
  cases v with
  | shared c =>
    have hcell := h.cells c hv
    simp only [Value.rename, shape]
    generalize heap.cell? c = cell at hcell ⊢
    generalize heap'.cell? (f c) = cell' at hcell ⊢
    cases hcell with
    | none => rfl
    | some hrenamed =>
      cases hrenamed with
      | array | host => rfl
      | object hentries => simp only [hentries, Shape.rename]
  | _ => rfl

theorem mem_map_path (h : RenamedTo f heap heap' root) {path : List Handle}
    (hpath : ∀ c ∈ path, c ∈ heap.composites root) {c : Handle} (hc : c ∈ heap.composites root) :
    f c ∈ path.map f ↔ c ∈ path := by
  constructor
  · intro hmem
    obtain ⟨d, hd, hsame⟩ := List.mem_map.mp hmem
    exact h.injective (hpath d hd) hc hsame ▸ hd
  · exact List.mem_map_of_mem

/-- **Two unfoldings that go the same way:** the path of the second one is the path of
    the first one with the other handles. -/
theorem unfold_rename (h : RenamedTo f heap heap' root) (room : Nat) {path : List Handle}
    (hpath : ∀ c ∈ path, c ∈ heap.composites root) (hv : heap.Reaches root v) :
    heap'.unfold room (path.map f) (v.rename f) = heap.unfold room path v := by
  induction room generalizing path v with
  | zero =>
    have hshape := h.shape_rename hv
    cases hs : heap.shape v with
    | leaf shown | host inner => simp only [unfold, hshape, hs, Shape.rename]
    | array c elements | object c members =>
      have hc : c ∈ heap.composites root := mem_composites hv (by rw [hs]; rfl)
      simp only [unfold, hshape, hs, Shape.rename, h.mem_map_path hpath hc]
  | succ room ih =>
    have hshape := h.shape_rename hv
    -- below an opened composite both paths have one more handle
    have hinside {c : Handle} {inside : List Value} {w : Value}
        (hc : (heap.shape v).content? = some (c, inside)) (hw : w ∈ inside) :
        heap'.unfold room (f c :: path.map f) (w.rename f) = heap.unfold room (c :: path) w := by
      have hpart : w ∈ (heap.shape v).parts := by rw [parts_of_content? hc]; exact hw
      rw [← List.map_cons]
      exact ih (List.forall_mem_cons.mpr ⟨mem_composites hv hc, hpath⟩) (hv.part hpart)
    cases hs : heap.shape v with
    | leaf shown => simp only [unfold, hshape, hs, Shape.rename]
    | array c elements =>
      have hc : (heap.shape v).content? = some (c, elements) := by rw [hs]; rfl
      simp only [unfold, hshape, hs, Shape.rename, h.mem_map_path hpath (mem_composites hv hc),
        List.map_map]
      split
      · rfl
      · exact congrArg _ (List.map_congr_left fun w hw => hinside hc hw)
    | object c members =>
      have hc : (heap.shape v).content? = some (c, members.map Prod.snd) := by rw [hs]; rfl
      simp only [unfold, hshape, hs, Shape.rename, h.mem_map_path hpath (mem_composites hv hc),
        List.map_map]
      split
      · rfl
      · refine congrArg _ (List.map_congr_left fun m hm => Prod.ext rfl ?_)
        exact hinside hc (List.mem_map_of_mem hm)
    | host inner =>
      have hpart : inner ∈ (heap.shape v).parts := by rw [hs]; exact List.mem_singleton.mpr rfl
      simp only [unfold, hshape, hs, Shape.rename]
      exact ih hpath (hv.part hpart)

/-- The tree of a value is that of its counterpart. -/
theorem render_eq (h : RenamedTo f heap heap' v) (maxDepth : Nat) :
    heap'.render maxDepth (v.rename f) = heap.render maxDepth v :=
  h.unfold_rename maxDepth (List.forall_mem_nil _) (.refl v)

theorem text_eq (h : RenamedTo f heap heap' v) (options : RenderOptions) :
    heap'.text options (v.rename f) = heap.text options v := by
  rw [text, text, h.render_eq]

end RenamedTo

end Heap

end ScriptDebugger
