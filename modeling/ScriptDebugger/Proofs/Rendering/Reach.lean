/-
  ScriptDebugger/Proofs/Rendering/Reach.lean
  ==========================================
  **A depth at which nothing is cut off.**

  Where no object of the host is reachable, every level of the tree opens one array
  or object, and an array or object that is open is not opened again.  So the path
  to a node lists as many pairwise distinct composites as the node is deep
  (`Opened`), and all of these are reachable.  Their number is a depth that is
  always enough (`complete_of_composites_le`), since a composite on the path is
  found before the depth counts.
-/
import Mathlib.Data.Set.Card
import ScriptDebugger.Proofs.Rendering.Depth

namespace ScriptDebugger

namespace Heap

/-! ### What a value leads to -/

section Reach

variable (heap : Heap)

/-- One value is somewhere below another one, or is that value. -/
def Reaches (v w : Value) : Prop := ∃ n, heap.Below n v w

/-- The arrays and objects that a value leads to. -/
def composites (v : Value) : Set Handle :=
  {h | ∃ w inside, heap.Reaches v w ∧ (heap.shape w).content? = some (h, inside)}

variable {heap} {v w x : Value}

theorem Reaches.refl (v : Value) : heap.Reaches v v := ⟨0, .refl v⟩

theorem Reaches.part (h : heap.Reaches v w) (hx : x ∈ (heap.shape w).parts) :
    heap.Reaches v x := by
  obtain ⟨n, hn⟩ := h
  exact ⟨n + 1, hn.trans (.step hx (.refl x))⟩

/-- Values that have their parts among them have all among them that they reach. -/
theorem Reaches.mem_of_closed {values : List Value} (h : heap.Reaches v w) (hv : v ∈ values)
    (hparts : ∀ u ∈ values, ∀ x ∈ (heap.shape u).parts, x ∈ values) : w ∈ values := by
  obtain ⟨n, hn⟩ := h
  induction hn with
  | refl v => exact hv
  | step hu _ ih => exact ih (hparts _ hv _ hu)

theorem mem_composites {h : Handle} {inside : List Value} (hw : heap.Reaches v w)
    (hinside : (heap.shape w).content? = some (h, inside)) : h ∈ heap.composites v :=
  ⟨w, inside, hw, hinside⟩

theorem reaches_of_mem_composites {h : Handle} (hh : h ∈ heap.composites v) :
    heap.Reaches v (.shared h) := by
  obtain ⟨w, inside, hw, hinside⟩ := hh
  exact eq_of_content? hinside ▸ hw

/-- The arrays and objects below are some of those in the heap. -/
theorem finite_composites (heap : Heap) (v : Value) : (heap.composites v).Finite := by
  refine Set.Finite.subset (((Finset.range heap.cells.size).image Handle.mk).finite_toSet) ?_
  rintro h ⟨w, inside, _, hinside⟩
  have hlt : h.id < heap.cells.size := by
    by_contra hge
    have hmissing : heap.cell? h = none := Array.getElem?_eq_none (Nat.le_of_not_lt hge)
    rw [eq_of_content? hinside, shape, hmissing] at hinside
    cases hinside
  exact Finset.mem_coe.mpr (Finset.mem_image.mpr ⟨h.id, Finset.mem_range.mpr hlt, rfl⟩)

/-- **Pairwise distinct arrays and objects below a value are at most as many as there
    are.** -/
theorem length_le_ncard {path : List Handle} (hnodup : path.Nodup)
    (hpath : ∀ h ∈ path, h ∈ heap.composites v) : path.length ≤ (heap.composites v).ncard := by
  have hsubset : (path.toFinset : Set Handle) ⊆ heap.composites v :=
    fun h hh => hpath h (List.mem_toFinset.mp hh)
  calc path.length = path.toFinset.card := (List.toFinset_card_of_nodup hnodup).symm
    _ = (path.toFinset : Set Handle).ncard := (Set.ncard_coe_finset _).symm
    _ ≤ (heap.composites v).ncard := Set.ncard_le_ncard hsubset (heap.finite_composites v)

end Reach

/-! ### Without objects of the host -/

/-- What is true on the way to a node: each level opened another one of the arrays
    and objects that can be reached. -/
structure Opened (heap : Heap) (root : Value) (route : List Nat) (path : List Handle)
    (depth : Nat) (v : Value) : Prop where
  reached : heap.Reaches root v
  nodup : path.Nodup
  composites : ∀ h ∈ path, h ∈ heap.composites root
  length : path.length = depth
  route : route.length = depth

variable {heap : Heap} {maxDepth depth : Nat} {root v : Value} {route : List Nat}
  {path : List Handle}

/-- **The invariant on the way to a node.** -/
theorem Leads.opened (hv : heap.Leads maxDepth root route path depth v)
    (hhosts : ∀ w inner, heap.Reaches root w → heap.shape w ≠ .host inner) {node : RenderedValue}
    (hnode : (heap.render maxDepth root).node? route = some node) :
    heap.Opened root route path depth v := by
  induction hv generalizing node with
  | root => exact ⟨.refl root, List.nodup_nil, by simp, rfl, rfl⟩
  | @into route path depth v h inside i w hv hinside hw ih =>
    rw [RenderedValue.node?_concat] at hnode
    obtain ⟨parent, hparent, hchild⟩ := Option.bind_eq_some_iff.mp hnode
    have hopened := ih hparent
    obtain ⟨_, rfl⟩ := hv.node_eq hparent
    -- the composite was opened, so it was not on the path
    have hnew : h ∉ path := by
      intro hmem
      rw [child?_unfold hinside, if_pos (.inl hmem)] at hchild
      cases hchild
    have hpart : w ∈ (heap.shape v).parts := by
      rw [parts_of_content? hinside]
      exact List.mem_of_getElem? hw
    refine ⟨hopened.reached.part hpart, List.nodup_cons.mpr ⟨hnew, hopened.nodup⟩, ?_, ?_, ?_⟩
    · intro h' hmem
      rcases List.mem_cons.mp hmem with rfl | hmem
      · exact mem_composites hopened.reached hinside
      · exact hopened.composites h' hmem
    · rw [List.length_cons, hopened.length]
    · rw [List.length_append, List.length_singleton, hopened.route]
  | unwrap hv hinner hroom ih => exact absurd hinner (hhosts _ _ (ih hnode).reached)

/-- There is room for an array or object that is not open yet: together with the path
    these are still no more than there are. -/
theorem Opened.lt_ncard (h : heap.Opened root route path depth v)
    (hhosts : ∀ w inner, heap.Reaches root w → heap.shape w ≠ .host inner)
    (hnested : (heap.shape v).isNested) (hnew : ¬ ∃ h ∈ path, v = .shared h) :
    depth < (heap.composites root).ncard := by
  have hcontent : ∃ h inside, (heap.shape v).content? = some (h, inside) := by
    cases hs : heap.shape v with
    | leaf shown => rw [hs] at hnested; cases hnested
    | array h elements | object h members => exact ⟨h, _, rfl⟩
    | host inner => exact absurd hs (hhosts v inner h.reached)
  obtain ⟨c, inside, hinside⟩ := hcontent
  have hnodup : (c :: path).Nodup :=
    List.nodup_cons.mpr ⟨fun hmem => hnew ⟨c, hmem, eq_of_content? hinside⟩, h.nodup⟩
  have hpath : ∀ h' ∈ c :: path, h' ∈ heap.composites root := by
    intro h' hmem
    rcases List.mem_cons.mp hmem with rfl | hmem
    · exact mem_composites h.reached hinside
    · exact h.composites h' hmem
  have hle := length_le_ncard hnodup hpath
  rwa [List.length_cons, h.length] at hle

/-- **Without objects of the host, as many levels as there are arrays and objects are
    enough.**  If the limit is at least the number of different arrays and objects that
    a value leads to, and none of the values there is an object of the host, then
    nothing in the tree of the value is cut off, whatever is shared and however it leads
    back to itself.  No route is longer than that number, and what is at its end is a
    reference back to an array or object that was opened on the way, or shows its value
    by the constructor, with all that is inside. -/
theorem complete_of_composites_le (heap : Heap) (v : Value) {maxDepth : Nat}
    (hhosts : ∀ w inner, heap.Reaches v w → heap.shape w ≠ .host inner)
    (hroom : (heap.composites v).ncard ≤ maxDepth) :
    let tree := heap.render maxDepth v
    tree.Complete ∧
    ∀ route node, tree.node? route = some node →
      route.length ≤ (heap.composites v).ncard ∧
      ∃ path w, heap.Leads maxDepth v route path route.length w ∧
        (node = .cyclic ∧ (∃ h ∈ path, w = .shared h) ∨ heap.ShowsPlainly w node) := by
  intro tree
  have hnodes : ∀ route node, tree.node? route = some node →
      route.length ≤ (heap.composites v).ncard ∧
      ∃ path w, heap.Leads maxDepth v route path route.length w ∧
        (node = .cyclic ∧ (∃ h ∈ path, w = .shared h) ∨ heap.ShowsPlainly w node) := by
    intro route node hnode
    obtain ⟨path, depth, w, hw, hsettled⟩ := exists_leads route hnode
    have hopened := hw.opened hhosts hnode
    obtain ⟨_, hshown⟩ := hw.node_eq hnode
    obtain rfl : route.length = depth := hopened.route
    refine ⟨?_, path, w, hw, ?_⟩
    · rw [← hopened.length]
      exact length_le_ncard hopened.nodup hopened.composites
    rw [hshown]
    rcases unfold_cases (fun h hmem => hw.content?_of_mem hmem) (no_room_or_not_host hsettled) with
      ⟨hcyclic, hseen⟩ | ⟨_, hseen, hnested, hfull⟩ | ⟨hplain, _⟩
    · exact .inl ⟨hcyclic, hseen⟩
    · have hlt := hopened.lt_ncard hhosts hnested hseen
      omega
    · exact .inr hplain
  refine ⟨fun route hcut => ?_, hnodes⟩
  obtain ⟨_, path, w, _, ⟨hcyclic, _⟩ | hplain⟩ := hnodes route _ hcut
  · cases hcyclic
  · exact hplain.ne_marker.2 rfl

/-- An array and an object that lead to each other, and an object of the host that
    leads to them. -/
theorem complete_of_composites_le_loop :
    let heap : Heap := ⟨#[.array [.shared ⟨1⟩, .shared ⟨0⟩, .shared ⟨1⟩],
      .object (.ofList [("up", .shared ⟨0⟩)]), .host "timer" (.shared ⟨0⟩)]⟩
    (∀ w inner, heap.Reaches (.shared ⟨0⟩) w → heap.shape w ≠ .host inner) ∧
      (heap.composites (.shared ⟨0⟩)).ncard ≤ 2 ∧ (heap.render 2 (.shared ⟨0⟩)).Complete ∧
      heap.render 2 (.shared ⟨0⟩) =
        .list [.map [("up", .cyclic)], .cyclic, .map [("up", .cyclic)]] := by
  intro heap
  have hreached : ∀ w, heap.Reaches (.shared ⟨0⟩) w → w = .shared ⟨0⟩ ∨ w = .shared ⟨1⟩ := by
    intro w hw
    have hmem : w ∈ [Value.shared ⟨0⟩, .shared ⟨1⟩] := hw.mem_of_closed (by decide) (by decide)
    simpa using hmem
  have hhosts : ∀ w inner, heap.Reaches (.shared ⟨0⟩) w → heap.shape w ≠ .host inner := by
    intro w inner hw hinner
    rcases hreached w hw with rfl | rfl <;> cases hinner
  have hroom : (heap.composites (.shared ⟨0⟩)).ncard ≤ 2 := by
    have hsubset : heap.composites (.shared ⟨0⟩) ⊆ {⟨0⟩, ⟨1⟩} := by
      rintro h ⟨w, inside, hw, hinside⟩
      rcases hreached w hw with rfl | rfl <;> cases hinside <;> simp
    exact (Set.ncard_le_ncard hsubset).trans (Set.ncard_pair (by decide)).le
  exact ⟨hhosts, hroom, (complete_of_composites_le heap (.shared ⟨0⟩) hhosts hroom).1, rfl⟩

end Heap

end ScriptDebugger
