/-
  ScriptDebugger/Proofs/Rendering/Depth.lean
  ==========================================
  **What a greater depth shows.**

  A value can be unfolded to any depth, and the tree says where it was cut off.
  A greater depth may replace each such place by a tree and leaves all the rest as
  it is (`Cuts`).  The two unfoldings stop at different places, but wherever both
  arrive the same arrays and objects are open, so they find the same cyclic
  references (`unfold_cuts`).  That a composite is looked for on the path before
  the depth counts is what makes this true at the places of the cut itself.
-/
import ScriptDebugger.Proofs.Rendering.Markers

namespace ScriptDebugger

namespace RenderedValue

/-- The second tree is the first one with some of its depth limits replaced by trees. -/
inductive Cuts : RenderedValue → RenderedValue → Prop
  | depthLimit (u : RenderedValue) : Cuts .depthLimit u
  | null : Cuts .null .null
  | undefined : Cuts .undefined .undefined
  | text (s : String) : Cuts (.text s) (.text s)
  | cyclic : Cuts .cyclic .cyclic
  | list {items items' : List RenderedValue} (hlength : items'.length = items.length)
      (hitems : ∀ (i : Nat) t u, items[i]? = some t → items'[i]? = some u → Cuts t u) :
      Cuts (.list items) (.list items')
  | map {members members' : List (String × RenderedValue)}
      (hkeys : members'.map Prod.fst = members.map Prod.fst)
      (hmembers : ∀ (i : Nat) t u, members[i]? = some t → members'[i]? = some u → Cuts t.2 u.2) :
      Cuts (.map members) (.map members')

/-- A node without the nodes below it, which are shown as cut off. -/
def bare : RenderedValue → RenderedValue
  | .list items => .list (items.map fun _ => .depthLimit)
  | .map members => .map (members.map fun m => (m.1, .depthLimit))
  | t => t

/-- Nothing in the tree is cut off. -/
def Complete (t : RenderedValue) : Prop := ∀ route, t.node? route ≠ some .depthLimit

theorem eq_cyclic_of_bare {t : RenderedValue} (h : t.bare = .cyclic) : t = .cyclic := by
  cases t with
  | cyclic => rfl
  | _ => cases h

theorem Complete.child {t u : RenderedValue} {i : Nat} (h : t.Complete)
    (hchild : t.child? i = some u) : u.Complete := by
  intro route hnode
  apply h (i :: route)
  rw [node?, hchild]
  exact hnode

namespace Cuts

variable {t u : RenderedValue}

theorem bare_eq (h : t.Cuts u) (hshown : t ≠ .depthLimit) : u.bare = t.bare := by
  cases h with
  | depthLimit => exact absurd rfl hshown
  | list hlength => simp [bare, List.map_const', hlength]
  | @map members members' hkeys =>
    have hbare (ms : List (String × RenderedValue)) :
        (RenderedValue.map ms).bare =
          .map ((ms.map Prod.fst).map fun key => (key, .depthLimit)) := by
      simp [bare]
    rw [hbare, hbare, hkeys]
  | _ => rfl

/-- What is below a node that is shown is the same in both trees, or was cut off. -/
theorem child? (h : t.Cuts u) {i : Nat} {node : RenderedValue} (hnode : t.child? i = some node) :
    ∃ node', u.child? i = some node' ∧ node.Cuts node' := by
  cases h with
  | @list items items' hlength hitems =>
    have hlt : i < items'.length := hlength ▸ (List.getElem?_eq_some_iff.mp hnode).1
    have hitem : items'[i]? = some items'[i] := List.getElem?_eq_getElem hlt
    exact ⟨items'[i], hitem, hitems i _ _ hnode hitem⟩
  | @map members members' hkeys hmembers =>
    obtain ⟨m, hm, rfl⟩ := Option.map_eq_some_iff.mp hnode
    have hlength : members'.length = members.length := by simpa using congrArg List.length hkeys
    have hlt : i < members'.length := hlength ▸ (List.getElem?_eq_some_iff.mp hm).1
    refine ⟨members'[i].2, ?_, hmembers i _ _ hm (List.getElem?_eq_getElem hlt)⟩
    simp [RenderedValue.child?, List.getElem?_eq_getElem hlt]
  | _ => cases hnode

theorem node? (h : t.Cuts u) {route : List Nat} {node : RenderedValue}
    (hnode : t.node? route = some node) : ∃ node', u.node? route = some node' ∧ node.Cuts node' := by
  induction route generalizing t u with
  | nil =>
    cases hnode
    exact ⟨u, rfl, h⟩
  | cons i route ih =>
    obtain ⟨below, hbelow, hrest⟩ := Option.bind_eq_some_iff.mp hnode
    obtain ⟨below', hbelow', hcuts⟩ := h.child? hbelow
    obtain ⟨node', hnode', hsame⟩ := ih hcuts hrest
    refine ⟨node', ?_, hsame⟩
    rw [RenderedValue.node?, hbelow']
    exact hnode'

/-- Where nothing was cut off there is nothing to replace. -/
theorem eq_of_complete (h : t.Cuts u) (hcomplete : t.Complete) : u = t := by
  induction h with
  | depthLimit u => exact absurd rfl (hcomplete [])
  | @list items items' hlength hitems ih =>
    refine congrArg RenderedValue.list (List.ext_getElem? fun i => ?_)
    by_cases hlt : i < items.length
    · have hlt' : i < items'.length := hlength ▸ hlt
      have ht := List.getElem?_eq_getElem hlt
      have hu := List.getElem?_eq_getElem hlt'
      rw [ht, hu, ih i _ _ ht hu (hcomplete.child ht)]
    · rw [List.getElem?_eq_none (by omega), List.getElem?_eq_none (by omega)]
  | @map members members' hkeys hmembers ih =>
    have hlength : members'.length = members.length := by simpa using congrArg List.length hkeys
    refine congrArg RenderedValue.map (List.ext_getElem? fun i => ?_)
    by_cases hlt : i < members.length
    · have hlt' : i < members'.length := hlength ▸ hlt
      have ht := List.getElem?_eq_getElem hlt
      have hu := List.getElem?_eq_getElem hlt'
      have hkey : members'[i].1 = members[i].1 := by
        simpa [ht, hu] using congrArg (·[i]?) hkeys
      have hchild : (RenderedValue.map members).child? i = some members[i].2 := by
        simp [RenderedValue.child?, ht]
      have hvalue : members'[i].2 = members[i].2 := ih i _ _ ht hu (hcomplete.child hchild)
      rw [ht, hu, Prod.ext hkey hvalue]
    · rw [List.getElem?_eq_none (by omega), List.getElem?_eq_none (by omega)]
  | _ => rfl

end Cuts

end RenderedValue

namespace Heap

variable {heap : Heap}

/-- A leaf is the same at every depth. -/
theorem leaf_cuts {v : Value} {shown : RenderedValue} (hv : heap.shape v = .leaf shown) :
    shown.Cuts shown := by
  cases v with
  | undefined => cases hv; exact .undefined
  | null => cases hv; exact .null
  | bool b => cases hv; exact .text _
  | number x => cases hv; exact .text _
  | string s => cases hv; exact .text s
  | function f => cases hv; exact .text _
  | shared h =>
    simp only [shape] at hv
    split at hv <;> cases hv
    exact .undefined

theorem unfold_cuts_of_seen {v : Value} {h : Handle} {inside : List Value}
    (hv : (heap.shape v).content? = some (h, inside)) {path : List Handle} (hpath : h ∈ path)
    (m n : Nat) : (heap.unfold m path v).Cuts (heap.unfold n path v) := by
  rw [unfold_cyclic hv hpath, unfold_cyclic hv hpath]
  exact .cyclic

/-- **The unfolding of a value is that to a greater depth, cut off somewhere.** -/
theorem unfold_cuts {m n : Nat} (hle : m ≤ n) (path : List Handle) (v : Value) :
    (heap.unfold m path v).Cuts (heap.unfold n path v) := by
  induction m generalizing n path v with
  | zero =>
    by_cases hseen : ∃ h inside, (heap.shape v).content? = some (h, inside) ∧ h ∈ path
    · obtain ⟨h, inside, hinside, hpath⟩ := hseen
      exact unfold_cuts_of_seen hinside hpath 0 n
    · cases hs : heap.shape v with
      | leaf shown =>
        rw [unfold_leaf hs, unfold_leaf hs]
        exact leaf_cuts hs
      | _ =>
        have hnew : ∀ h inside, (heap.shape v).content? = some (h, inside) → h ∉ path := by
          intro h inside hinside hpath
          exact hseen ⟨h, inside, hinside, hpath⟩
        rw [unfold_zero (by rw [hs]; rfl) hnew]
        exact .depthLimit _
  | succ m ih =>
    obtain ⟨n, rfl⟩ : ∃ k, n = k + 1 := Nat.exists_eq_add_one.mpr (by omega)
    have hroom : m ≤ n := by omega
    cases hs : heap.shape v with
    | leaf shown =>
      rw [unfold_leaf hs, unfold_leaf hs]
      exact leaf_cuts hs
    | array h elements =>
      have hinside : (heap.shape v).content? = some (h, elements) := by rw [hs]; rfl
      by_cases hpath : h ∈ path
      · exact unfold_cuts_of_seen hinside hpath _ _
      · -- the same arrays and objects are open below both lists
        rw [unfold_array hs hpath, unfold_array hs hpath]
        apply RenderedValue.Cuts.list (by simp)
        intro i t u ht hu
        rw [List.getElem?_map, Option.map_eq_some_iff] at ht hu
        obtain ⟨w, hw, rfl⟩ := ht
        obtain ⟨w', hw', rfl⟩ := hu
        cases hw.symm.trans hw'
        exact ih hroom (h :: path) w
    | object h members =>
      have hinside : (heap.shape v).content? = some (h, members.map Prod.snd) := by rw [hs]; rfl
      by_cases hpath : h ∈ path
      · exact unfold_cuts_of_seen hinside hpath _ _
      · rw [unfold_object hs hpath, unfold_object hs hpath]
        apply RenderedValue.Cuts.map (by simp)
        intro i t u ht hu
        rw [List.getElem?_map, Option.map_eq_some_iff] at ht hu
        obtain ⟨member, hm, rfl⟩ := ht
        obtain ⟨member', hm', rfl⟩ := hu
        cases hm.symm.trans hm'
        exact ih hroom (h :: path) member.2
    | host inner =>
      rw [unfold_host hs, unfold_host hs]
      exact ih hroom path inner

/-- **A greater depth only opens what was cut off.**  The tree of a value is the tree
    to a greater depth with some parts cut off; if nothing in it is cut off, the two
    are the same; and a node that is shown, or is a cyclic reference, shows the same
    to every greater depth. -/
theorem deeper_shows_more (heap : Heap) (v : Value) {m n : Nat} (hle : m ≤ n) :
    let t := heap.render m v
    let u := heap.render n v
    t.Cuts u ∧
    (t.Complete → u = t) ∧
    (∀ route node, t.node? route = some node → node ≠ .depthLimit →
      ∃ node', u.node? route = some node' ∧ node.Cuts node' ∧ node'.bare = node.bare) ∧
    (∀ route, t.node? route = some .cyclic → u.node? route = some .cyclic) := by
  intro t u
  have hcuts : t.Cuts u := unfold_cuts hle [] v
  refine ⟨hcuts, hcuts.eq_of_complete, ?_, ?_⟩
  · intro route node hnode hshown
    obtain ⟨node', hnode', hsame⟩ := hcuts.node? hnode
    exact ⟨node', hnode', hsame, hsame.bare_eq hshown⟩
  · intro route hnode
    obtain ⟨node', hnode', hsame⟩ := hcuts.node? hnode
    rw [hnode', RenderedValue.eq_cyclic_of_bare (hsame.bare_eq (by simp))]

/-- An array that holds itself, and an object of the host for an object that leads back. -/
theorem deeper_shows_more_of_loop :
    let heap : Heap := ⟨#[.array [.shared ⟨1⟩, .shared ⟨0⟩], .host "timer" (.shared ⟨2⟩),
      .object (.ofList [("up", .shared ⟨0⟩)])]⟩
    1 ≤ 3 ∧ heap.render 1 (.shared ⟨0⟩) = .list [.depthLimit, .cyclic] ∧
      heap.render 3 (.shared ⟨0⟩) = .list [.map [("up", .cyclic)], .cyclic] ∧
      (heap.render 1 (.shared ⟨0⟩)).Cuts (heap.render 3 (.shared ⟨0⟩)) ∧
      (heap.render 3 (.shared ⟨0⟩)).node? [1] = some .cyclic := by
  intro heap
  have hle : 1 ≤ 3 := by decide
  obtain ⟨hcuts, _, _, hcyclic⟩ := deeper_shows_more heap (.shared ⟨0⟩) hle
  exact ⟨hle, rfl, rfl, hcuts, hcyclic [1] rfl⟩

end Heap

end ScriptDebugger
