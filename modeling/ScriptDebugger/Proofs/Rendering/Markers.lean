/-
  ScriptDebugger/Proofs/Rendering/Markers.lean
  ============================================
  **Where the markers stand in a rendered value.**

  A node of the tree is found by its route, the numbers of the items and members
  on the way down (`RenderedValue.node?`).  The same route leads through the graph
  of shared composites to the value that the node stands for (`Heap.Leads`), and on
  the way some arrays and objects were opened and some objects of the host replaced
  by their values.  What the node is hangs on these alone:

    * `Leads.node_eq` — the node is the unfolding of that value, with the levels
      that are left, below the composites on the way;
    * `plain_unfold` — where neither marker applies, the tree is the plain unfolding
      of the value (`Heap.Plain`), however its parts are shared.
-/
import Mathlib.Data.List.Induction
import ScriptDebugger.Rendering

namespace ScriptDebugger

/-! ### Nodes by their routes -/

namespace RenderedValue

/-- The node directly below with the given number: an item, or the value of a member. -/
def child? : RenderedValue → Nat → Option RenderedValue
  | .list items, i => items[i]?
  | .map members, i => members[i]?.map Prod.snd
  | _, _ => none

/-- The node that a route leads to. -/
def node? : List Nat → RenderedValue → Option RenderedValue
  | [], t => some t
  | i :: route, t => (t.child? i).bind (node? route)

theorem node?_append (route later : List Nat) (t : RenderedValue) :
    node? (route ++ later) t = (node? route t).bind (node? later) := by
  induction route generalizing t with
  | nil => rfl
  | cons i route ih =>
    simp only [List.cons_append, node?, Option.bind_assoc]
    exact congrArg _ (funext ih)

theorem node?_concat (route : List Nat) (i : Nat) (t : RenderedValue) :
    node? (route ++ [i]) t = (node? route t).bind fun node => node.child? i := by
  rw [node?_append]
  refine congrArg _ (funext fun node => ?_)
  simp [node?]

end RenderedValue

/-! ### Values by their routes -/

namespace Shape

/-- An array or object together with the values inside of it, in order. -/
def content? : Shape → Option (Handle × List Value)
  | .array h elements => some (h, elements)
  | .object h members => some (h, members.map Prod.snd)
  | _ => none

/-- Whether the value is an array, an object or an object of the host. -/
def isNested : Shape → Bool
  | .leaf _ => false
  | _ => true

/-- The values directly below. -/
def parts : Shape → List Value
  | .leaf _ => []
  | .array _ elements => elements
  | .object _ members => members.map Prod.snd
  | .host inner => [inner]

end Shape

namespace Heap

variable (heap : Heap)

/-- In the tree of `root` a route leads to the value `v`.  On the way the arrays and
    objects of `path` were opened, the last one first, and together with the objects
    of the host that were replaced by their values these are `depth` levels. -/
inductive Leads (maxDepth : Nat) (root : Value) :
    (route : List Nat) → (path : List Handle) → (depth : Nat) → (v : Value) → Prop
  | root : Leads maxDepth root [] [] 0 root
  | into {route path depth v h inside i w} (hv : Leads maxDepth root route path depth v)
      (hinside : (heap.shape v).content? = some (h, inside)) (hw : inside[i]? = some w) :
      Leads maxDepth root (route ++ [i]) (h :: path) (depth + 1) w
  | unwrap {route path depth v inner} (hv : Leads maxDepth root route path depth v)
      (hinner : heap.shape v = .host inner) (hroom : depth < maxDepth) :
      Leads maxDepth root route path (depth + 1) inner

/-- An object of the host that is to be replaced by its value. -/
def Unwraps (maxDepth depth : Nat) (v : Value) : Prop :=
  depth < maxDepth ∧ ∃ inner, heap.shape v = .host inner

/-- The node of a value by its constructor, with a node for each value inside. -/
def ShowsPlainly (v : Value) (node : RenderedValue) : Prop :=
  match heap.shape v with
  | .leaf shown => node = shown
  | .array _ elements => ∃ items, node = .list items ∧ items.length = elements.length
  | .object _ members => ∃ items, node = .map items ∧ items.map Prod.fst = members.map Prod.fst
  | .host _ => False

/-- One value is `n` levels below another one. -/
inductive Below : (n : Nat) → (v w : Value) → Prop
  | refl (v : Value) : Below 0 v v
  | step {n v w x} (hw : w ∈ (heap.shape v).parts) (h : Below n w x) : Below (n + 1) v x

/-- No array, object or object of the host is `n` or more levels below the value. -/
def NestsWithin (n : Nat) (v : Value) : Prop :=
  ∀ m w, heap.Below m v w → (heap.shape w).isNested → m < n

/-- The tree of a value without any marker. -/
inductive Plain : Value → RenderedValue → Prop
  | leaf {v shown} (hv : heap.shape v = .leaf shown) : Plain v shown
  | array {v h elements items} (hv : heap.shape v = .array h elements)
      (hlength : items.length = elements.length)
      (hitems : ∀ (i : Nat) w t, elements[i]? = some w → items[i]? = some t → Plain w t) :
      Plain v (.list items)
  | object {v h members items} (hv : heap.shape v = .object h members)
      (hkeys : items.map Prod.fst = members.map Prod.fst)
      (hitems : ∀ (i : Nat) m t, members[i]? = some m → items[i]? = some t → Plain m.2 t.2) :
      Plain v (.map items)
  | host {v inner t} (hv : heap.shape v = .host inner) (hinner : Plain inner t) : Plain v t

variable {heap}

/-! ### Shapes -/

section Shape

variable {v : Value} {h : Handle} {inside : List Value}

/-- An array or object is the handle by which it is known. -/
theorem eq_of_content? (hv : (heap.shape v).content? = some (h, inside)) : v = .shared h := by
  cases v with
  | shared h' =>
    simp only [shape] at hv
    split at hv
    · cases hv; rfl
    · cases hv; rfl
    · cases hv
    · cases hv
  | _ => cases hv

theorem isNested_of_content? (hv : (heap.shape v).content? = some (h, inside)) :
    (heap.shape v).isNested = true := by
  cases hs : heap.shape v with
  | leaf shown => rw [hs] at hv; cases hv
  | _ => rfl

theorem parts_of_content? (hv : (heap.shape v).content? = some (h, inside)) :
    (heap.shape v).parts = inside := by
  cases hs : heap.shape v with
  | array h' elements | object h' members =>
    rw [hs] at hv
    cases hv
    rfl
  | _ => rw [hs] at hv; cases hv

/-- A leaf is no marker and has nothing below it. -/
theorem leaf_shown {shown : RenderedValue} (hv : heap.shape v = .leaf shown) :
    shown ≠ .cyclic ∧ shown ≠ .depthLimit ∧ ∀ i, shown.child? i = none := by
  cases v with
  | shared h' =>
    simp only [shape] at hv
    split at hv <;> cases hv
    exact ⟨by simp, by simp, fun _ => rfl⟩
  | _ =>
    cases hv
    exact ⟨by simp, by simp, fun _ => rfl⟩

end Shape

/-! ### One level of the unfolding -/

section Unfold

variable {v : Value} {h : Handle} {inside : List Value}

theorem unfold_leaf {shown : RenderedValue} (hv : heap.shape v = .leaf shown) (room : Nat)
    (path : List Handle) : heap.unfold room path v = shown := by
  cases room <;> simp only [unfold, hv]

theorem unfold_cyclic (hv : (heap.shape v).content? = some (h, inside)) {path : List Handle}
    (hpath : h ∈ path) (room : Nat) : heap.unfold room path v = .cyclic := by
  cases hs : heap.shape v with
  | array h' elements | object h' members =>
    rw [hs] at hv
    cases hv
    cases room <;> simp only [unfold, hs, if_pos hpath]
  | _ => rw [hs] at hv; cases hv

/-- Where no level is left a composite is not opened. -/
theorem unfold_zero (hv : (heap.shape v).isNested) {path : List Handle}
    (hpath : ∀ h inside, (heap.shape v).content? = some (h, inside) → h ∉ path) :
    heap.unfold 0 path v = .depthLimit := by
  cases hs : heap.shape v with
  | leaf shown => rw [hs] at hv; cases hv
  | array h elements | object h members =>
    have hnew : h ∉ path := hpath h _ (by rw [hs]; rfl)
    simp only [unfold, hs, if_neg hnew]
  | host inner => simp only [unfold, hs]

theorem unfold_array {elements : List Value} (hv : heap.shape v = .array h elements)
    {path : List Handle} (hpath : h ∉ path) (room : Nat) :
    heap.unfold (room + 1) path v = .list (elements.map (heap.unfold room (h :: path))) := by
  simp only [unfold, hv, if_neg hpath]

theorem unfold_object {members : List (String × Value)} (hv : heap.shape v = .object h members)
    {path : List Handle} (hpath : h ∉ path) (room : Nat) :
    heap.unfold (room + 1) path v =
      .map (members.map fun m => (m.1, heap.unfold room (h :: path) m.2)) := by
  simp only [unfold, hv, if_neg hpath]

theorem unfold_host {inner : Value} (hv : heap.shape v = .host inner) (room : Nat)
    (path : List Handle) : heap.unfold (room + 1) path v = heap.unfold room path inner := by
  simp only [unfold, hv]

/-- **What is below an opened composite:** a node for each value inside, with one
    level less and the composite on the path. -/
theorem child?_unfold (hv : (heap.shape v).content? = some (h, inside)) (room : Nat)
    (path : List Handle) (i : Nat) :
    (heap.unfold room path v).child? i =
      if h ∈ path ∨ room = 0 then none
      else inside[i]?.map (heap.unfold (room - 1) (h :: path)) := by
  by_cases hpath : h ∈ path
  · rw [unfold_cyclic hv hpath, if_pos (.inl hpath)]
    rfl
  cases room with
  | zero =>
    rw [unfold_zero (isNested_of_content? hv) ?_, if_pos (.inr rfl)]
    · rfl
    · intro h' inside' hv'
      cases hv.symm.trans hv'
      exact hpath
  | succ room =>
    rw [if_neg (by simp [hpath])]
    cases hs : heap.shape v with
    | array h' elements =>
      rw [hs] at hv
      cases hv
      rw [unfold_array hs hpath]
      simp [RenderedValue.child?]
    | object h' members =>
      rw [hs] at hv
      cases hv
      rw [unfold_object hs hpath]
      simp [RenderedValue.child?, Function.comp_def]
    | _ => rw [hs] at hv; cases hv

/-- What has something below it is an array or object that was opened. -/
theorem content?_of_child? {room : Nat} {path : List Handle} {i : Nat} {node : RenderedValue}
    (hnode : (heap.unfold room path v).child? i = some node)
    (hhost : room = 0 ∨ ∀ inner, heap.shape v ≠ .host inner) :
    ∃ h inside, (heap.shape v).content? = some (h, inside) := by
  cases hs : heap.shape v with
  | leaf shown =>
    rw [unfold_leaf hs, (leaf_shown hs).2.2 i] at hnode
    cases hnode
  | array h elements | object h members => exact ⟨h, _, rfl⟩
  | host inner =>
    rcases hhost with rfl | hhost
    · rw [unfold_zero (by rw [hs]; rfl) (by rw [hs]; intro _ _ hno; cases hno)] at hnode
      cases hnode
    · exact absurd hs (hhost inner)

end Unfold

/-! ### The node of a value -/

namespace Leads

variable {maxDepth : Nat} {root : Value} {route : List Nat} {path : List Handle} {depth : Nat}
  {v : Value}

/-- **The node at the end of a route is the unfolding of the value to which the route
    leads.** -/
theorem node_eq (hv : heap.Leads maxDepth root route path depth v) {node : RenderedValue}
    (hnode : (heap.render maxDepth root).node? route = some node) :
    depth ≤ maxDepth ∧ node = heap.unfold (maxDepth - depth) path v := by
  induction hv generalizing node with
  | root =>
    cases hnode
    exact ⟨Nat.zero_le maxDepth, rfl⟩
  | @into route path depth v h inside i w hv hinside hw ih =>
    rw [RenderedValue.node?_concat] at hnode
    obtain ⟨parent, hparent, hchild⟩ := Option.bind_eq_some_iff.mp hnode
    obtain ⟨hdepth, rfl⟩ := ih hparent
    rw [child?_unfold hinside] at hchild
    split at hchild
    · cases hchild
    · rename_i hopen
      rw [hw] at hchild
      cases hchild
      rw [not_or] at hopen
      exact ⟨by omega, rfl⟩
  | @unwrap route path depth v inner hv hinner hroom ih =>
    obtain ⟨hdepth, rfl⟩ := ih hnode
    refine ⟨hroom, ?_⟩
    rw [show maxDepth - depth = maxDepth - (depth + 1) + 1 by omega, unfold_host hinner]

/-- Objects of the host are replaced until one of their values is none, or no level
    is left. -/
theorem settle (hv : heap.Leads maxDepth root route path depth v) :
    ∃ depth' w, heap.Leads maxDepth root route path depth' w ∧ ¬ heap.Unwraps maxDepth depth' w := by
  induction hroom : maxDepth - depth generalizing depth v with
  | zero =>
    refine ⟨depth, v, hv, ?_⟩
    rintro ⟨hlt, _⟩
    omega
  | succ room ih =>
    by_cases hhost : ∃ inner, heap.shape v = .host inner
    · obtain ⟨inner, hinner⟩ := hhost
      exact ih (.unwrap hv hinner (by omega)) (by omega)
    · exact ⟨depth, v, hv, fun hunwraps => hhost hunwraps.2⟩

end Leads

theorem no_room_or_not_host {maxDepth depth : Nat} {v : Value}
    (hsettled : ¬ heap.Unwraps maxDepth depth v) :
    maxDepth - depth = 0 ∨ ∀ inner, heap.shape v ≠ .host inner := by
  by_cases hlt : depth < maxDepth
  · exact .inr fun inner hinner => hsettled ⟨hlt, inner, hinner⟩
  · exact .inl (by omega)

/-- Every node of the tree stands for a value. -/
theorem exists_leads {maxDepth : Nat} {root : Value} (route : List Nat) {node : RenderedValue}
    (hnode : (heap.render maxDepth root).node? route = some node) :
    ∃ path depth v, heap.Leads maxDepth root route path depth v ∧ ¬ heap.Unwraps maxDepth depth v := by
  induction route using List.reverseRecOn generalizing node with
  | nil =>
    have hroot : heap.Leads maxDepth root [] [] 0 root := .root
    obtain ⟨depth, v, hv, hsettled⟩ := hroot.settle
    exact ⟨[], depth, v, hv, hsettled⟩
  | append_singleton route i ih =>
    rw [RenderedValue.node?_concat] at hnode
    obtain ⟨parent, hparent, hchild⟩ := Option.bind_eq_some_iff.mp hnode
    obtain ⟨path, depth, v, hv, hsettled⟩ := ih hparent
    obtain ⟨hdepth, rfl⟩ := hv.node_eq hparent
    obtain ⟨h, inside, hinside⟩ := content?_of_child? hchild (no_room_or_not_host hsettled)
    rw [child?_unfold hinside] at hchild
    split at hchild
    · cases hchild
    · obtain ⟨w, hw, _⟩ := Option.map_eq_some_iff.mp hchild
      obtain ⟨depth', w', hw', hsettled'⟩ := (Leads.into hv hinside hw).settle
      exact ⟨h :: path, depth', w', hw', hsettled'⟩

/-- The handles on the way are those of arrays and objects. -/
theorem Leads.content?_of_mem {maxDepth : Nat} {root : Value} {route : List Nat} {path : List Handle}
    {depth : Nat} {v : Value} (hv : heap.Leads maxDepth root route path depth v) {h : Handle}
    (hmem : h ∈ path) : ∃ inside, (heap.shape (.shared h)).content? = some (h, inside) := by
  induction hv with
  | root => cases hmem
  | @into route path depth v h' inside i w hv hinside hw ih =>
    rcases List.mem_cons.mp hmem with rfl | hmem
    · exact ⟨inside, eq_of_content? hinside ▸ hinside⟩
    · exact ih hmem
  | unwrap hv hinner hroom ih => exact ih hmem

/-! ### Markers -/

theorem ShowsPlainly.ne_marker {v : Value} {node : RenderedValue} (hnode : heap.ShowsPlainly v node) :
    node ≠ .cyclic ∧ node ≠ .depthLimit := by
  unfold ShowsPlainly at hnode
  split at hnode
  · rename_i shown hv
    rw [hnode]
    exact ⟨(leaf_shown hv).1, (leaf_shown hv).2.1⟩
  · obtain ⟨items, rfl, _⟩ := hnode
    exact ⟨by simp, by simp⟩
  · obtain ⟨items, rfl, _⟩ := hnode
    exact ⟨by simp, by simp⟩
  · exact hnode.elim

/-- The value is an array or object on the path, or it is too deep, or it is shown by
    its constructor. -/
theorem unfold_cases {room : Nat} {path : List Handle} {v : Value}
    (hpath : ∀ h ∈ path, ∃ inside, (heap.shape (.shared h)).content? = some (h, inside))
    (hhost : room = 0 ∨ ∀ inner, heap.shape v ≠ .host inner) :
    heap.unfold room path v = .cyclic ∧ (∃ h ∈ path, v = .shared h) ∨
      heap.unfold room path v = .depthLimit ∧ (¬ ∃ h ∈ path, v = .shared h) ∧
        (heap.shape v).isNested ∧ room = 0 ∨
      heap.ShowsPlainly v (heap.unfold room path v) ∧ (¬ ∃ h ∈ path, v = .shared h) ∧
        ¬ ((heap.shape v).isNested ∧ room = 0) := by
  by_cases hseen : ∃ h ∈ path, v = .shared h
  · obtain ⟨h, hmem, rfl⟩ := hseen
    obtain ⟨inside, hinside⟩ := hpath h hmem
    exact .inl ⟨unfold_cyclic hinside hmem room, h, hmem, rfl⟩
  have hnew : ∀ h inside, (heap.shape v).content? = some (h, inside) → h ∉ path :=
    fun h inside hinside hmem => hseen ⟨h, hmem, eq_of_content? hinside⟩
  right
  cases room with
  | zero =>
    by_cases hnested : (heap.shape v).isNested
    · exact .inl ⟨unfold_zero hnested hnew, hseen, hnested, rfl⟩
    · refine .inr ⟨?_, hseen, fun h => hnested h.1⟩
      cases hs : heap.shape v with
      | leaf shown => simp only [ShowsPlainly, hs, unfold_leaf hs]
      | _ => rw [hs] at hnested; exact absurd rfl hnested
  | succ room =>
    refine .inr ⟨?_, hseen, fun h => Nat.succ_ne_zero room h.2⟩
    cases hs : heap.shape v with
    | leaf shown => simp only [ShowsPlainly, hs, unfold_leaf hs]
    | array h elements =>
      have hfresh : h ∉ path := hnew h elements (by rw [hs]; rfl)
      simp only [ShowsPlainly, hs, unfold_array hs hfresh]
      exact ⟨_, rfl, List.length_map _⟩
    | object h members =>
      have hfresh : h ∉ path := hnew h _ (by rw [hs]; rfl)
      simp only [ShowsPlainly, hs, unfold_object hs hfresh]
      exact ⟨_, rfl, by simp⟩
    | host inner =>
      rcases hhost with hzero | hhost
      · cases hzero
      · exact absurd hs (hhost inner)

/-! ### Without markers -/

theorem Below.trans {n m : Nat} {v w x : Value} (h : heap.Below n v w) (h' : heap.Below m w x) :
    heap.Below (n + m) v x := by
  induction h with
  | refl v => rwa [Nat.zero_add]
  | @step n v u w hu h ih =>
    rw [Nat.add_right_comm]
    exact .step hu (ih h')

theorem isNested_of_below {n : Nat} {v w : Value} (h : heap.Below (n + 1) v w) :
    (heap.shape v).isNested := by
  cases h with
  | step hw _ =>
    cases hs : heap.shape v with
    | leaf shown => rw [hs] at hw; cases hw
    | _ => rfl

/-- What nests within a bound has nothing below it that is below itself. -/
theorem NestsWithin.not_below_itself {n : Nat} {v : Value} (hv : heap.NestsWithin n v) {m l : Nat}
    {w : Value} (hw : heap.Below m v w) : ¬ heap.Below (l + 1) w w := by
  intro hloop
  -- going round the loop leads to any depth
  have hround (k : Nat) : heap.Below (m + k * (l + 1)) v w := by
    induction k with
    | zero => simpa using hw
    | succ k ih =>
      rw [Nat.succ_mul, ← Nat.add_assoc]
      exact ih.trans hloop
  have hlt := hv _ w (hround n) (isNested_of_below hloop)
  have hle : n * 1 ≤ n * (l + 1) := Nat.mul_le_mul_left n (by omega)
  omega

/-- Where neither marker applies, the unfolding is the plain one. -/
theorem plain_unfold {room : Nat} {path : List Handle} {v : Value} (hv : heap.NestsWithin room v)
    (hpath : ∀ n w h inside, heap.Below n v w → (heap.shape w).content? = some (h, inside) →
      h ∉ path) : heap.Plain v (heap.unfold room path v) := by
  induction room generalizing path v with
  | zero =>
    cases hs : heap.shape v with
    | leaf shown => rw [unfold_leaf hs]; exact .leaf hs
    | _ => exact absurd (hv 0 v (.refl v) (by rw [hs]; rfl)) (Nat.not_lt_zero 0)
  | succ room ih =>
    have hbelow {w : Value} (hw : w ∈ (heap.shape v).parts) : heap.NestsWithin room w := by
      intro n x hx hnested
      exact Nat.lt_of_succ_lt_succ (hv (n + 1) x (.step hw hx) hnested)
    -- below an opened composite its own handle does not come again
    have hinside {h : Handle} {inside : List Value}
        (hc : (heap.shape v).content? = some (h, inside)) {w : Value} (hw : w ∈ inside) :
        heap.Plain w (heap.unfold room (h :: path) w) := by
      have hpart : w ∈ (heap.shape v).parts := by rw [parts_of_content? hc]; exact hw
      refine ih (hbelow hpart) fun n x h' inside' hx hc' hmem => ?_
      rcases List.mem_cons.mp hmem with rfl | hmem
      · have hsame : x = v := (eq_of_content? hc').trans (eq_of_content? hc).symm
        exact hv.not_below_itself (.refl v) (.step hpart (hsame ▸ hx))
      · exact hpath (n + 1) x h' inside' (.step hpart hx) hc' hmem
    cases hs : heap.shape v with
    | leaf shown => rw [unfold_leaf hs]; exact .leaf hs
    | array h elements =>
      have hc : (heap.shape v).content? = some (h, elements) := by rw [hs]; rfl
      rw [unfold_array hs (hpath 0 v h elements (.refl v) hc)]
      refine .array hs (List.length_map _) fun i w t hw ht => ?_
      rw [List.getElem?_map, hw] at ht
      cases ht
      exact hinside hc (List.mem_of_getElem? hw)
    | object h members =>
      have hc : (heap.shape v).content? = some (h, members.map Prod.snd) := by rw [hs]; rfl
      rw [unfold_object hs (hpath 0 v h _ (.refl v) hc)]
      refine .object hs (by simp) fun i m t hm ht => ?_
      rw [List.getElem?_map, hm] at ht
      cases ht
      exact hinside hc (List.mem_map_of_mem (List.mem_of_getElem? hm))
    | host inner =>
      rw [unfold_host hs]
      have hpart : inner ∈ (heap.shape v).parts := by rw [hs]; exact List.mem_singleton.mpr rfl
      refine .host hs (ih (hbelow hpart) fun n w h inside hw hc => ?_)
      exact hpath (n + 1) w h inside (.step hpart hw) hc

theorem Plain.ne_marker {v : Value} {t : RenderedValue} (h : heap.Plain v t) {route : List Nat}
    {node : RenderedValue} (hnode : t.node? route = some node) :
    node ≠ .cyclic ∧ node ≠ .depthLimit := by
  induction h generalizing route with
  | @leaf v shown hv =>
    cases route with
    | nil =>
      cases hnode
      exact ⟨(leaf_shown hv).1, (leaf_shown hv).2.1⟩
    | cons i route =>
      rw [RenderedValue.node?, (leaf_shown hv).2.2 i] at hnode
      cases hnode
  | @array v h elements items hv hlength hitems ih =>
    cases route with
    | nil =>
      cases hnode
      exact ⟨by simp, by simp⟩
    | cons i route =>
      obtain ⟨t, ht, hnode⟩ := Option.bind_eq_some_iff.mp hnode
      have hlt : i < elements.length := hlength ▸ (List.getElem?_eq_some_iff.mp ht).1
      exact ih i elements[i] t (List.getElem?_eq_getElem hlt) ht hnode
  | @object v h members items hv hkeys hitems ih =>
    cases route with
    | nil =>
      cases hnode
      exact ⟨by simp, by simp⟩
    | cons i route =>
      obtain ⟨t, ht, hnode⟩ := Option.bind_eq_some_iff.mp hnode
      obtain ⟨item, hitem, rfl⟩ := Option.map_eq_some_iff.mp ht
      have hlength : items.length = members.length := by simpa using congrArg List.length hkeys
      have hlt : i < members.length := hlength ▸ (List.getElem?_eq_some_iff.mp hitem).1
      exact ih i members[i] item (List.getElem?_eq_getElem hlt) hitem hnode
  | host _ _ ih => exact ih hnode

/-! ### The tree of a value -/

/-- **Where the markers stand.**  Every node of the tree stands for a value of the
    graph, where an object of the host shows as its value as long as a level is left
    for it.  A node is a cyclic reference just if its value is one of the arrays and
    objects that were opened on the way to it; else it is cut off just if its value
    is an array, an object or an object of the host and no level is left; else it
    shows its value by the constructor, with all that is inside.  A value that nests
    within the limit — so nothing below it is below itself — is unfolded without any
    marker.  Parts of one composite that are the same value look the same. -/
theorem markers_of_tree (heap : Heap) (maxDepth : Nat) (root : Value) :
    let tree := heap.render maxDepth root
    -- every node stands for a value
    (∀ route node, tree.node? route = some node →
      ∃ path depth v, depth ≤ maxDepth ∧ heap.Leads maxDepth root route path depth v ∧
        ¬ heap.Unwraps maxDepth depth v) ∧
    -- which the node shows or replaces by a marker
    (∀ route path depth v node, heap.Leads maxDepth root route path depth v →
      ¬ heap.Unwraps maxDepth depth v → tree.node? route = some node →
        (node = .cyclic ↔ ∃ h ∈ path, v = .shared h) ∧
        (node = .depthLimit ↔ node ≠ .cyclic ∧ (heap.shape v).isNested ∧ maxDepth ≤ depth) ∧
        (node ≠ .cyclic → node ≠ .depthLimit → heap.ShowsPlainly v node)) ∧
    -- a value that nests within the limit
    (heap.NestsWithin maxDepth root → heap.Plain root tree ∧
      ∀ route node, tree.node? route = some node → node ≠ .cyclic ∧ node ≠ .depthLimit) ∧
    -- parts that are shared
    (∀ route path depth v h inside i j w, heap.Leads maxDepth root route path depth v →
      (heap.shape v).content? = some (h, inside) → inside[i]? = some w → inside[j]? = some w →
      tree.node? (route ++ [i]) = tree.node? (route ++ [j])) := by
  intro tree
  refine ⟨?_, ?_, ?_, ?_⟩
  · intro route node hnode
    obtain ⟨path, depth, v, hv, hsettled⟩ := exists_leads route hnode
    exact ⟨path, depth, v, (hv.node_eq hnode).1, hv, hsettled⟩
  · intro route path depth v node hv hsettled hnode
    obtain ⟨hdepth, rfl⟩ := hv.node_eq hnode
    rcases unfold_cases (fun h hmem => hv.content?_of_mem hmem) (no_room_or_not_host hsettled) with
      ⟨hnode, hseen⟩ | ⟨hnode, hseen, hnested, hroom⟩ | ⟨hplain, hseen, hopen⟩
    · rw [hnode]
      simp [hseen]
    · rw [hnode]
      refine ⟨iff_of_false (by simp) hseen, iff_of_true rfl ⟨by simp, hnested, by omega⟩, ?_⟩
      intro _ hno
      exact absurd rfl hno
    · obtain ⟨hcyclic, hlimit⟩ := hplain.ne_marker
      refine ⟨iff_of_false hcyclic hseen, iff_of_false hlimit ?_, fun _ _ => hplain⟩
      rintro ⟨_, hnested, hdeep⟩
      exact hopen ⟨hnested, by omega⟩
  · intro hnests
    have hplain : heap.Plain root tree := plain_unfold hnests (by simp)
    exact ⟨hplain, fun route node hnode => hplain.ne_marker hnode⟩
  · intro route path depth v h inside i j w hv hinside hi hj
    rw [RenderedValue.node?_concat, RenderedValue.node?_concat]
    cases hparent : tree.node? route with
    | none => rfl
    | some parent =>
      obtain ⟨_, rfl⟩ := hv.node_eq hparent
      rw [Option.bind_some, Option.bind_some, child?_unfold hinside, child?_unfold hinside, hi, hj]

-- An array that holds itself, and an object of the host whose value is itself.
example :
    let heap : Heap := ⟨#[.array [.shared ⟨1⟩, .shared ⟨0⟩], .host "timer" (.shared ⟨1⟩)]⟩
    heap.render 3 (.shared ⟨0⟩) = .list [.depthLimit, .cyclic] := rfl

end Heap

end ScriptDebugger
