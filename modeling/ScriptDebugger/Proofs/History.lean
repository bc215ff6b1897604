/-
  ScriptDebugger/Proofs/History.lean
  ==================================
  **Statements about the past of a run.**

  A run leaves a list of entries behind, the oldest one first.  What the theorems
  on runs say of it is put together from two operators:

    * `Throughout P` — every entry is in the relation `P` with the entries before it;
    * `Since H B` — an entry was in the relation `H` with the entries before it, and
      no entry after that one is a `B`.

  A relation that a run keeps is proved for the entries of one step, with the
  history so far as it is: `throughout_append` and `Since.append` are the two
  lemmas that do so.
-/

namespace ScriptDebugger

variable {α β : Type}

/-- Every entry is in the relation `P` with the entries before it. -/
def Throughout (P : List α → α → Prop) (history : List α) : Prop :=
  ∀ before x after, history = before ++ x :: after → P before x

/-- An entry was in the relation `H` with the entries before it, and no entry
    after that one is a `B`. -/
def Since (H : List α → α → Prop) (B : α → Prop) (history : List α) : Prop :=
  ∃ before x after, history = before ++ x :: after ∧ H before x ∧ ∀ y ∈ after, ¬ B y

/-! ### Every entry -/

@[simp] theorem throughout_nil (P : List α → α → Prop) : Throughout P [] := by
  intro before x after h
  exact absurd h (by simp)

@[simp] theorem throughout_cons (P : List α → α → Prop) (x : α) (rest : List α) :
    Throughout P (x :: rest) ↔
      P [] x ∧ Throughout (fun before y => P (x :: before) y) rest := by
  constructor
  · intro h
    exact ⟨h [] x rest rfl, fun before y after e => h (x :: before) y after (by rw [e]; rfl)⟩
  · rintro ⟨hx, hrest⟩ before y after e
    cases before with
    | nil =>
      obtain ⟨rfl, _⟩ := List.cons.inj e
      exact hx
    | cons z before =>
      obtain ⟨rfl, erest⟩ := List.cons.inj e
      exact hrest before y after erest

theorem throughout_append (P : List α → α → Prop) (history rest : List α) :
    Throughout P (history ++ rest) ↔
      Throughout P history ∧ Throughout (fun before y => P (history ++ before) y) rest := by
  induction history generalizing P with
  | nil => simp
  | cons x history ih => simp [ih, and_assoc]

theorem throughout_concat (P : List α → α → Prop) (history : List α) (x : α) :
    Throughout P (history ++ [x]) ↔ Throughout P history ∧ P history x := by
  simp [throughout_append]

theorem throughout_of_forall {P : List α → α → Prop} {history : List α}
    (h : ∀ x ∈ history, ∀ before, P before x) : Throughout P history := by
  intro before x after e
  exact h x (by rw [e]; simp) before

theorem Throughout.imp {P Q : List α → α → Prop} {history : List α}
    (h : Throughout P history) (himp : ∀ before x, P before x → Q before x) :
    Throughout Q history :=
  fun before x after e => himp before x (h before x after e)

/-! ### Something that happened -/

theorem Since.append {H : List α → α → Prop} {B : α → Prop} {history : List α}
    (h : Since H B history) (rest : List α) (hrest : ∀ y ∈ rest, ¬ B y) :
    Since H B (history ++ rest) := by
  obtain ⟨before, x, after, rfl, hx, hafter⟩ := h
  refine ⟨before, x, after ++ rest, by simp, hx, ?_⟩
  intro y hy
  rcases List.mem_append.mp hy with hy | hy
  · exact hafter y hy
  · exact hrest y hy

theorem Since.append_of_false {H : List α → α → Prop} {b : α → Bool} {history : List α}
    (h : Since H (fun y => b y = true) history) {rest : List α} (hrest : ∀ y ∈ rest, b y = false) :
    Since H (fun y => b y = true) (history ++ rest) := by
  apply h.append rest
  intro y hy
  rw [hrest y hy]
  exact Bool.false_ne_true

theorem since_append_cons {H : List α → α → Prop} {B : α → Prop} {history : List α} {x : α}
    (hx : H history x) (rest : List α) (hrest : ∀ y ∈ rest, ¬ B y) :
    Since H B (history ++ x :: rest) :=
  ⟨history, x, rest, rfl, hx, hrest⟩

@[simp] theorem since_nil (H : List α → α → Prop) (B : α → Prop) : ¬ Since H B [] := by
  rintro ⟨before, x, after, e, _, _⟩
  exact absurd e (by simp)

/-- The last entry is the one in question, or it lets an earlier one stand. -/
theorem since_concat (H : List α → α → Prop) (B : α → Prop) (history : List α) (x : α) :
    Since H B (history ++ [x]) ↔ H history x ∨ Since H B history ∧ ¬ B x := by
  constructor
  · rintro ⟨before, y, after, e, hy, hafter⟩
    rcases List.eq_nil_or_concat after with rfl | ⟨after, z, rfl⟩
    · obtain ⟨rfl, hxy⟩ := List.append_inj' e rfl
      rw [List.singleton_inj.mp hxy]
      exact .inl hy
    · rw [List.concat_eq_append, ← List.cons_append, ← List.append_assoc] at e
      obtain ⟨rfl, hxz⟩ := List.append_inj' e rfl
      rw [List.singleton_inj.mp hxz]
      refine .inr ⟨⟨before, y, after, rfl, hy, ?_⟩, ?_⟩
      · intro w hw
        exact hafter w (by simp [hw])
      · exact hafter z (by simp)
  · rintro (hx | ⟨h, hx⟩)
    · exact since_append_cons hx [] (by simp)
    · exact h.append [x] (by simpa using hx)

section Marked

variable {H : List α → α → Prop} {B : α → Prop} (hmark : ∀ before x, H before x → B x)

include hmark

/-- What does not end in the rest is as it was before. -/
theorem since_append_iff (history rest : List α) (hrest : ∀ y ∈ rest, ¬ B y) :
    Since H B (history ++ rest) ↔ Since H B history := by
  induction rest generalizing history with
  | nil => rw [List.append_nil]
  | cons y rest ih =>
    have hy : ¬ B y := hrest y List.mem_cons_self
    rw [List.append_cons, ih _ fun z hz => hrest z (List.mem_cons_of_mem y hz), since_concat]
    constructor
    · rintro (hH | ⟨h, _⟩)
      · exact absurd (hmark history y hH) hy
      · exact h
    · intro h
      exact .inr ⟨h, hy⟩

/-- The last entry that counts decides. -/
theorem since_append_cons_iff (history : List α) {x : α} (hx : B x) (rest : List α)
    (hrest : ∀ y ∈ rest, ¬ B y) : Since H B (history ++ x :: rest) ↔ H history x := by
  rw [List.append_cons, since_append_iff hmark _ rest hrest, since_concat]
  constructor
  · rintro (hH | ⟨_, hno⟩)
    · exact hH
    · exact absurd hx hno
  · intro hH
    exact .inl hH

end Marked

/-! ### What the entries show -/

theorem filterMap_cons_toList (f : α → Option β) (x : α) (history : List α) :
    (x :: history).filterMap f = (f x).toList ++ history.filterMap f := by
  cases h : f x with
  | none => exact List.filterMap_cons_none h
  | some y => exact List.filterMap_cons_some h

/-- Entries that show the same are the same, if nothing is shown twice. -/
theorem eq_of_nodup_filterMap {f : α → Option β} {history : List α}
    (hnodup : (history.filterMap f).Nodup) {x y : α} (hx : x ∈ history) (hy : y ∈ history) {b : β}
    (hfx : f x = some b) (hfy : f y = some b) : x = y := by
  induction history with
  | nil => cases hx
  | cons z history ih =>
    rw [filterMap_cons_toList, List.nodup_append] at hnodup
    obtain ⟨_, hrest, hapart⟩ := hnodup
    have hlater {w : α} (hw : w ∈ history) (hfw : f w = some b) : f z ≠ some b := by
      intro hfz
      exact hapart b (by simp [hfz]) b (List.mem_filterMap.mpr ⟨w, hw, hfw⟩) rfl
    rcases List.mem_cons.mp hx with hxz | hxrest
    · rcases List.mem_cons.mp hy with hyz | hyrest
      · rw [hxz, hyz]
      · exact absurd (hxz ▸ hfx) (hlater hyrest hfy)
    · rcases List.mem_cons.mp hy with hyz | hyrest
      · exact absurd (hyz ▸ hfy) (hlater hxrest hfx)
      · exact ih hrest hxrest hyrest

end ScriptDebugger
