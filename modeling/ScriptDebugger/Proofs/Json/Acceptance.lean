/-
  ScriptDebugger/Proofs/Json/Acceptance.lean
  ==========================================
  **Which texts are read as a value.**

  Each token that is read goes into what the reading holds (`Reading.tokens_step`), and what
  it holds is nested no deeper than the limit allows (`Reading.Fits.step`).  So tokens that
  are read as a value are its tokens, and a text is read as a value exactly if it is one of
  its texts, its numbers are within double precision and it is not nested too deeply
  (`parse?_eq_some_iff`).  The texts of a value that cannot be read are refused
  (`SpelledAs.parse?_eq_some_iff`).
-/
import ScriptDebugger.Proofs.Json.Places
import ScriptDebugger.Proofs.Json.RoundTrip

namespace ScriptDebugger.Json

/-! ### Values that end with one more item -/

/-- The tokens of an item that a comma follows. -/
def itemThenComma (item : Json) : List Token := item.tokens ++ [.comma]

/-- The tokens of a member that a comma follows. -/
def memberThenComma (m : String × Json) : List Token :=
  .string m.1 :: .colon :: (m.2.tokens ++ [.comma])

theorem tokens_append_itemTokens (item last : Json) (items : List Json) :
    item.tokens ++ itemTokens (items ++ [last]) =
      (item :: items).flatMap itemThenComma ++ (last.tokens ++ [.closeArray]) := by
  induction items generalizing item with
  | nil => simp [itemTokens, itemThenComma]
  | cons next items ih => simp [itemTokens, itemThenComma, ih next]

theorem tokens_array_concat (items : List Json) (last : Json) :
    (array (items ++ [last])).tokens =
      .openArray :: (items.flatMap itemThenComma ++ (last.tokens ++ [.closeArray])) := by
  cases items with
  | nil => simp [tokens, itemTokens]
  | cons item items => rw [List.cons_append, tokens, tokens_append_itemTokens]

theorem tokens_append_memberTokens (item : Json) (name lastName : String) (last : Json)
    (members : List (String × Json)) :
    .string name :: .colon :: (item.tokens ++ memberTokens (members ++ [(lastName, last)])) =
      ((name, item) :: members).flatMap memberThenComma ++
        .string lastName :: .colon :: (last.tokens ++ [.closeObject]) := by
  induction members generalizing name item with
  | nil => simp [memberTokens, memberThenComma]
  | cons m members ih =>
    obtain ⟨name', item'⟩ := m
    simp [memberTokens, memberThenComma, ih item' name']

theorem tokens_object_concat (members : List (String × Json)) (name : String) (last : Json) :
    (object (members ++ [(name, last)])).tokens =
      .openObject :: (members.flatMap memberThenComma ++
        .string name :: .colon :: (last.tokens ++ [.closeObject])) := by
  cases members with
  | nil => simp [tokens, memberTokens]
  | cons m members =>
    obtain ⟨name', item⟩ := m
    rw [List.cons_append, tokens, tokens_append_memberTokens]

/-! ### The tokens that were read -/

/-- The tokens of an open container, up to the place of reading. -/
def Frame.tokens : Frame → List Token
  | .items done => .openArray :: done.reverse.flatMap itemThenComma
  | .members done name =>
    .openObject :: (done.reverse.flatMap memberThenComma ++ [.string name, .colon])

/-- The tokens behind the open containers on the stack. -/
def Expectation.tokens : Expectation → List Token
  | .value => []
  | .firstItem => [.openArray]
  | .firstName => [.openObject]
  | .name done => .openObject :: done.reverse.flatMap memberThenComma
  | .colon done next => .openObject :: (done.reverse.flatMap memberThenComma ++ [.string next])
  | .afterValue v => v.tokens

/-- The tokens of what a reading holds. -/
def Reading.tokens (r : Reading) : List Token := r.stack.reverse.flatMap Frame.tokens ++ r.next.tokens

theorem Reading.tokens_push (frame : Frame) (stack : List Frame) (next : Expectation) :
    Reading.tokens ⟨frame :: stack, next⟩ =
      stack.reverse.flatMap Frame.tokens ++ (frame.tokens ++ next.tokens) := by
  simp [Reading.tokens]

/-! ### One token -/

namespace Reading

variable {limit : Nat} {stack : List Frame} {t : Token} {r r' : Reading}

theorem tokens_beginValue (h : beginValue limit stack t = some r) :
    r.tokens = stack.reverse.flatMap Frame.tokens ++ [t] := by
  cases t with
  | openArray | openObject =>
    simp only [beginValue] at h
    split at h <;> cases h
    rfl
  | closeArray | closeObject | comma | colon => cases h
  | null | bool b | number x | string s =>
    cases h
    rfl

theorem tokens_continueAfter {v : Json} (h : continueAfter v stack t = some r) :
    r.tokens = stack.reverse.flatMap Frame.tokens ++ (v.tokens ++ [t]) := by
  unfold continueAfter at h
  split at h
  · cases h
    simp [tokens_push, Frame.tokens, Expectation.tokens, itemThenComma]
  · cases h
    simp [Reading.tokens, Frame.tokens, Expectation.tokens, tokens_array_concat]
  · cases h
    simp [Reading.tokens, Frame.tokens, Expectation.tokens, memberThenComma]
  · cases h
    simp [Reading.tokens, Frame.tokens, Expectation.tokens, tokens_object_concat]
  · cases h

/-- Each token that is read is held. -/
theorem tokens_step (h : r.step limit t = some r') : r'.tokens = r.tokens ++ [t] := by
  obtain ⟨stack, next⟩ := r
  cases next with
  | value => simpa [Reading.tokens, Expectation.tokens] using tokens_beginValue h
  | firstItem =>
    simp only [step] at h
    split at h
    · cases h
      simp [Reading.tokens, Expectation.tokens, Json.tokens, *]
    · rw [tokens_beginValue h]
      simp [Reading.tokens, Expectation.tokens, Frame.tokens]
  | firstName =>
    simp only [step] at h
    split at h <;> cases h <;> simp [Reading.tokens, Expectation.tokens, Json.tokens]
  | name done =>
    simp only [step] at h
    split at h <;> cases h
    simp [Reading.tokens, Expectation.tokens]
  | colon done name =>
    simp only [step] at h
    split at h <;> cases h
    simp [Reading.tokens, Expectation.tokens, Frame.tokens]
  | afterValue v => simpa [Reading.tokens, Expectation.tokens] using tokens_continueAfter h

end Reading

/-! ### How deep the values are nested -/

/-- What an open container holds is nested at most `room` deep. -/
def Frame.Fits (room : Nat) : Frame → Prop
  | .items done => ∀ item ∈ done, item.depth ≤ room
  | .members done _ => ∀ m ∈ done, m.2.depth ≤ room

/-- Each open container has room for what it holds. -/
def StackFits (limit : Nat) : List Frame → Prop
  | [] => True
  | frame :: stack =>
    stack.length < limit ∧ frame.Fits (limit - (stack.length + 1)) ∧ StackFits limit stack

/-- What is read next stands in as many containers as there are frames on the stack, and a
    container that was just opened in them. -/
def Expectation.Fits (limit height : Nat) : Expectation → Prop
  | .value => True
  | .firstItem | .firstName => height < limit
  | .name done | .colon done _ => height < limit ∧ ∀ m ∈ done, m.2.depth ≤ limit - (height + 1)
  | .afterValue v => v.depth ≤ limit - height

/-- No value that a reading holds is nested deeper than the limit allows at its place. -/
def Reading.Fits (limit : Nat) (r : Reading) : Prop :=
  StackFits limit r.stack ∧ r.next.Fits limit r.stack.length

namespace Reading

variable {limit : Nat} {stack : List Frame} {t : Token} {r r' : Reading}

theorem fits_beginValue (hstack : StackFits limit stack) (h : beginValue limit stack t = some r) :
    r.Fits limit := by
  cases t with
  | openArray | openObject =>
    simp only [beginValue] at h
    split at h <;> cases h
    exact ⟨hstack, ‹_›⟩
  | closeArray | closeObject | comma | colon => cases h
  | null | bool b | number x | string s =>
    cases h
    exact ⟨hstack, Nat.zero_le _⟩

theorem fits_continueAfter {v : Json} (hstack : StackFits limit stack)
    (hv : v.depth ≤ limit - stack.length) (h : continueAfter v stack t = some r) :
    r.Fits limit := by
  have hclose {height k : Nat} (hheight : height < limit) (hk : k ≤ limit - (height + 1) + 1) :
      k ≤ limit - height := by omega
  unfold continueAfter at h
  split at h
  · rename_i done stack
    obtain ⟨hroom, hdone, hstack⟩ := hstack
    cases h
    exact ⟨⟨hroom, List.forall_mem_cons.mpr ⟨hv, hdone⟩, hstack⟩, trivial⟩
  · rename_i done stack
    obtain ⟨hroom, hdone, hstack⟩ := hstack
    have hitems : ∀ item ∈ v :: done, item.depth ≤ _ := List.forall_mem_cons.mpr ⟨hv, hdone⟩
    cases h
    refine ⟨hstack, hclose hroom (depth_array_le fun item hitem => ?_)⟩
    exact hitems item (List.mem_reverse.mp hitem)
  · rename_i done name stack
    obtain ⟨hroom, hdone, hstack⟩ := hstack
    cases h
    exact ⟨hstack, hroom, List.forall_mem_cons.mpr ⟨hv, hdone⟩⟩
  · rename_i done name stack
    obtain ⟨hroom, hdone, hstack⟩ := hstack
    have hmembers : ∀ m ∈ (name, v) :: done, m.2.depth ≤ _ :=
      List.forall_mem_cons.mpr ⟨hv, hdone⟩
    cases h
    refine ⟨hstack, hclose hroom (depth_object_le fun m hm => ?_)⟩
    exact hmembers m (List.mem_reverse.mp hm)
  · cases h

/-- Each token that is read keeps the nesting within the limit. -/
theorem Fits.step (hr : r.Fits limit) (h : r.step limit t = some r') : r'.Fits limit := by
  obtain ⟨stack, next⟩ := r
  obtain ⟨hstack, hnext⟩ := hr
  have hempty : (0 : Nat) + 1 ≤ limit - stack.length ↔ stack.length < limit := by omega
  cases next with
  | value => exact fits_beginValue hstack h
  | firstItem =>
    simp only [Reading.step] at h
    split at h
    · cases h
      exact ⟨hstack, hempty.mpr hnext⟩
    · have hpushed : StackFits limit (.items [] :: stack) :=
        ⟨hnext, List.forall_mem_nil _, hstack⟩
      exact fits_beginValue hpushed h
  | firstName =>
    simp only [Reading.step] at h
    split at h <;> cases h
    · exact ⟨hstack, hempty.mpr hnext⟩
    · exact ⟨hstack, hnext, List.forall_mem_nil _⟩
  | name done =>
    simp only [Reading.step] at h
    split at h <;> cases h
    exact ⟨hstack, hnext⟩
  | colon done name =>
    simp only [Reading.step] at h
    split at h <;> cases h
    exact ⟨⟨hnext.1, hnext.2, hstack⟩, trivial⟩
  | afterValue v => exact fits_continueAfter hstack hnext h

/-! ### All tokens -/

theorem holds_run {ts : List Token} (hr : r.Fits limit) (h : run limit r ts = some r') :
    r'.tokens = r.tokens ++ ts ∧ r'.Fits limit := by
  induction ts generalizing r with
  | nil =>
    cases h
    exact ⟨(List.append_nil _).symm, hr⟩
  | cons t ts ih =>
    rw [run] at h
    split at h
    · rename_i r₁ hstep
      obtain ⟨htokens, hfits⟩ := ih (hr.step hstep) h
      rw [htokens, tokens_step hstep, List.append_assoc, List.singleton_append]
      exact ⟨rfl, hfits⟩
    · cases h

end Reading

/-- **Tokens are read as a value exactly if they are its tokens and it is not nested too
    deeply.** -/
theorem ofTokens?_eq_some_iff {limit : Nat} {ts : List Token} {v : Json} :
    ofTokens? limit ts = some v ↔ ts = v.tokens ∧ v.depth ≤ limit := by
  constructor
  · intro h
    unfold ofTokens? at h
    split at h
    · rename_i r hrun
      have hempty : Reading.Fits limit ⟨[], .value⟩ := ⟨trivial, trivial⟩
      obtain ⟨htokens, hfits⟩ := Reading.holds_run hempty hrun
      unfold Reading.finish at h
      split at h
      · rename_i hstack hnext
        cases h
        obtain ⟨stack, next⟩ := r
        subst hstack hnext
        exact ⟨htokens.symm, hfits.2⟩
      · cases h
    · cases h
  · rintro ⟨rfl, hdepth⟩
    exact ofTokens?_tokens hdepth

/-- Values with the same tokens are the same. -/
theorem tokens_injective {v w : Json} (h : v.tokens = w.tokens) : v = w := by
  have hv := ofTokens?_tokens (le_max_left v.depth w.depth)
  rw [h, ofTokens?_tokens (le_max_right v.depth w.depth)] at hv
  exact (Option.some.inj hv).symm

/-! ### All texts -/

/-- **A text of a value is read as this value or not at all.** -/
theorem SpelledAs.parse?_eq_some_iff {limit : Nat} {v w : Json} {s : String} (h : v.SpelledAs s) :
    parse? limit s = some w ↔ w = v ∧ v.Readable ∧ v.depth ≤ limit := by
  rw [parse?, tokens?_of_spelledAs h (separated_value v)]
  by_cases hreadable : ∀ t ∈ v.tokens, t.Readable
  · rw [if_pos hreadable]
    constructor
    · intro hread
      obtain ⟨htokens, hdepth⟩ := ofTokens?_eq_some_iff.mp hread
      obtain rfl := tokens_injective htokens
      exact ⟨rfl, hreadable, hdepth⟩
    · rintro ⟨rfl, -, hdepth⟩
      exact ofTokens?_tokens hdepth
  · rw [if_neg hreadable]
    constructor
    · intro hread
      cases hread
    · intro hvalue
      exact absurd hvalue.2.1 hreadable

/-- **Exactly the texts of readable values are read.** -/
theorem parse?_eq_some_iff {limit : Nat} {v : Json} {s : String} :
    parse? limit s = some v ↔ v.SpelledAs s ∧ v.Readable ∧ v.depth ≤ limit := by
  constructor
  · intro h
    have hspelled : v.SpelledAs s := by
      unfold parse? at h
      split at h
      · rename_i ts hts
        obtain ⟨rfl, -⟩ := ofTokens?_eq_some_iff.mp h
        exact (spelledAs_of_tokens? hts).1
      · cases h
    exact ⟨hspelled, (hspelled.parse?_eq_some_iff.mp h).2⟩
  · rintro ⟨hspelled, hv⟩
    exact hspelled.parse?_eq_some_iff.mpr ⟨rfl, hv⟩

end ScriptDebugger.Json
