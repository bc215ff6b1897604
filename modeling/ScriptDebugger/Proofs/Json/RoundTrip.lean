/-
  ScriptDebugger/Proofs/Json/RoundTrip.lean
  =========================================
  **Reading the compact text of a value.**

  The tokens of a value do not touch where their ends would not show, and reading them
  leaves the containers around the value as they were and ends with the value
  (`Reading.run_tokens`).  So the compact text is read as the value, whatever it holds, if
  its numbers are within double precision and it is not nested too deeply
  (`parse?_compact`).
-/
import ScriptDebugger.Json.Reader
import ScriptDebugger.Proofs.Decimal.Range
import ScriptDebugger.Proofs.Json.Scan

namespace ScriptDebugger.Json

/-! ### Which values can be read -/

mutual

/-- How many containers are open at once in the text of a value. -/
def depth : Json → Nat
  | .array items => itemsDepth items + 1
  | .object members => membersDepth members + 1
  | _ => 0

/-- The depth of the deepest item. -/
def itemsDepth : List Json → Nat
  | [] => 0
  | item :: items => max (depth item) (itemsDepth items)

/-- The depth of the deepest member. -/
def membersDepth : List (String × Json) → Nat
  | [] => 0
  | (_, item) :: members => max (depth item) (membersDepth members)

end

/-- A value can be read if its numbers can. -/
def Readable (v : Json) : Prop := ∀ t ∈ v.tokens, t.Readable

/-! ### The tokens of a value do not touch -/

/-- What may follow a value: nothing, or a token that shows its end. -/
def Delimited (rest : List Token) : Prop :=
  Separated rest ∧ ∀ t ∈ rest.head?, t.isBare = false

theorem delimited_nil : Delimited [] := ⟨.nil, by simp⟩

theorem Separated.cons {t : Token} {ts : List Token} (ht : t.isBare = false) (hts : Separated ts) :
    Separated (t :: ts) :=
  List.isChain_cons.mpr ⟨fun _ _ hbare => absurd hbare (by simp [ht]), hts⟩

theorem Delimited.cons {t : Token} {ts : List Token} (ht : t.isBare = false)
    (hts : Separated ts) : Delimited (t :: ts) :=
  ⟨hts.cons ht, by simp [ht]⟩

theorem Delimited.separated_cons {t : Token} {ts : List Token} (hts : Delimited ts) :
    Separated (t :: ts) :=
  List.isChain_cons.mpr ⟨fun t' ht' _ => hts.2 t' ht', hts.1⟩

mutual

theorem separated_tokens (v : Json) {rest : List Token} (hrest : Delimited rest) :
    Separated (v.tokens ++ rest) := by
  cases v with
  | null | bool b | number x | string s => exact hrest.separated_cons
  | array items =>
    cases items with
    | nil => exact .cons rfl (.cons rfl hrest.1)
    | cons item items =>
      rw [tokens, List.cons_append, List.append_assoc]
      exact .cons rfl (separated_tokens item (delimited_itemTokens items hrest))
  | object members =>
    cases members with
    | nil => exact .cons rfl (.cons rfl hrest.1)
    | cons m members =>
      obtain ⟨name, item⟩ := m
      rw [tokens]
      simp only [List.cons_append, List.append_assoc]
      exact .cons rfl (.cons rfl (.cons rfl
        (separated_tokens item (delimited_memberTokens members hrest))))

theorem delimited_itemTokens (items : List Json) {rest : List Token} (hrest : Delimited rest) :
    Delimited (itemTokens items ++ rest) := by
  cases items with
  | nil => exact .cons rfl hrest.1
  | cons item items =>
    rw [itemTokens, List.cons_append, List.append_assoc]
    exact .cons rfl (separated_tokens item (delimited_itemTokens items hrest))

theorem delimited_memberTokens (members : List (String × Json)) {rest : List Token}
    (hrest : Delimited rest) : Delimited (memberTokens members ++ rest) := by
  cases members with
  | nil => exact .cons rfl hrest.1
  | cons m members =>
    obtain ⟨name, item⟩ := m
    rw [memberTokens]
    simp only [List.cons_append, List.append_assoc]
    exact .cons rfl (.cons rfl (.cons rfl
      (separated_tokens item (delimited_memberTokens members hrest))))

end

theorem separated_value (v : Json) : Separated v.tokens := by
  simpa using separated_tokens v delimited_nil

/-! ### Reading the tokens of a value -/

namespace Reading

variable {limit : Nat}

theorem run_of_step {r r' : Reading} {t : Token} (h : r.step limit t = some r')
    (ts : List Token) : run limit r (t :: ts) = run limit r' ts := by
  rw [run, h]

/-- A value does not begin with the end of an array. -/
theorem exists_tokens_eq_cons (v : Json) : ∃ t ts, v.tokens = t :: ts ∧ t ≠ .closeArray := by
  cases v with
  | array items => cases items <;> exact ⟨_, _, by rw [tokens], by decide⟩
  | object members => cases members <;> exact ⟨_, _, by rw [tokens], by decide⟩
  | null => exact ⟨_, _, by rw [tokens], by decide⟩
  | _ => exact ⟨_, _, by rw [tokens], by simp⟩

/-- The first item of an array is read like any value. -/
theorem run_firstItem (v : Json) (rest : List Token) {stack : List Frame} :
    run limit ⟨stack, .firstItem⟩ (v.tokens ++ rest) =
      run limit ⟨.items [] :: stack, .value⟩ (v.tokens ++ rest) := by
  obtain ⟨t, ts, hcons, ht⟩ := exists_tokens_eq_cons v
  have hstep : step limit ⟨stack, .firstItem⟩ t = step limit ⟨.items [] :: stack, .value⟩ t := by
    simp only [step, if_neg ht]
  rw [hcons, List.cons_append, run, run, hstep]

mutual

/-- **The tokens of a value are read as the value.** -/
theorem run_tokens (v : Json) (rest : List Token) {stack : List Frame}
    (hdepth : stack.length + v.depth ≤ limit) :
    run limit ⟨stack, .value⟩ (v.tokens ++ rest) = run limit ⟨stack, .afterValue v⟩ rest := by
  cases v with
  | null | bool b | number x | string s => rfl
  | array items =>
    rw [depth] at hdepth
    have hroom : stack.length < limit := by omega
    have hopen : step limit ⟨stack, .value⟩ .openArray = some ⟨stack, .firstItem⟩ := if_pos hroom
    cases items with
    | nil =>
      rw [tokens, List.cons_append, run_of_step hopen]
      rfl
    | cons item items =>
      rw [itemsDepth] at hdepth
      rw [tokens, List.cons_append, run_of_step hopen, List.append_assoc, run_firstItem,
        run_tokens item _ (by rw [List.length_cons]; omega), run_itemTokens items _ (by omega)]
      rfl
  | object members =>
    rw [depth] at hdepth
    have hroom : stack.length < limit := by omega
    have hopen : step limit ⟨stack, .value⟩ .openObject = some ⟨stack, .firstName⟩ := if_pos hroom
    cases members with
    | nil =>
      rw [tokens, List.cons_append, run_of_step hopen]
      rfl
    | cons m members =>
      obtain ⟨name, item⟩ := m
      have hname : step limit ⟨stack, .firstName⟩ (.string name) =
        some ⟨stack, .colon [] name⟩ := rfl
      have hcolon : step limit ⟨stack, .colon [] name⟩ .colon =
        some ⟨.members [] name :: stack, .value⟩ := rfl
      rw [membersDepth] at hdepth
      rw [tokens, List.cons_append, run_of_step hopen, List.cons_append, run_of_step hname,
        List.cons_append, run_of_step hcolon, List.append_assoc,
        run_tokens item _ (by rw [List.length_cons]; omega), run_memberTokens members _ (by omega)]
      rfl

/-- The further items of an array are read in order, up to its end. -/
theorem run_itemTokens (items : List Json) (rest : List Token) {stack : List Frame}
    {done : List Json} {last : Json}
    (hdepth : stack.length + 1 + itemsDepth items ≤ limit) :
    run limit ⟨.items done :: stack, .afterValue last⟩ (itemTokens items ++ rest) =
      run limit ⟨stack, .afterValue (.array (done.reverse ++ last :: items))⟩ rest := by
  cases items with
  | nil =>
    have hclose : step limit ⟨.items done :: stack, .afterValue last⟩ .closeArray =
      some ⟨stack, .afterValue (.array (last :: done).reverse)⟩ := rfl
    rw [itemTokens, List.singleton_append, run_of_step hclose, List.reverse_cons]
  | cons item items =>
    have hcomma : step limit ⟨.items done :: stack, .afterValue last⟩ .comma =
      some ⟨.items (last :: done) :: stack, .value⟩ := rfl
    rw [itemsDepth] at hdepth
    rw [itemTokens, List.cons_append, run_of_step hcomma, List.append_assoc,
      run_tokens item _ (by rw [List.length_cons]; omega), run_itemTokens items _ (by omega),
      List.reverse_cons, List.append_assoc, List.singleton_append]

/-- The further members of an object are read in order, up to its end. -/
theorem run_memberTokens (members : List (String × Json)) (rest : List Token) {stack : List Frame}
    {done : List (String × Json)} {name : String} {last : Json}
    (hdepth : stack.length + 1 + membersDepth members ≤ limit) :
    run limit ⟨.members done name :: stack, .afterValue last⟩ (memberTokens members ++ rest) =
      run limit ⟨stack, .afterValue (.object (done.reverse ++ (name, last) :: members))⟩ rest := by
  cases members with
  | nil =>
    have hclose : step limit ⟨.members done name :: stack, .afterValue last⟩ .closeObject =
      some ⟨stack, .afterValue (.object ((name, last) :: done).reverse)⟩ := rfl
    rw [memberTokens, List.singleton_append, run_of_step hclose, List.reverse_cons]
  | cons m members =>
    obtain ⟨name', item⟩ := m
    have hcomma : step limit ⟨.members done name :: stack, .afterValue last⟩ .comma =
      some ⟨stack, .name ((name, last) :: done)⟩ := rfl
    have hname : step limit ⟨stack, .name ((name, last) :: done)⟩ (.string name') =
      some ⟨stack, .colon ((name, last) :: done) name'⟩ := rfl
    have hcolon : step limit ⟨stack, .colon ((name, last) :: done) name'⟩ .colon =
      some ⟨.members ((name, last) :: done) name' :: stack, .value⟩ := rfl
    rw [membersDepth] at hdepth
    rw [memberTokens, List.cons_append, run_of_step hcomma, List.cons_append, run_of_step hname,
      List.cons_append, run_of_step hcolon, List.append_assoc,
      run_tokens item _ (by rw [List.length_cons]; omega), run_memberTokens members _ (by omega),
      List.reverse_cons, List.append_assoc, List.singleton_append]

end

end Reading

/-! ### Reading the text of a value -/

theorem ofTokens?_tokens {limit : Nat} {v : Json} (hdepth : v.depth ≤ limit) :
    ofTokens? limit v.tokens = some v := by
  have hrun : Reading.run limit ⟨[], .value⟩ (v.tokens ++ []) = some ⟨[], .afterValue v⟩ :=
    Reading.run_tokens v [] (by rwa [List.length_nil, Nat.zero_add])
  rw [List.append_nil] at hrun
  rw [ofTokens?, hrun]
  rfl

/-- **The compact text of a value is read as the value.** -/
theorem parse?_compact {limit : Nat} {v : Json} (hreadable : v.Readable)
    (hdepth : v.depth ≤ limit) : parse? limit v.compact = some v := by
  rw [parse?, compact, String.toList_ofList, tokens?_chars (separated_value v) hreadable]
  exact ofTokens?_tokens hdepth

/-- Values with the same compact text are the same. -/
theorem eq_of_compact {limit : Nat} {v w : Json} (hv : v.Readable) (hw : w.Readable)
    (hvdepth : v.depth ≤ limit) (hwdepth : w.depth ≤ limit) (h : v.compact = w.compact) :
    v = w := by
  have hparse := parse?_compact hv hvdepth
  rw [h, parse?_compact hw hwdepth] at hparse
  exact (Option.some.inj hparse).symm

/-! ### Values that can be read -/

theorem readable_string (s : String) : (string s).Readable := by
  rw [Readable, tokens, List.forall_mem_singleton]
  rintro x ⟨⟩

theorem readable_bool (b : Bool) : (bool b).Readable := by
  rw [Readable, tokens, List.forall_mem_singleton]
  rintro x ⟨⟩

theorem readable_number {x : Number} (hx : x.inRange = true) : (number x).Readable := by
  rw [Readable, tokens, List.forall_mem_singleton]
  rintro y ⟨⟩
  exact hx

theorem readable_itemTokens {items : List Json} (hitems : ∀ item ∈ items, item.Readable) :
    ∀ t ∈ itemTokens items, t.Readable := by
  induction items with
  | nil =>
    rw [itemTokens, List.forall_mem_singleton]
    rintro x ⟨⟩
  | cons item items ih =>
    obtain ⟨hitem, hitems⟩ := List.forall_mem_cons.mp hitems
    rw [itemTokens, List.forall_mem_cons, List.forall_mem_append]
    exact ⟨by rintro x ⟨⟩, hitem, ih hitems⟩

/-- An array can be read if its items can. -/
theorem readable_array {items : List Json} (hitems : ∀ item ∈ items, item.Readable) :
    (array items).Readable := by
  cases items with
  | nil =>
    rw [Readable, tokens, List.forall_mem_cons, List.forall_mem_singleton]
    exact ⟨by rintro x ⟨⟩, by rintro x ⟨⟩⟩
  | cons item items =>
    obtain ⟨hitem, hitems⟩ := List.forall_mem_cons.mp hitems
    rw [Readable, tokens, List.forall_mem_cons, List.forall_mem_append]
    exact ⟨by rintro x ⟨⟩, hitem, readable_itemTokens hitems⟩

theorem readable_memberTokens {members : List (String × Json)}
    (hmembers : ∀ m ∈ members, m.2.Readable) : ∀ t ∈ memberTokens members, t.Readable := by
  induction members with
  | nil =>
    rw [memberTokens, List.forall_mem_singleton]
    rintro x ⟨⟩
  | cons m members ih =>
    obtain ⟨hm, hmembers⟩ := List.forall_mem_cons.mp hmembers
    rw [memberTokens, List.forall_mem_cons, List.forall_mem_cons, List.forall_mem_cons,
      List.forall_mem_append]
    exact ⟨by rintro x ⟨⟩, by rintro x ⟨⟩, by rintro x ⟨⟩, hm, ih hmembers⟩

/-- An object can be read if the values of its members can. -/
theorem readable_object {members : List (String × Json)}
    (hmembers : ∀ m ∈ members, m.2.Readable) : (object members).Readable := by
  cases members with
  | nil =>
    rw [Readable, tokens, List.forall_mem_cons, List.forall_mem_singleton]
    exact ⟨by rintro x ⟨⟩, by rintro x ⟨⟩⟩
  | cons m members =>
    obtain ⟨hm, hmembers⟩ := List.forall_mem_cons.mp hmembers
    rw [Readable, tokens, List.forall_mem_cons, List.forall_mem_cons, List.forall_mem_cons,
      List.forall_mem_append]
    exact ⟨by rintro x ⟨⟩, by rintro x ⟨⟩, by rintro x ⟨⟩, hm, readable_memberTokens hmembers⟩

theorem depth_array_le {items : List Json} {k : Nat} (hitems : ∀ item ∈ items, item.depth ≤ k) :
    (array items).depth ≤ k + 1 := by
  have hmax : itemsDepth items ≤ k := by
    induction items with
    | nil => exact Nat.zero_le k
    | cons item items ih =>
      obtain ⟨hitem, hitems⟩ := List.forall_mem_cons.mp hitems
      rw [itemsDepth]
      exact Nat.max_le.mpr ⟨hitem, ih hitems⟩
  rw [depth]
  exact Nat.succ_le_succ hmax

theorem depth_object_le {members : List (String × Json)} {k : Nat}
    (hmembers : ∀ m ∈ members, m.2.depth ≤ k) : (object members).depth ≤ k + 1 := by
  have hmax : membersDepth members ≤ k := by
    induction members with
    | nil => exact Nat.zero_le k
    | cons m members ih =>
      obtain ⟨hm, hmembers⟩ := List.forall_mem_cons.mp hmembers
      rw [membersDepth]
      exact Nat.max_le.mpr ⟨hm, ih hmembers⟩
  rw [depth]
  exact Nat.succ_le_succ hmax

/-! ### Numbers that can be read -/

/-- A number is within double precision up to the last doubles, whatever its digits are. -/
theorem Number.inRange_of_value_le {x : Number}
    (hx : (⟨x.significand, x.scale.getD 0⟩ : Decimal.Fraction).value ≤ Decimal.productBound) :
    x.inRange = true :=
  Decimal.Fraction.productInRange_of_value_le hx

/-- A machine word is within double precision. -/
theorem Number.inRange_ofNat {n : Nat} (hn : n < 2 ^ 64) : (Number.ofNat n).inRange = true := by
  have hbound : 2 ^ 64 ≤ Decimal.productBound := by decide +kernel
  refine inRange_of_value_le ?_
  rw [ofNat, Option.getD_none, Decimal.Fraction.value, zpow_zero, mul_one, Nat.cast_le]
  exact hn.le.trans hbound

theorem readable_ofNat {n : Nat} (hn : n < 2 ^ 64) : (Json.ofNat n).Readable :=
  readable_number (Number.inRange_ofNat hn)

end ScriptDebugger.Json
