/-
  ScriptDebugger/Proofs/Json/Literal.lean
  =======================================
  **Which number literals are read.**

  Each part of a literal is read exactly where the grammar has it, so a literal determines
  its number, and it is read if the number is within double precision
  (`Number.ofLiteral?_eq_some_iff`).
-/
import ScriptDebugger.Proofs.Json.Grammar

namespace ScriptDebugger.Json

/-! ### The parts of a literal -/

/-- A run of digits is read up to the first character that is none. -/
theorem readDigits_eq_some_iff {cs ds rest : List Char} :
    readDigits cs = some (ds, rest) ↔
      IsDigits ds ∧ cs = ds ++ rest ∧ ∀ c ∈ rest.head?, c.isDigit = false := by
  unfold readDigits
  constructor
  · intro h
    split at h
    · cases h
    · rename_i hne
      obtain ⟨rfl, rfl⟩ := Prod.mk.inj (Option.some.inj h)
      refine ⟨⟨hne, fun c hc => ?_⟩, List.takeWhile_append_dropWhile.symm, fun c hc => ?_⟩
      · exact List.mem_takeWhile_imp hc
      · have hnot := List.head?_dropWhile_not Char.isDigit cs
        rw [Option.mem_def.mp hc] at hnot
        simpa using hnot
  · rintro ⟨⟨hne, hdigits⟩, rfl, hrest⟩
    have htake : rest.takeWhile Char.isDigit = [] := by
      cases rest with
      | nil => rfl
      | cons c cs => rw [List.takeWhile_cons_of_neg (by simp [hrest c rfl])]
    have hdrop : rest.dropWhile Char.isDigit = rest := by
      cases rest with
      | nil => rfl
      | cons c cs => rw [List.dropWhile_cons_of_neg (by simp [hrest c rfl])]
    rw [List.takeWhile_append_of_pos hdigits, htake, List.append_nil,
      List.dropWhile_append_of_pos hdigits, hdrop]
    cases ds with
    | nil => exact absurd rfl hne
    | cons d ds => rfl

/-- A run of digits at the end is read whole. -/
theorem readDigits_eq {ds : List Char} (hds : IsDigits ds) : readDigits ds = some (ds, []) :=
  readDigits_eq_some_iff.mpr ⟨hds, (List.append_nil ds).symm, by simp⟩

theorem isWhole_iff {ds : List Char} :
    IsWhole ds ↔ IsDigits ds ∧ ∀ d tail, ds ≠ '0' :: d :: tail := by
  refine and_congr_right fun hds => ⟨?_, fun hleading hzero => ?_⟩
  · rintro hleading d tail rfl
    cases hleading rfl
  · match ds with
    | [] => cases hzero
    | [c] =>
      cases hzero
      rfl
    | c :: d :: tail =>
      cases hzero
      exact absurd rfl (hleading d tail)

theorem readWhole_eq_some_iff {cs ds rest : List Char} :
    readWhole cs = some (ds, rest) ↔
      IsWhole ds ∧ cs = ds ++ rest ∧ ∀ c ∈ rest.head?, c.isDigit = false := by
  rw [isWhole_iff, and_assoc, and_left_comm, ← readDigits_eq_some_iff]
  simp only [readWhole, Option.bind_eq_bind, Option.bind_eq_some_iff, Prod.exists]
  constructor
  · rintro ⟨ds', rest', hread, hzero⟩
    split at hzero
    · cases hzero
    · rename_i hleading
      cases hzero
      exact ⟨hleading, hread⟩
  · rintro ⟨hleading, hread⟩
    refine ⟨ds, rest, hread, ?_⟩
    split
    · exact absurd rfl (hleading _ _)
    · rfl

theorem IsDigits.head?_ne {ds : List Char} (hds : IsDigits ds) {d : Char} (hd : d.isDigit = false) :
    ds.head? ≠ some d := by
  intro hhead
  have hdigit := hds.2 d (List.mem_of_mem_head? hhead)
  rw [hd] at hdigit
  exact Bool.false_ne_true hdigit

/-- What follows the mark of an exponent begins with a sign, or with none. -/
theorem exists_sign (cs : List Char) :
    ∃ sign s ds, SignSpelledAs sign s ∧ cs = s ++ ds ∧
      (s = [] → ds.head? ≠ some '-' ∧ ds.head? ≠ some '+') := by
  by_cases hminus : cs.head? = some '-'
  · obtain ⟨ds, rfl⟩ := List.head?_eq_some_iff.mp hminus
    exact ⟨_, _, ds, .minus, rfl, by simp⟩
  by_cases hplus : cs.head? = some '+'
  · obtain ⟨ds, rfl⟩ := List.head?_eq_some_iff.mp hplus
    exact ⟨_, _, ds, .plus, rfl, by simp⟩
  exact ⟨_, _, cs, .absent, rfl, fun _ => ⟨hminus, hplus⟩⟩

theorem readExponent_cons_eq_some_iff {c : Char} {sign : Int} {s ds : List Char} {e : Option Int}
    (hc : c = 'e' ∨ c = 'E') (hsign : SignSpelledAs sign s)
    (habsent : s = [] → ds.head? ≠ some '-' ∧ ds.head? ≠ some '+') :
    readExponent (c :: (s ++ ds)) = some e ↔ IsDigits ds ∧ e = some (sign * digitsValue ds) := by
  have hread : readExponent (c :: (s ++ ds)) = (readDigits ds).bind fun p =>
      if p.2.isEmpty then some (some (sign * digitsValue p.1)) else none := by
    simp only [readExponent, if_pos hc]
    cases hsign with
    | plus | minus => rfl
    | absent =>
      rw [List.nil_append]
      split
      · exact absurd rfl (habsent rfl).1
      · exact absurd rfl (habsent rfl).2
      · rfl
  rw [hread, Option.bind_eq_some_iff]
  constructor
  · rintro ⟨⟨digits, rest⟩, hdigits, hend⟩
    obtain ⟨hrun, rfl, -⟩ := readDigits_eq_some_iff.mp hdigits
    cases rest with
    | nil =>
      rw [List.append_nil]
      exact ⟨hrun, (Option.some.inj hend).symm⟩
    | cons c rest => cases hend
  · rintro ⟨hrun, rfl⟩
    exact ⟨(ds, []), readDigits_eq hrun, rfl⟩

theorem readExponent_eq_some_iff {cs : List Char} {e : Option Int} :
    readExponent cs = some e ↔ ExponentSpelledAs e cs := by
  constructor
  · intro h
    cases cs with
    | nil =>
      cases h
      exact .absent
    | cons c rest =>
      have hc : c = 'e' ∨ c = 'E' := by
        by_contra hne
        simp only [readExponent, if_neg hne] at h
        cases h
      obtain ⟨sign, s, ds, hsign, rfl, habsent⟩ := exists_sign rest
      obtain ⟨hds, rfl⟩ := (readExponent_cons_eq_some_iff hc hsign habsent).mp h
      exact .present hc hsign hds
  · intro h
    cases h with
    | absent => rfl
    | present hc hsign hds =>
      exact (readExponent_cons_eq_some_iff hc hsign fun _ =>
        ⟨hds.head?_ne rfl, hds.head?_ne rfl⟩).mpr ⟨hds, rfl⟩

/-! ### Whole literals -/

/-- An exponent does not begin with a digit or a point. -/
theorem ExponentSpelledAs.head? {e : Option Int} {cs : List Char} (h : ExponentSpelledAs e cs) :
    ∀ c ∈ cs.head?, c.isDigit = false ∧ c ≠ '.' := by
  rintro c hc
  cases h with
  | absent => cases hc
  | present he _ _ =>
    obtain rfl := Option.some.inj hc
    obtain rfl | rfl := he <;> exact ⟨rfl, by decide⟩

theorem readUnsigned_eq_some_iff {negative : Bool} {cs : List Char} {x : Number} :
    readUnsigned negative cs = some x ↔ MagnitudeSpelledAs negative x cs := by
  simp only [readUnsigned, Option.bind_eq_bind, Option.bind_eq_some_iff, Prod.exists]
  constructor
  · rintro ⟨whole, rest, hread, h⟩
    obtain ⟨hwhole, rfl, -⟩ := readWhole_eq_some_iff.mp hread
    split at h
    · rename_i rest'
      simp only [Option.bind_eq_some_iff, Prod.exists] at h
      obtain ⟨fraction, exponent, hdigits, e, he, hx⟩ := h
      obtain ⟨hfraction, rfl, -⟩ := readDigits_eq_some_iff.mp hdigits
      obtain rfl := Option.some.inj hx
      exact .fraction hwhole hfraction (readExponent_eq_some_iff.mp he)
    · simp only [Option.bind_eq_some_iff] at h
      obtain ⟨e, he, hx⟩ := h
      obtain rfl := Option.some.inj hx
      exact .integer hwhole (readExponent_eq_some_iff.mp he)
  · intro h
    cases h with
    | integer hwhole he =>
      refine ⟨_, _, readWhole_eq_some_iff.mpr ⟨hwhole, rfl, fun c hc => (he.head? c hc).1⟩, ?_⟩
      split
      · exact absurd rfl (he.head? _ rfl).2
      · rw [readExponent_eq_some_iff.mpr he]
        rfl
    | fraction hwhole hfraction he =>
      refine ⟨_, _, readWhole_eq_some_iff.mpr ⟨hwhole, rfl, ?_⟩, ?_⟩
      · rintro c ⟨⟩
        rfl
      · have hread := readDigits_eq_some_iff.mpr
          ⟨hfraction, rfl, fun c hc => (he.head? c hc).1⟩
        simp only [hread, readExponent_eq_some_iff.mpr he, Option.bind_some]

/-- A magnitude begins with a digit. -/
theorem MagnitudeSpelledAs.exists_eq_cons {negative : Bool} {x : Number} {cs : List Char}
    (h : MagnitudeSpelledAs negative x cs) : ∃ c ds, cs = c :: ds ∧ c.isDigit = true := by
  have hbegin {whole rest : List Char} (hwhole : IsWhole whole) :
      ∃ c ds, whole ++ rest = c :: ds ∧ c.isDigit = true := by
    obtain ⟨c, ds, rfl⟩ := List.exists_cons_of_ne_nil hwhole.1.1
    exact ⟨c, ds ++ rest, rfl, hwhole.1.2 c List.mem_cons_self⟩
  cases h with
  | integer hwhole _ => exact hbegin hwhole
  | fraction hwhole _ _ => exact hbegin hwhole

namespace Number

variable {x y : Number} {cs : List Char}

theorem spelledAs_signed_iff : x.SpelledAs ('-' :: cs) ↔ readUnsigned true cs = some x := by
  rw [readUnsigned_eq_some_iff]
  constructor
  · intro h
    cases h with
    | signed h => exact h
    | unsigned h =>
      obtain ⟨c, ds, hcons, hc⟩ := h.exists_eq_cons
      cases hcons
      exact absurd hc (by decide)
  · exact .signed

theorem spelledAs_unsigned_iff (hcs : ∀ rest, cs ≠ '-' :: rest) :
    x.SpelledAs cs ↔ readUnsigned false cs = some x := by
  rw [readUnsigned_eq_some_iff]
  constructor
  · intro h
    cases h with
    | signed h => exact absurd rfl (hcs _)
    | unsigned h => exact h
  · exact .unsigned

/-- A literal determines its number. -/
theorem SpelledAs.unique (hx : x.SpelledAs cs) (hy : y.SpelledAs cs) : x = y := by
  by_cases hsigned : ∃ rest, cs = '-' :: rest
  · obtain ⟨rest, rfl⟩ := hsigned
    exact Option.some.inj ((spelledAs_signed_iff.mp hx).symm.trans (spelledAs_signed_iff.mp hy))
  · have hcs := not_exists.mp hsigned
    exact Option.some.inj
      (((spelledAs_unsigned_iff hcs).mp hx).symm.trans ((spelledAs_unsigned_iff hcs).mp hy))

/-- **A literal is read as its number if the number is within double precision.** -/
theorem ofLiteral?_eq_some_iff : ofLiteral? cs = some x ↔ x.SpelledAs cs ∧ x.inRange = true := by
  have hkeep (read : Option Number) :
      (read.bind fun y => if y.inRange then some y else none) = some x ↔
        read = some x ∧ x.inRange = true := by
    cases read with
    | none => simp
    | some y =>
      rw [Option.bind_some, Option.ite_none_right_eq_some, and_comm]
      refine and_congr_right fun h => ?_
      rw [Option.some.inj h]
  unfold ofLiteral?
  dsimp only
  split
  · rw [spelledAs_signed_iff]
    exact hkeep _
  · rename_i hcs
    rw [spelledAs_unsigned_iff hcs]
    exact hkeep _

/-- A number beyond double precision is not read. -/
theorem SpelledAs.ofLiteral?_eq (hx : x.SpelledAs cs) :
    ofLiteral? cs = if x.inRange then some x else none := by
  split
  · rename_i hrange
    exact ofLiteral?_eq_some_iff.mpr ⟨hx, hrange⟩
  · rename_i hrange
    refine Option.eq_none_iff_forall_ne_some.mpr fun y hread => hrange ?_
    obtain ⟨hy, hyrange⟩ := ofLiteral?_eq_some_iff.mp hread
    rwa [hx.unique hy]

/-- The literal of a natural number is nothing but digits. -/
theorem spelledAs_ofNat_iff {n : Nat} :
    (ofNat n).SpelledAs cs ↔ IsWhole cs ∧ digitsValue cs = n := by
  constructor
  · generalize hx : ofNat n = x
    intro h
    cases h with
    | signed h => cases h <;> cases hx
    | unsigned h =>
      cases h with
      | fraction => cases hx
      | integer hwhole he =>
        obtain ⟨-, hn, hnone⟩ := Number.mk.inj hx
        subst hnone
        cases he
        rw [List.append_nil]
        exact ⟨hwhole, hn.symm⟩
  · rintro ⟨hwhole, rfl⟩
    have hspelled : MagnitudeSpelledAs false ⟨false, digitsValue cs, none⟩ (cs ++ []) :=
      .integer hwhole .absent
    rw [List.append_nil] at hspelled
    exact .unsigned hspelled

end Number

/-! ### The characters of a literal -/

theorem isNumberChar_of_isDigit {c : Char} (hc : c.isDigit = true) : isNumberChar c = true := by
  simp [isNumberChar, hc]

theorem ExponentSpelledAs.forall_isNumberChar {e : Option Int} {cs : List Char}
    (h : ExponentSpelledAs e cs) : ∀ c ∈ cs, isNumberChar c = true := by
  cases h with
  | absent => exact List.forall_mem_nil _
  | present he hsign hds =>
    refine List.forall_mem_cons.mpr ⟨?_, List.forall_mem_append.mpr
      ⟨?_, fun c hc => isNumberChar_of_isDigit (hds.2 c hc)⟩⟩
    · obtain rfl | rfl := he <;> rfl
    · cases hsign with
      | absent => exact List.forall_mem_nil _
      | plus | minus => exact List.forall_mem_singleton.mpr rfl

theorem MagnitudeSpelledAs.forall_isNumberChar {negative : Bool} {x : Number} {cs : List Char}
    (h : MagnitudeSpelledAs negative x cs) : ∀ c ∈ cs, isNumberChar c = true := by
  have hdigits {ds : List Char} (hds : IsDigits ds) : ∀ c ∈ ds, isNumberChar c = true :=
    fun c hc => isNumberChar_of_isDigit (hds.2 c hc)
  cases h with
  | integer hwhole he => exact List.forall_mem_append.mpr ⟨hdigits hwhole.1, he.forall_isNumberChar⟩
  | fraction hwhole hfraction he =>
    exact List.forall_mem_append.mpr ⟨hdigits hwhole.1, List.forall_mem_cons.mpr
      ⟨rfl, List.forall_mem_append.mpr ⟨hdigits hfraction, he.forall_isNumberChar⟩⟩⟩

namespace Number.SpelledAs

variable {x : Number} {cs : List Char}

theorem forall_isNumberChar (h : x.SpelledAs cs) : ∀ c ∈ cs, isNumberChar c = true := by
  cases h with
  | signed h => exact List.forall_mem_cons.mpr ⟨rfl, h.forall_isNumberChar⟩
  | unsigned h => exact h.forall_isNumberChar

/-- A literal begins with a minus or a digit. -/
theorem exists_eq_cons (h : x.SpelledAs cs) :
    ∃ c ds, cs = c :: ds ∧ (decide (c = '-') || c.isDigit) = true := by
  cases h with
  | signed _ => exact ⟨_, _, rfl, rfl⟩
  | unsigned h =>
    obtain ⟨c, ds, rfl, hc⟩ := h.exists_eq_cons
    exact ⟨c, ds, rfl, by rw [hc, Bool.or_true]⟩

end Number.SpelledAs

end ScriptDebugger.Json
