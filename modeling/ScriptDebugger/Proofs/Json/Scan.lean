/-
  ScriptDebugger/Proofs/Json/Scan.lean
  ====================================
  **Reading the texts of tokens.**

  Every text that the grammar has for tokens is read as these tokens, whatever the escapes
  and the blanks in it, unless it holds a number beyond double precision.  A number or a
  word is only known to have ended when another character follows, so a place behind such
  a token is described by what the reading does next (`Scan.Follows`).  Where no two of
  these touch (`Separated`), the reading of a whole text finds all its tokens
  (`tokens?_of_spelledAs`); the printed text of tokens is a case of this (`tokens?_chars`).
-/
import ScriptDebugger.Proofs.Json.Literal

namespace ScriptDebugger.Json

namespace Scan

variable {found : List Token}

theorem run_append (s : Scan) (cs ds : List Char) :
    s.run (cs ++ ds) = (s.run cs).bind fun t => t.run ds := by
  induction cs generalizing s with
  | nil => rfl
  | cons c cs ih =>
    rw [List.cons_append, run, run]
    cases s.step c with
    | none => rfl
    | some t => exact ih t

theorem run_of_step {s t : Scan} {c : Char} (h : s.step c = some t) (cs : List Char) :
    s.run (c :: cs) = t.run cs := by
  rw [run, h]

end Scan

/-! ### Strings -/

/-- Adds a hexadecimal digit to a number. -/
def addHexDigit (n : Nat) (c : Char) : Option Nat := (Text.hexValue? c).map fun d => n * 16 + d

theorem unitSpelledAs_iff {u : Nat} {cs : List Char} :
    UnitSpelledAs u cs ↔ cs.length = 4 ∧ cs.foldlM addHexDigit 0 = some u := by
  refine and_congr_right fun hlength => ?_
  cases cs with
  | nil => cases hlength
  | cons c cs => rfl

theorem foldlM_addHexDigit_cons {c : Char} {cs : List Char} {n u : Nat} :
    (c :: cs).foldlM addHexDigit n = some u ↔
      ∃ d, Text.hexValue? c = some d ∧ cs.foldlM addHexDigit (n * 16 + d) = some u := by
  rw [List.foldlM_cons, addHexDigit]
  cases Text.hexValue? c <;> simp

theorem isSurrogate_toNat (c : Char) :
    isHighSurrogate c.toNat = false ∧ isLowSurrogate c.toNat = false := by
  have hvalid : c.toNat < 0xD800 ∨ 0xDFFF < c.toNat ∧ c.toNat < 0x110000 := c.valid
  simp only [isHighSurrogate, isLowSurrogate, Bool.and_eq_false_iff, decide_eq_false_iff_not]
  omega

theorem shortEscape_eq_some_iff {letter c : Char} :
    shortEscape letter = some c ↔ (letter, c) ∈ shortEscapes := by
  have htable : ∀ entry ∈ shortEscapes, shortEscape entry.1 = some entry.2 := by decide
  refine ⟨fun h => ?_, htable (letter, c)⟩
  unfold shortEscape at h
  split at h
  · rename_i hself
    cases h
    obtain rfl | rfl | rfl := hself <;> decide
  -- the other letters
  iterate 5
    split at h
    · rename_i hletter
      cases h
      subst hletter
      decide
  cases h

namespace Scan

variable {found : List Token} {read : List Char} {high : Option Nat}

theorem run_hexDigits {cs : List Char} {missing value u : Nat} (hlength : cs.length = missing + 1)
    (hcs : cs.foldlM addHexDigit value = some u) :
    Scan.run ⟨found, .unit read high missing value⟩ cs =
      (closeUnit read high u).map fun place => ⟨found, place⟩ := by
  induction cs generalizing missing value with
  | nil => cases hlength
  | cons c cs ih =>
    obtain ⟨d, hd, hcs⟩ := foldlM_addHexDigit_cons.mp hcs
    cases missing with
    | zero =>
      obtain rfl := List.length_eq_zero_iff.mp (Nat.succ.inj hlength)
      cases hcs
      simp only [run, step, hd, Option.bind_eq_bind, Option.bind_some]
      cases closeUnit read high (value * 16 + d) <;> rfl
    | succ missing =>
      have hstep : Scan.step ⟨found, .unit read high (missing + 1) value⟩ c =
          some ⟨found, .unit read high missing (value * 16 + d)⟩ := by
        simp only [step, hd, Option.bind_eq_bind, Option.bind_some]
      rw [run_of_step hstep]
      exact ih (Nat.succ.inj hlength) hcs

theorem run_unit {u : Nat} {us : List Char} (hu : UnitSpelledAs u us) :
    Scan.run ⟨found, .unit read high 3 0⟩ us =
      (closeUnit read high u).map fun place => ⟨found, place⟩ := by
  obtain ⟨hlength, hvalue⟩ := unitSpelledAs_iff.mp hu
  exact run_hexDigits hlength hvalue

/-- An escaped unit that is no half of a pair is the character. -/
theorem closeUnit_toNat (read : List Char) (c : Char) :
    closeUnit read none c.toNat = some (.text (c :: read)) := by
  obtain ⟨hhigh, hlow⟩ := isSurrogate_toNat c
  rw [closeUnit, hhigh, hlow, if_neg Bool.false_ne_true, if_neg Bool.false_ne_true,
    Char.ofNat_toNat]

/-- Every text of a character is read as this character. -/
theorem run_char {c : Char} {cs : List Char} (hc : CharSpelledAs c cs) :
    Scan.run ⟨found, .text read⟩ cs = some ⟨found, .text (c :: read)⟩ := by
  have hsolidus : Scan.step ⟨found, .text read⟩ '\\' = some ⟨found, .escape read⟩ := rfl
  have hu : Scan.step ⟨found, .escape read⟩ 'u' = some ⟨found, .unit read none 3 0⟩ := rfl
  cases hc with
  | plain hquote hsolidus hcontrol =>
    simp [run, step, hquote, hsolidus, Nat.not_lt.mpr hcontrol]
  | @short letter h =>
    have hletter : letter ≠ 'u' := by
      rintro rfl
      exact absurd h (by simp [shortEscapes])
    rw [run_of_step hsolidus]
    simp [run, step, hletter, shortEscape_eq_some_iff.mpr h]
  | unit h =>
    rw [run_of_step hsolidus, run_of_step hu, run_unit h, closeUnit_toNat]
    rfl
  | @pair high low hs ls hhs hls hhigh hlow hc =>
    have hpair : closeUnit read none high = some (.pair read high) := by
      rw [closeUnit, if_pos hhigh]
    have hsolidus' : Scan.step ⟨found, .pair read high⟩ '\\' =
        some ⟨found, .pairEscape read high⟩ := rfl
    have hu' : Scan.step ⟨found, .pairEscape read high⟩ 'u' =
        some ⟨found, .unit read (some high) 3 0⟩ := rfl
    have hclose : closeUnit read (some high) low = some (.text (c :: read)) := by
      rw [closeUnit, if_pos hlow, ← hc, Char.ofNat_toNat]
    rw [run_of_step hsolidus, run_of_step hu, run_append, run_unit hhs, hpair, Option.map_some,
      Option.bind_some, run_of_step hsolidus', run_of_step hu', run_unit hls, hclose]
    rfl

theorem run_charsSpelled {s cs : List Char} (hs : CharsSpelledAs s cs) :
    Scan.run ⟨found, .text read⟩ cs = some ⟨found, .text (s.reverse ++ read)⟩ := by
  induction hs generalizing read with
  | nil => rfl
  | cons hc _ ih =>
    rw [run_append, run_char hc, Option.bind_some, ih, List.reverse_cons, List.append_assoc,
      List.singleton_append]

theorem run_string {s : String} {body : List Char} (hs : CharsSpelledAs s.toList body) :
    Scan.run ⟨found, .between⟩ ('"' :: (body ++ ['"'])) =
      some ⟨.string s :: found, .between⟩ := by
  have hopen : Scan.step ⟨found, .between⟩ '"' = some ⟨found, .text []⟩ := rfl
  have hclose (read : List Char) : Scan.run ⟨found, .text read⟩ ['"'] =
      some ⟨.string (String.ofList read.reverse) :: found, .between⟩ := rfl
  rw [run_of_step hopen, run_append, run_charsSpelled hs, Option.bind_some, hclose,
    List.append_nil, List.reverse_reverse, String.ofList_toList]

end Scan

/-! ### One token -/

/-- Whether the end of a token shows only in the character that follows. -/
def Token.isBare : Token → Bool
  | .null | .bool _ | .number _ => true
  | _ => false

/-- A token can be read unless it is a number beyond double precision. -/
def Token.Readable (t : Token) : Prop := ∀ x, t = .number x → x.inRange = true

theorem Token.readable_number_iff {x : Number} : (Token.number x).Readable ↔ x.inRange = true :=
  ⟨fun h => h x rfl, by rintro h y ⟨⟩; exact h⟩

instance : DecidablePred Token.Readable
  | .number _ => decidable_of_iff _ Token.readable_number_iff.symm
  | .openArray | .closeArray | .openObject | .closeObject | .comma | .colon | .null | .bool _
  | .string _ => .isTrue nofun

/-- A character that no number and no word can hold. -/
def Delimits (c : Char) : Prop := isNumberChar c = false ∧ c.isAlpha = false

theorem delimits_of_isBlankChar {c : Char} (hc : isBlankChar c = true) : Delimits c := by
  simp only [isBlankChar, Bool.or_eq_true, beq_iff_eq] at hc
  obtain ((rfl | rfl) | rfl) | rfl := hc <;> exact ⟨rfl, rfl⟩

/-- A token that is not bare begins with a delimiter. -/
theorem Token.SpelledAs.exists_eq_cons {t : Token} {cs : List Char} (ht : t.SpelledAs cs) :
    ∃ c ds, cs = c :: ds ∧ (t.isBare = false → Delimits c) := by
  cases t with
  | number x =>
    obtain ⟨c, ds, rfl, -⟩ := Number.SpelledAs.exists_eq_cons ht
    exact ⟨c, ds, rfl, fun hbare => by cases hbare⟩
  | string s =>
    obtain ⟨body, -, rfl⟩ := ht
    exact ⟨_, _, rfl, fun _ => ⟨rfl, rfl⟩⟩
  | bool b =>
    subst ht
    cases b <;> exact ⟨_, _, rfl, fun hbare => by cases hbare⟩
  | null =>
    subst ht
    exact ⟨_, _, rfl, fun hbare => by cases hbare⟩
  | _ =>
    subst ht
    exact ⟨_, _, rfl, fun _ => ⟨rfl, rfl⟩⟩

namespace Scan

variable {found : List Token} {t : Token}

/-- The reading after a token that has ended; a number beyond double precision is refused. -/
def closed (found : List Token) (t : Token) : Option Scan :=
  if t.Readable then some ⟨t :: found, .between⟩ else none

/-- The place is right behind a token, whose end may still have to show. -/
structure Follows (s : Scan) (found : List Token) (t : Token) : Prop where
  finish_eq : s.finish = (closed found t).bind finish
  step_eq : ∀ c, (t.isBare = true → Delimits c) → s.step c = (closed found t).bind (·.step c)

theorem follows_between (ht : t.Readable) : Follows ⟨t :: found, .between⟩ found t where
  finish_eq := by rw [closed, if_pos ht, Option.bind_some]
  step_eq _ _ := by rw [closed, if_pos ht, Option.bind_some]

theorem follows_word {read : List Char} (hword : wordToken read.reverse = some t)
    (hbare : t.isBare = true) (ht : t.Readable) : Follows ⟨found, .word read⟩ found t where
  finish_eq := by
    simp only [closed, if_pos ht, finish, hword]
    rfl
  step_eq c hc := by
    rw [closed, if_pos ht, step]
    simp only [(hc hbare).2, Bool.false_eq_true, if_false, hword]
    rfl

theorem follows_number {x : Number} {cs : List Char} (hx : x.SpelledAs cs) :
    Follows ⟨found, .number cs.reverse⟩ found (.number x) where
  finish_eq := by
    simp only [closed, finish, List.reverse_reverse, hx.ofLiteral?_eq, Token.readable_number_iff]
    split <;> rfl
  step_eq c hc := by
    simp only [closed, step, (hc rfl).1, Bool.false_eq_true, if_false, List.reverse_reverse,
      hx.ofLiteral?_eq, Token.readable_number_iff]
    split <;> rfl

theorem start_number {c : Char} (hc : (decide (c = '-') || c.isDigit) = true) (found : List Token) :
    start found c = some ⟨found, .number [c]⟩ := by
  have hne (d : Char) (hd : (decide (d = '-') || d.isDigit) = false) : c ≠ d := by
    rintro rfl
    rw [hd] at hc
    exact Bool.false_ne_true hc
  have hblank : isBlankChar c = false := by
    simp [isBlankChar, hne ' ' rfl, hne '\t' rfl, hne '\n' rfl, hne '\r' rfl]
  unfold start
  rw [hblank, if_neg Bool.false_ne_true, if_neg (hne _ rfl), if_neg (hne _ rfl), if_neg (hne _ rfl),
    if_neg (hne _ rfl), if_neg (hne _ rfl), if_neg (hne _ rfl), if_neg (hne _ rfl), if_pos hc]

theorem run_numberChars (found : List Token) (read : List Char) {cs : List Char}
    (hcs : ∀ c ∈ cs, isNumberChar c = true) :
    Scan.run ⟨found, .number read⟩ cs = some ⟨found, .number (cs.reverse ++ read)⟩ := by
  induction cs generalizing read with
  | nil => rfl
  | cons c cs ih =>
    have hstep : Scan.step ⟨found, .number read⟩ c = some ⟨found, .number (c :: read)⟩ := by
      rw [step]
      exact if_pos (hcs c List.mem_cons_self)
    rw [run_of_step hstep, ih _ fun d hd => hcs d (List.mem_cons_of_mem _ hd), List.reverse_cons,
      List.append_assoc, List.singleton_append]

/-- **After a text of a token the reading stands behind this token.** -/
theorem exists_run_follows {cs : List Char} (ht : t.SpelledAs cs) (found : List Token) :
    ∃ s, Scan.run ⟨found, .between⟩ cs = some s ∧ s.Follows found t := by
  cases t with
  | string s =>
    obtain ⟨body, hbody, rfl⟩ := ht
    exact ⟨_, run_string hbody, follows_between nofun⟩
  | number x =>
    refine ⟨_, ?_, follows_number ht⟩
    obtain ⟨c, ds, rfl, hc⟩ := Number.SpelledAs.exists_eq_cons ht
    have hstart : Scan.step ⟨found, .between⟩ c = some ⟨found, .number [c]⟩ := start_number hc found
    have hds : ∀ d ∈ ds, isNumberChar d = true := fun d hd =>
      Number.SpelledAs.forall_isNumberChar ht d (List.mem_cons_of_mem c hd)
    rw [run_of_step hstart, run_numberChars found _ hds, List.reverse_cons]
  | null =>
    subst ht
    exact ⟨_, rfl, follows_word (by decide) rfl nofun⟩
  | bool b =>
    subst ht
    cases b <;> exact ⟨_, rfl, follows_word (by decide) rfl nofun⟩
  | _ =>
    subst ht
    exact ⟨_, rfl, follows_between nofun⟩

/-- Behind a token the reading goes on as if the token had ended, when what comes shows its
    end. -/
theorem Follows.run_finish {s : Scan} (h : s.Follows found t) {cs : List Char}
    (hcs : t.isBare = true → ∀ c ∈ cs.head?, Delimits c) :
    (s.run cs).bind finish = (closed found t).bind fun s => (s.run cs).bind finish := by
  cases cs with
  | nil => exact h.finish_eq
  | cons c cs =>
    rw [run, h.step_eq c fun hbare => hcs hbare c rfl]
    cases closed found t <;> rfl

theorem run_blanks {blanks : List Char} (hblanks : IsBlank blanks) (found : List Token) :
    Scan.run ⟨found, .between⟩ blanks = some ⟨found, .between⟩ := by
  induction blanks with
  | nil => rfl
  | cons c cs ih =>
    obtain ⟨hc, hcs⟩ := List.forall_mem_cons.mp hblanks
    have hstep : Scan.step ⟨found, .between⟩ c = some ⟨found, .between⟩ := if_pos hc
    rw [run_of_step hstep, ih hcs]

end Scan

/-! ### All tokens of a text -/

/-- No two tokens touch of which the end of the one would not show before the other. -/
def Separated (ts : List Token) : Prop :=
  ts.IsChain fun t t' => t.isBare = true → t'.isBare = false

theorem TokensSpelledAs.head?_delimits {ts : List Token} {cs : List Char}
    (h : TokensSpelledAs ts cs) (hts : ∀ t ∈ ts.head?, t.isBare = false) :
    ∀ c ∈ cs.head?, Delimits c := by
  intro c hc
  cases h with
  | nil hblanks => exact delimits_of_isBlankChar (hblanks c (List.mem_of_mem_head? hc))
  | @cons t ts blanks cs ds hblanks ht _ =>
    cases blanks with
    | cons b blanks =>
      obtain rfl := Option.some.inj hc
      exact delimits_of_isBlankChar (hblanks b List.mem_cons_self)
    | nil =>
      obtain ⟨d, rest, rfl, hd⟩ := ht.exists_eq_cons
      obtain rfl := Option.some.inj hc
      exact hd (hts t rfl)

theorem Scan.run_finish_of_spelledAs {ts : List Token} {cs : List Char}
    (h : TokensSpelledAs ts cs) (hseparated : Separated ts) (found : List Token) :
    (Scan.run ⟨found, .between⟩ cs).bind finish =
      if ∀ t ∈ ts, t.Readable then some (found.reverse ++ ts) else none := by
  induction h generalizing found with
  | nil hblanks =>
    rw [run_blanks hblanks, if_pos (List.forall_mem_nil _), List.append_nil]
    rfl
  | @cons t ts blanks cs ds hblanks ht hts ih =>
    obtain ⟨hhead, hseparated⟩ := List.isChain_cons.mp hseparated
    obtain ⟨s, hrun, hfollows⟩ := exists_run_follows ht found
    have hds : t.isBare = true → ∀ c ∈ ds.head?, Delimits c := fun hbare =>
      hts.head?_delimits fun t' ht' => hhead t' ht' hbare
    rw [run_append, run_blanks hblanks, Option.bind_some, run_append, hrun, Option.bind_some,
      hfollows.run_finish hds]
    by_cases hreadable : t.Readable
    · rw [closed, if_pos hreadable, Option.bind_some, ih hseparated, List.reverse_cons,
        List.append_assoc, List.singleton_append]
      simp only [List.forall_mem_cons, hreadable, true_and]
    · rw [closed, if_neg hreadable, Option.bind_none, if_neg]
      exact fun hall => hreadable (hall t List.mem_cons_self)

theorem tokens?_eq_bind (cs : List Char) :
    tokens? cs = (Scan.run ⟨[], .between⟩ cs).bind Scan.finish := by
  rw [tokens?]
  cases Scan.run ⟨[], .between⟩ cs <;> rfl

/-- **A text of tokens that do not touch is read as these tokens, if none of them is a number
    beyond double precision.** -/
theorem tokens?_of_spelledAs {ts : List Token} {cs : List Char} (h : TokensSpelledAs ts cs)
    (hseparated : Separated ts) :
    tokens? cs = if ∀ t ∈ ts, t.Readable then some ts else none := by
  rw [tokens?_eq_bind]
  exact Scan.run_finish_of_spelledAs h hseparated []

/-- The printed text of tokens that do not touch is read as these tokens. -/
theorem tokens?_chars {ts : List Token} (hseparated : Separated ts)
    (hreadable : ∀ t ∈ ts, t.Readable) : tokens? (ts.flatMap Token.chars) = some ts := by
  rw [tokens?_of_spelledAs (tokensSpelledAs_flatMap ts) hseparated, if_pos hreadable]

end ScriptDebugger.Json
