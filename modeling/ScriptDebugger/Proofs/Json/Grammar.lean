/-
  ScriptDebugger/Proofs/Json/Grammar.lean
  =======================================
  **The texts of JSON values.**

  A value has many texts: blanks may stand around its tokens, each character of a string
  may be escaped in several ways, and an exponent may be written with a large mark, a plus
  or leading zeros.  The grammar says which texts these are, from the leaves up and without
  a reader.  The text that is printed for a value is one of them (`spelledAs_compact`).
-/
import ScriptDebugger.Json.Printer
import ScriptDebugger.Proofs.Decimal.Plain

namespace ScriptDebugger.Json

/-! ### Number literals -/

/-- A nonempty run of decimal digits. -/
def IsDigits (ds : List Char) : Prop := ds ≠ [] ∧ ∀ c ∈ ds, c.isDigit = true

/-- Digits before a point: no zero stands in front of others. -/
def IsWhole (ds : List Char) : Prop := IsDigits ds ∧ (ds.head? = some '0' → ds = ['0'])

/-- The texts of the sign of an exponent. -/
inductive SignSpelledAs : Int → List Char → Prop
  | absent : SignSpelledAs 1 []
  | plus : SignSpelledAs 1 ['+']
  | minus : SignSpelledAs (-1) ['-']

/-- The texts of an exponent, which may be absent. -/
inductive ExponentSpelledAs : Option Int → List Char → Prop
  | absent : ExponentSpelledAs none []
  | present {e : Char} {sign : Int} {s ds : List Char} (he : e = 'e' ∨ e = 'E')
      (hsign : SignSpelledAs sign s) (hds : IsDigits ds) :
      ExponentSpelledAs (some (sign * digitsValue ds)) (e :: (s ++ ds))

/-- The texts of a number without its sign; each digit of a fraction lowers the power of
    ten by one. -/
inductive MagnitudeSpelledAs (negative : Bool) : Number → List Char → Prop
  | integer {whole exponent : List Char} {e : Option Int} (hwhole : IsWhole whole)
      (he : ExponentSpelledAs e exponent) :
      MagnitudeSpelledAs negative ⟨negative, digitsValue whole, e⟩ (whole ++ exponent)
  | fraction {whole fraction exponent : List Char} {e : Option Int} (hwhole : IsWhole whole)
      (hfraction : IsDigits fraction) (he : ExponentSpelledAs e exponent) :
      MagnitudeSpelledAs negative
        ⟨negative, digitsValue (whole ++ fraction), some (e.getD 0 - fraction.length)⟩
        (whole ++ '.' :: (fraction ++ exponent))

/-- The texts of a number. -/
inductive Number.SpelledAs : Number → List Char → Prop
  | unsigned {x : Number} {cs : List Char} (h : MagnitudeSpelledAs false x cs) :
      Number.SpelledAs x cs
  | signed {x : Number} {cs : List Char} (h : MagnitudeSpelledAs true x cs) :
      Number.SpelledAs x ('-' :: cs)

/-! ### Strings -/

/-- Four hexadecimal digits of either case write a UTF-16 unit. -/
def UnitSpelledAs (u : Nat) (cs : List Char) : Prop :=
  cs.length = 4 ∧ Text.hexNumber? cs = some u

/-- The characters with a short escape, each after the letter that stands for it. -/
def shortEscapes : List (Char × Char) :=
  [('"', '"'), ('\\', '\\'), ('/', '/'), ('b', '\x08'), ('t', '\t'), ('n', '\n'), ('f', '\x0c'),
    ('r', '\r')]

/-- The texts of a character in a string. -/
inductive CharSpelledAs (c : Char) : List Char → Prop
  | plain (hquote : c ≠ '"') (hsolidus : c ≠ '\\') (hcontrol : 0x20 ≤ c.toNat) :
      CharSpelledAs c [c]
  | short {letter : Char} (h : (letter, c) ∈ shortEscapes) : CharSpelledAs c ['\\', letter]
  | unit {cs : List Char} (h : UnitSpelledAs c.toNat cs) : CharSpelledAs c ('\\' :: 'u' :: cs)
  | pair {high low : Nat} {hs ls : List Char} (hhs : UnitSpelledAs high hs)
      (hls : UnitSpelledAs low ls) (hhigh : isHighSurrogate high = true)
      (hlow : isLowSurrogate low = true)
      (hc : c.toNat = 0x10000 + (high - 0xD800) * 0x400 + (low - 0xDC00)) :
      CharSpelledAs c ('\\' :: 'u' :: (hs ++ '\\' :: 'u' :: ls))

/-- The texts of characters that follow each other in a string. -/
inductive CharsSpelledAs : List Char → List Char → Prop
  | nil : CharsSpelledAs [] []
  | cons {c : Char} {s cs ds : List Char} (hc : CharSpelledAs c cs) (hs : CharsSpelledAs s ds) :
      CharsSpelledAs (c :: s) (cs ++ ds)

theorem CharsSpelledAs.concat {s cs ds : List Char} {c : Char} (hs : CharsSpelledAs s cs)
    (hc : CharSpelledAs c ds) : CharsSpelledAs (s ++ [c]) (cs ++ ds) := by
  induction hs with
  | nil =>
    rw [List.nil_append, List.nil_append, ← List.append_nil ds]
    exact .cons hc .nil
  | cons hd _ ih =>
    rw [List.cons_append, List.append_assoc]
    exact .cons hd ih

/-! ### Tokens -/

/-- The texts of a token. -/
def Token.SpelledAs : Token → List Char → Prop
  | .number x, cs => x.SpelledAs cs
  | .string s, cs => ∃ body, CharsSpelledAs s.toList body ∧ cs = '"' :: (body ++ ['"'])
  | t, cs => cs = t.chars

/-- Nothing but white space. -/
def IsBlank (cs : List Char) : Prop := ∀ c ∈ cs, isBlankChar c = true

/-- The texts of tokens that follow each other, with blanks before, between and behind
    them. -/
inductive TokensSpelledAs : List Token → List Char → Prop
  | nil {blanks : List Char} (hblanks : IsBlank blanks) : TokensSpelledAs [] blanks
  | cons {t : Token} {ts : List Token} {blanks cs ds : List Char} (hblanks : IsBlank blanks)
      (ht : t.SpelledAs cs) (hts : TokensSpelledAs ts ds) :
      TokensSpelledAs (t :: ts) (blanks ++ (cs ++ ds))

namespace TokensSpelledAs

variable {ts us : List Token} {cs ds : List Char} {t : Token}

theorem blanks_append {blanks : List Char} (hblanks : IsBlank blanks) (h : TokensSpelledAs ts cs) :
    TokensSpelledAs ts (blanks ++ cs) := by
  have hboth {more : List Char} (hmore : IsBlank more) : IsBlank (blanks ++ more) :=
    List.forall_mem_append.mpr ⟨hblanks, hmore⟩
  cases h with
  | nil hmore => exact .nil (hboth hmore)
  | cons hmore ht hts =>
    rw [← List.append_assoc]
    exact .cons (hboth hmore) ht hts

theorem append (hts : TokensSpelledAs ts cs) (hus : TokensSpelledAs us ds) :
    TokensSpelledAs (ts ++ us) (cs ++ ds) := by
  induction hts with
  | nil hblanks => exact hus.blanks_append hblanks
  | cons hblanks ht _ ih =>
    rw [List.cons_append, List.append_assoc, List.append_assoc]
    exact .cons hblanks ht ih

theorem singleton (ht : t.SpelledAs cs) : TokensSpelledAs [t] cs := by
  have hblanks : IsBlank [] := List.forall_mem_nil _
  rw [← List.nil_append cs, ← List.append_nil cs]
  exact .cons hblanks ht (.nil hblanks)

end TokensSpelledAs

/-! ### Values -/

/-- The texts of a value. -/
def SpelledAs (v : Json) (s : String) : Prop := TokensSpelledAs v.tokens s.toList

/-! ### The printed text -/

theorem digitsValue_digits (n : Nat) : digitsValue (Decimal.digits n) = n :=
  Decimal.ofDigitChars_digits n

theorem isDigits_digits (n : Nat) : IsDigits (Decimal.digits n) :=
  ⟨Decimal.digits_ne_nil n, fun _ => Decimal.isDigit_of_mem_digits⟩

theorem isWhole_digits (n : Nat) : IsWhole (Decimal.digits n) := by
  refine ⟨isDigits_digits n, fun hzero => ?_⟩
  by_cases hn : n = 0
  · rw [hn]
    rfl
  · exact absurd hzero (Decimal.head?_digits hn)

theorem exponentSpelledAs_signed (e : Int) : ExponentSpelledAs (some e) ('e' :: signed e) := by
  have hspelled {sign : Int} {s : List Char} (hsign : SignSpelledAs sign s) :
      ExponentSpelledAs (some (sign * e.natAbs)) ('e' :: (s ++ Decimal.digits e.natAbs)) := by
    have hpresent := ExponentSpelledAs.present (.inl rfl) hsign (isDigits_digits e.natAbs)
    rwa [digitsValue_digits] at hpresent
  unfold signed
  by_cases he : e < 0
  · have hminus := hspelled .minus
    rw [show -1 * (e.natAbs : Int) = e by omega] at hminus
    rwa [if_pos he]
  · have habsent := hspelled .absent
    rw [show 1 * (e.natAbs : Int) = e by omega] at habsent
    rwa [if_neg he]

theorem magnitudeSpelledAs_digits (negative : Bool) (n : Nat) {e : Option Int}
    {exponent : List Char} (he : ExponentSpelledAs e exponent) :
    MagnitudeSpelledAs negative ⟨negative, n, e⟩ (Decimal.digits n ++ exponent) := by
  have hspelled : MagnitudeSpelledAs negative ⟨negative, digitsValue (Decimal.digits n), e⟩ _ :=
    .integer (isWhole_digits n) he
  rwa [digitsValue_digits] at hspelled

theorem Number.spelledAs_literal (x : Number) : x.SpelledAs x.literal := by
  obtain ⟨negative, n, scale⟩ := x
  have hsign {exponent : List Char} (he : ExponentSpelledAs scale exponent) :
      Number.SpelledAs ⟨negative, n, scale⟩
        ((if negative then ['-'] else []) ++ Decimal.digits n ++ exponent) := by
    have hmagnitude := magnitudeSpelledAs_digits negative n he
    rw [List.append_assoc]
    cases negative with
    | true => exact .signed hmagnitude
    | false => exact .unsigned hmagnitude
  cases scale with
  | none => exact hsign .absent
  | some e => exact hsign (exponentSpelledAs_signed e)

theorem hexValue?_digitChar : ∀ d < 16, Text.hexValue? (Nat.digitChar d) = some d := by decide

/-- A control character is escaped by its number. -/
theorem unitSpelledAs_hexPair {n : Nat} (hn : n < 0x20) :
    UnitSpelledAs n ('0' :: '0' :: hexPair n) := by
  have hhigh := hexValue?_digitChar (n / 16) (by omega)
  have hlow := hexValue?_digitChar (n % 16) (by omega)
  have hzero : Text.hexValue? '0' = some 0 := rfl
  refine ⟨rfl, ?_⟩
  simp [Text.hexNumber?, hexPair, hzero, hhigh, hlow]
  omega

theorem charSpelledAs_escapeChar (c : Char) : CharSpelledAs c (escapeChar c) := by
  unfold escapeChar
  -- the short escapes
  iterate 7
    split
    · rename_i h
      subst h
      exact .short (by decide)
  split
  · rename_i hcontrol
    exact .unit (unitSpelledAs_hexPair hcontrol)
  · rename_i hquote hsolidus _ _ _ _ _ hcontrol
    exact .plain hquote hsolidus (Nat.le_of_not_lt hcontrol)

theorem charsSpelledAs_flatMap (s : List Char) : CharsSpelledAs s (s.flatMap escapeChar) := by
  induction s with
  | nil => exact .nil
  | cons c s ih => exact .cons (charSpelledAs_escapeChar c) ih

theorem Token.spelledAs_chars (t : Token) : t.SpelledAs t.chars := by
  cases t with
  | number x => exact x.spelledAs_literal
  | string s => exact ⟨_, charsSpelledAs_flatMap s.toList, rfl⟩
  | _ => rfl

theorem tokensSpelledAs_flatMap (ts : List Token) :
    TokensSpelledAs ts (ts.flatMap Token.chars) := by
  induction ts with
  | nil => exact .nil (List.forall_mem_nil _)
  | cons t ts ih => exact (TokensSpelledAs.singleton t.spelledAs_chars).append ih

/-- **The compact text of a value is one of its texts.** -/
theorem spelledAs_compact (v : Json) : v.SpelledAs v.compact := by
  rw [SpelledAs, compact, String.toList_ofList]
  exact tokensSpelledAs_flatMap v.tokens

end ScriptDebugger.Json
