/-
  ScriptDebugger/Proofs/Json/Places.lean
  ======================================
  **What a place of the reading says about the text.**

  At each place the characters read so far are a text of the tokens found and, behind it,
  what is pending: blanks, the beginning of a word or of a number, or an open string with
  the escape that was begun (`Scan.Reads`).  Each character keeps this (`Scan.Reads.step`),
  so a text that is read is a text of the tokens that are found in it
  (`spelledAs_of_tokens?`).
-/
import ScriptDebugger.Proofs.Json.Scan

namespace ScriptDebugger.Json

/-! ### Pending text -/

/-- A place inside a string, with the characters read from the right end and the text of the
    escape that was begun. -/
inductive Place.Escaping (read : List Char) : Place → List Char → Prop
  | text : Escaping read (.text read) []
  | escape : Escaping read (.escape read) ['\\']
  | unit {ds : List Char} {missing value : Nat} (hlength : ds.length + missing = 3)
      (hvalue : ds.foldlM addHexDigit 0 = some value) :
      Escaping read (.unit read none missing value) ('\\' :: 'u' :: ds)
  | pair {high : Nat} {hs : List Char} (hhs : UnitSpelledAs high hs)
      (hhigh : isHighSurrogate high = true) : Escaping read (.pair read high) ('\\' :: 'u' :: hs)
  | pairEscape {high : Nat} {hs : List Char} (hhs : UnitSpelledAs high hs)
      (hhigh : isHighSurrogate high = true) :
      Escaping read (.pairEscape read high) ('\\' :: 'u' :: (hs ++ ['\\']))
  | low {high missing value : Nat} {hs ds : List Char} (hhs : UnitSpelledAs high hs)
      (hhigh : isHighSurrogate high = true) (hlength : ds.length + missing = 3)
      (hvalue : ds.foldlM addHexDigit 0 = some value) :
      Escaping read (.unit read (some high) missing value)
        ('\\' :: 'u' :: (hs ++ '\\' :: 'u' :: ds))

/-- The text that is pending at a place. -/
inductive Place.Pending : Place → List Char → Prop
  | between {blanks : List Char} (hblanks : IsBlank blanks) : Pending .between blanks
  | word (read : List Char) : Pending (.word read) read.reverse
  | number (read : List Char) : Pending (.number read) read.reverse
  | string {p : Place} {read body pending : List Char} (hp : p.Escaping read pending)
      (hbody : CharsSpelledAs read.reverse body) : Pending p ('"' :: (body ++ pending))

/-! ### UTF-16 units -/

theorem hexValue?_lt {c : Char} {d : Nat} (h : Text.hexValue? c = some d) : d < 16 := by
  have hbetween {a b : Char} (hc : a ≤ c ∧ c ≤ b) : c.toNat - a.toNat ≤ b.toNat - a.toNat :=
    Nat.sub_le_sub_right hc.2 _
  unfold Text.hexValue? at h
  split at h
  · rename_i hdigit
    cases h
    exact Nat.lt_of_le_of_lt (Nat.sub_le_sub_right (Char.isDigit_iff_toNat.mp hdigit).2 _)
      (by decide)
  split at h
  · rename_i hc
    cases h
    exact Nat.lt_of_le_of_lt (Nat.add_le_add_right (hbetween hc) _) (by decide)
  split at h
  · rename_i hc
    cases h
    exact Nat.lt_of_le_of_lt (Nat.add_le_add_right (hbetween hc) _) (by decide)
  · cases h

theorem foldlM_addHexDigit_lt {cs : List Char} {n u : Nat} (h : cs.foldlM addHexDigit n = some u) :
    u < (n + 1) * 16 ^ cs.length := by
  induction cs generalizing n with
  | nil =>
    cases h
    simp
  | cons c cs ih =>
    obtain ⟨d, hd, hcs⟩ := foldlM_addHexDigit_cons.mp h
    have hlt := hexValue?_lt hd
    calc u < (n * 16 + d + 1) * 16 ^ cs.length := ih hcs
      _ ≤ (n + 1) * 16 * 16 ^ cs.length := Nat.mul_le_mul_right _ (by omega)
      _ = (n + 1) * 16 ^ (cs.length + 1) := by rw [Nat.mul_assoc, Nat.pow_succ']

/-- A UTF-16 unit has 16 bits. -/
theorem UnitSpelledAs.lt {u : Nat} {cs : List Char} (h : UnitSpelledAs u cs) : u < 0x10000 := by
  obtain ⟨hlength, hvalue⟩ := unitSpelledAs_iff.mp h
  have hlt := foldlM_addHexDigit_lt hvalue
  rw [hlength] at hlt
  exact hlt

theorem toNat_charOfNat {n : Nat} (hn : n.isValidChar) : (Char.ofNat n).toNat = n := by
  rw [Char.ofNat, dif_pos hn]
  rfl

theorem foldlM_addHexDigit_concat {ds : List Char} {value d : Nat} {c : Char}
    (hds : ds.foldlM addHexDigit 0 = some value) (hc : Text.hexValue? c = some d) :
    (ds ++ [c]).foldlM addHexDigit 0 = some (value * 16 + d) := by
  rw [List.foldlM_append, hds]
  simp [addHexDigit, hc]

/-- A UTF-16 unit that is complete ends a character or is the first half of a pair. -/
theorem closeUnit_none_eq_some {read : List Char} {u : Nat} {p : Place} (hu : u < 0x10000)
    (h : closeUnit read none u = some p) :
    p = .pair read u ∧ isHighSurrogate u = true ∨ ∃ c, p = .text (c :: read) ∧ c.toNat = u := by
  simp only [closeUnit] at h
  split at h
  · rename_i hhigh
    exact .inl ⟨(Option.some.inj h).symm, hhigh⟩
  split at h
  · cases h
  · rename_i hhigh hlow
    refine .inr ⟨_, (Option.some.inj h).symm, toNat_charOfNat ?_⟩
    simp only [isHighSurrogate, isLowSurrogate, Bool.and_eq_true, decide_eq_true_eq] at hhigh hlow
    unfold Nat.isValidChar
    omega

theorem closeUnit_some_eq_some {read : List Char} {high u : Nat} {p : Place}
    (hhigh : isHighSurrogate high = true) (h : closeUnit read (some high) u = some p) :
    isLowSurrogate u = true ∧
      ∃ c, p = .text (c :: read) ∧ c.toNat = 0x10000 + (high - 0xD800) * 0x400 + (u - 0xDC00) := by
  simp only [closeUnit] at h
  split at h
  · rename_i hlow
    refine ⟨hlow, _, (Option.some.inj h).symm, toNat_charOfNat ?_⟩
    simp only [isHighSurrogate, isLowSurrogate, Bool.and_eq_true, decide_eq_true_eq] at hhigh hlow
    unfold Nat.isValidChar
    omega
  · cases h

/-! ### One character of a string -/

/-- What a character does inside a string: it closes the string, ends a character of it, or
    goes on with an escape. -/
inductive Place.Escaping.Next (found : List Token) (read pending : List Char) (c : Char) :
    Scan → Prop
  | close (hc : c = '"') (hpending : pending = []) :
      Next found read pending c ⟨.string (String.ofList read.reverse) :: found, .between⟩
  | char {d : Char} (hd : CharSpelledAs d (pending ++ [c])) :
      Next found read pending c ⟨found, .text (d :: read)⟩
  | escape {p : Place} (hp : p.Escaping read (pending ++ [c])) : Next found read pending c ⟨found, p⟩

theorem Place.Escaping.step {found : List Token} {read pending : List Char} {p : Place} {c : Char}
    {s : Scan} (hp : p.Escaping read pending) (h : Scan.step ⟨found, p⟩ c = some s) :
    Next found read pending c s := by
  cases hp with
  | text =>
    simp only [Scan.step] at h
    split at h
    · rename_i hquote
      cases h
      exact .close hquote rfl
    split at h
    · rename_i hsolidus
      cases h
      subst hsolidus
      exact .escape .escape
    split at h
    · cases h
    · rename_i hquote hsolidus hcontrol
      cases h
      exact .char (.plain hquote hsolidus (Nat.le_of_not_lt hcontrol))
  | escape =>
    simp only [Scan.step] at h
    split at h
    · rename_i hu
      cases h
      subst hu
      exact .escape (.unit rfl rfl)
    · obtain ⟨d, hd, rfl⟩ := Option.map_eq_some_iff.mp h
      exact .char (.short (shortEscape_eq_some_iff.mp hd))
  | @unit ds missing value hlength hvalue =>
    simp only [Scan.step, Option.bind_eq_bind, Option.bind_eq_some_iff] at h
    obtain ⟨d, hd, h⟩ := h
    have hds := foldlM_addHexDigit_concat hvalue hd
    cases missing with
    | succ missing =>
      cases h
      exact .escape (.unit (by simp; omega) hds)
    | zero =>
      obtain ⟨p, hclose, h⟩ := Option.bind_eq_some_iff.mp h
      cases h
      have hunit : UnitSpelledAs (value * 16 + d) (ds ++ [c]) :=
        unitSpelledAs_iff.mpr ⟨by simp; omega, hds⟩
      obtain ⟨rfl, hhigh⟩ | ⟨e, rfl, he⟩ := closeUnit_none_eq_some hunit.lt hclose
      · exact .escape (.pair hunit hhigh)
      · exact .char (.unit (by rwa [he]))
  | pair hhs hhigh =>
    simp only [Scan.step] at h
    split at h
    · rename_i hsolidus
      cases h
      subst hsolidus
      exact .escape (.pairEscape hhs hhigh)
    · cases h
  | @pairEscape high hs hhs hhigh =>
    simp only [Scan.step] at h
    split at h
    · rename_i hu
      cases h
      subst hu
      refine .escape ?_
      rw [List.cons_append, List.cons_append, List.append_assoc]
      exact .low hhs hhigh rfl rfl
    · cases h
  | @low high missing value hs ds hhs hhigh hlength hvalue =>
    simp only [Scan.step, Option.bind_eq_bind, Option.bind_eq_some_iff] at h
    obtain ⟨d, hd, h⟩ := h
    have hds := foldlM_addHexDigit_concat hvalue hd
    have happend : '\\' :: 'u' :: (hs ++ '\\' :: 'u' :: ds) ++ [c] =
        '\\' :: 'u' :: (hs ++ '\\' :: 'u' :: (ds ++ [c])) := by simp
    cases missing with
    | succ missing =>
      cases h
      refine .escape ?_
      rw [happend]
      exact .low hhs hhigh (by simp; omega) hds
    | zero =>
      obtain ⟨p, hclose, h⟩ := Option.bind_eq_some_iff.mp h
      cases h
      obtain ⟨hlow, e, rfl, he⟩ := closeUnit_some_eq_some hhigh hclose
      refine .char ?_
      rw [happend]
      exact .pair hhs (unitSpelledAs_iff.mpr ⟨by simp; omega, hds⟩) hhigh hlow he

/-! ### One character of a text -/

/-- The characters read up to a place. -/
inductive Scan.Reads : Scan → List Char → Prop
  | intro {found : List Token} {place : Place} {before pending : List Char}
      (hfound : TokensSpelledAs found.reverse before) (hreadable : ∀ t ∈ found, t.Readable)
      (hplace : place.Pending pending) : Reads ⟨found, place⟩ (before ++ pending)

namespace Scan

variable {found : List Token} {before pending cs : List Char} {t : Token} {c : Char} {s : Scan}

theorem tokensSpelledAs_reverse_cons (hfound : TokensSpelledAs found.reverse before)
    (ht : t.SpelledAs pending) : TokensSpelledAs (t :: found).reverse (before ++ pending) := by
  rw [List.reverse_cons]
  exact hfound.append (.singleton ht)

/-- Right behind the tokens found nothing is pending. -/
theorem reads_between (hfound : TokensSpelledAs found.reverse before)
    (hreadable : ∀ t ∈ found, t.Readable) : Reads ⟨found, .between⟩ before := by
  have hreads := Reads.intro hfound hreadable (.between (List.forall_mem_nil _))
  rwa [List.append_nil] at hreads

theorem reads_start (hfound : TokensSpelledAs found.reverse before)
    (hreadable : ∀ t ∈ found, t.Readable) (h : start found c = some s) :
    s.Reads (before ++ [c]) := by
  have hmark {t : Token} (ht : t.SpelledAs [c]) (hr : t.Readable) :
      Reads ⟨t :: found, .between⟩ (before ++ [c]) :=
    reads_between (tokensSpelledAs_reverse_cons hfound ht)
      (List.forall_mem_cons.mpr ⟨hr, hreadable⟩)
  unfold start at h
  obtain ⟨hblank, h⟩ | ⟨-, h⟩ := ite_eq_iff.mp h
  · cases h
    exact .intro hfound hreadable (.between (List.forall_mem_singleton.mpr hblank))
  -- the six marks
  iterate 6
    obtain ⟨hc, h⟩ | ⟨-, h⟩ := ite_eq_iff.mp h
    · cases h
      subst hc
      exact hmark rfl (by rintro x ⟨⟩)
  obtain ⟨hc, h⟩ | ⟨-, h⟩ := ite_eq_iff.mp h
  · cases h
    subst hc
    have hempty : CharsSpelledAs ([] : List Char).reverse [] := .nil
    exact .intro hfound hreadable (.string .text hempty)
  obtain ⟨-, h⟩ | ⟨-, h⟩ := ite_eq_iff.mp h
  · cases h
    exact .intro hfound hreadable (.number [c])
  obtain ⟨-, h⟩ | ⟨-, h⟩ := ite_eq_iff.mp h
  · cases h
    exact .intro hfound hreadable (.word [c])
  · cases h

theorem spelledAs_of_wordToken {w : List Char} (h : wordToken w = some t) :
    t.SpelledAs w ∧ t.Readable := by
  unfold wordToken at h
  iterate 3
    split at h
    · rename_i hw
      cases h
      exact ⟨hw, by rintro x ⟨⟩⟩
  cases h

theorem spelledAs_of_ofLiteral? {w : List Char} {x : Number} (h : Number.ofLiteral? w = some x) :
    (Token.number x).SpelledAs w ∧ (Token.number x).Readable := by
  obtain ⟨hx, hrange⟩ := Number.ofLiteral?_eq_some_iff.mp h
  exact ⟨hx, Token.readable_number_iff.mpr hrange⟩

/-- **Each character that is read is accounted for.** -/
theorem Reads.step (hs : s.Reads cs) {s' : Scan} (h : s.step c = some s') :
    s'.Reads (cs ++ [c]) := by
  obtain @⟨found, place, before, pending, hfound, hreadable, hplace⟩ := hs
  -- a word or a number is found when another character follows
  have hnext {t : Token} {w : List Char} (ht : t.SpelledAs w ∧ t.Readable)
      (hstart : start (t :: found) c = some s') : s'.Reads (before ++ w ++ [c]) :=
    reads_start (tokensSpelledAs_reverse_cons hfound ht.1)
      (List.forall_mem_cons.mpr ⟨ht.2, hreadable⟩) hstart
  cases hplace with
  | between hblanks =>
    have hblank : TokensSpelledAs found.reverse (before ++ pending) := by
      have happend := hfound.append (.nil hblanks)
      rwa [List.append_nil] at happend
    exact reads_start hblank hreadable h
  | word read =>
    simp only [Scan.step] at h
    split at h
    · cases h
      rw [List.append_assoc, ← List.reverse_cons]
      exact .intro hfound hreadable (.word (c :: read))
    · obtain ⟨t, ht, hstart⟩ := Option.bind_eq_some_iff.mp h
      exact hnext (spelledAs_of_wordToken ht) hstart
  | number read =>
    simp only [Scan.step] at h
    split at h
    · cases h
      rw [List.append_assoc, ← List.reverse_cons]
      exact .intro hfound hreadable (.number (c :: read))
    · obtain ⟨x, hx, hstart⟩ := Option.bind_eq_some_iff.mp h
      exact hnext (spelledAs_of_ofLiteral? hx) hstart
  | @string _ read body pending hp hbody =>
    rw [List.append_assoc, List.cons_append, List.append_assoc]
    cases hp.step h with
    | close hc hpending =>
      subst hc hpending
      rw [List.nil_append]
      refine reads_between (tokensSpelledAs_reverse_cons hfound ⟨body, ?_, rfl⟩)
        (List.forall_mem_cons.mpr ⟨by rintro x ⟨⟩, hreadable⟩)
      rwa [String.toList_ofList]
    | @char d hd =>
      have hreads := Reads.intro hfound hreadable
        (.string .text (by simpa using hbody.concat hd : CharsSpelledAs (d :: read).reverse _))
      rwa [List.append_nil] at hreads
    | escape hp => exact .intro hfound hreadable (.string hp hbody)

theorem Reads.run (hs : s.Reads cs) {ds : List Char} {s' : Scan} (h : s.run ds = some s') :
    s'.Reads (cs ++ ds) := by
  induction ds generalizing s cs with
  | nil =>
    cases h
    rwa [List.append_nil]
  | cons c ds ih =>
    rw [Scan.run] at h
    split at h
    · rename_i s'' hstep
      rw [← List.singleton_append, ← List.append_assoc]
      exact ih (hs.step hstep) h
    · cases h

theorem Reads.finish (hs : s.Reads cs) {ts : List Token} (h : s.finish = some ts) :
    TokensSpelledAs ts cs ∧ ∀ t ∈ ts, t.Readable := by
  obtain @⟨found, place, before, pending, hfound, hreadable, hplace⟩ := hs
  have hlast {t : Token} {w : List Char} (ht : t.SpelledAs w ∧ t.Readable) :
      TokensSpelledAs (t :: found).reverse (before ++ w) ∧ ∀ u ∈ (t :: found).reverse, u.Readable :=
    ⟨tokensSpelledAs_reverse_cons hfound ht.1, fun u hu =>
      List.forall_mem_cons.mpr ⟨ht.2, hreadable⟩ u (List.mem_reverse.mp hu)⟩
  cases hplace with
  | between hblanks =>
    cases h
    have happend := hfound.append (.nil hblanks)
    rw [List.append_nil] at happend
    exact ⟨happend, fun u hu => hreadable u (List.mem_reverse.mp hu)⟩
  | word read =>
    obtain ⟨t, ht, rfl⟩ := Option.map_eq_some_iff.mp h
    exact hlast (spelledAs_of_wordToken ht)
  | number read =>
    obtain ⟨x, hx, rfl⟩ := Option.map_eq_some_iff.mp h
    exact hlast (spelledAs_of_ofLiteral? hx)
  | string hp _ => cases hp <;> cases h

end Scan

/-- **A text that is read is a text of the tokens that are found in it.** -/
theorem spelledAs_of_tokens? {ts : List Token} {cs : List Char} (h : tokens? cs = some ts) :
    TokensSpelledAs ts cs ∧ ∀ t ∈ ts, t.Readable := by
  have hnothing : Scan.Reads ⟨[], .between⟩ [] :=
    Scan.reads_between (.nil (List.forall_mem_nil _)) (List.forall_mem_nil _)
  rw [tokens?_eq_bind, Option.bind_eq_some_iff] at h
  obtain ⟨s, hrun, hfinish⟩ := h
  exact (hnothing.run hrun).finish hfinish

end ScriptDebugger.Json
