/-
  ScriptDebugger/Text/Excerpt.lean
  ================================
  **Texts cut to a number of characters.**

  A text within the limit is kept; a longer one is cut after `limit` Unicode
  scalar values and the cut is marked by three dots.  The limit counts characters
  and the cut is a place among bytes: `cut?` walks from one to the other, and
  `excerpt_eq_ofList` says that the bytes before the cut are whole characters.
-/

namespace ScriptDebugger.Text

/-- What marks a cut. -/
def ellipsis : List Char := ['.', '.', '.']

/-- The first `limit` characters of a text, marked where something is missing. -/
def excerptChars (limit : Nat) (cs : List Char) : List Char :=
  if cs.length ≤ limit then cs else cs.take limit ++ ellipsis

/-- The place behind the first `limit` characters of a text that has more of them. -/
def cut? (limit : Nat) (s : String) : Option s.Pos :=
  let place := s.startPos.nextn limit
  if place = s.endPos then none else some place

/-- A text cut to `limit` characters. -/
def excerpt (limit : Nat) (s : String) : String :=
  match cut? limit s with
  | some cut => (s.sliceTo cut).copy ++ String.ofList ellipsis
  | none => s

variable {limit : Nat} {s : String}

/-- A text is cut exactly if it has more characters than the limit. -/
theorem cut?_eq_none_iff : cut? limit s = none ↔ s.length ≤ limit := by
  rw [cut?, ite_eq_left_iff]
  simp only [reduceCtorEq, imp_false, Decidable.not_not]
  rw [(String.splits_nextn_startPos s limit).eq_endPos_iff, String.ofList_eq_empty_iff,
    List.drop_eq_nil_iff, String.length_toList]

/-- The cut lies between the characters that the limit counts and the other ones. -/
theorem splits_of_cut? {cut : s.Pos} (hcut : cut? limit s = some cut) :
    cut.Splits (String.ofList (s.toList.take limit)) (String.ofList (s.toList.drop limit)) := by
  have hplace : cut = s.startPos.nextn limit := by
    rw [cut?] at hcut
    split at hcut
    · cases hcut
    · exact (Option.some.inj hcut).symm
  rw [hplace]
  exact String.splits_nextn_startPos s limit

/-- The text before the cut is made of the characters that the limit counts. -/
theorem excerpt_of_cut? {cut : s.Pos} (hcut : cut? limit s = some cut) :
    excerpt limit s = String.ofList (s.toList.take limit) ++ String.ofList ellipsis := by
  rw [excerpt, hcut, ← (splits_of_cut? hcut).copy_sliceTo_eq]

theorem excerpt_of_length_le (hs : s.length ≤ limit) : excerpt limit s = s := by
  rw [excerpt, cut?_eq_none_iff.mpr hs]

/-- Cutting among bytes is cutting among characters. -/
theorem excerpt_eq_ofList (limit : Nat) (s : String) :
    excerpt limit s = String.ofList (excerptChars limit s.toList) := by
  rw [excerptChars, String.length_toList]
  cases hcut : cut? limit s with
  | none =>
    have hs : s.length ≤ limit := cut?_eq_none_iff.mp hcut
    rw [if_pos hs, excerpt_of_length_le hs, String.ofList_toList]
  | some cut =>
    have hs : ¬ s.length ≤ limit := by simp [← cut?_eq_none_iff, hcut]
    rw [if_neg hs, excerpt_of_cut? hcut, String.ofList_append]

end ScriptDebugger.Text
