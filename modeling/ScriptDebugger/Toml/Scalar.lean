/-
  ScriptDebugger/Toml/Scalar.lean
  ===============================
  **Truth values, numbers and dates, from the characters they are written in.**
-/
import ScriptDebugger.Decimal.Range
import ScriptDebugger.Toml.Table
import ScriptDebugger.Toml.Token

namespace ScriptDebugger.Toml

/-! ### Numbers -/

/-- Takes out the underscores, each of which must stand between two digits. -/
def ungroup? (isDigit : Char → Bool) : List Char → Option (List Char)
  | [] => some []
  | '_' :: _ => none
  | c :: '_' :: d :: rest =>
    if isDigit c && isDigit d then (ungroup? isDigit (d :: rest)).map (c :: ·) else none
  | c :: rest => (ungroup? isDigit rest).map (c :: ·)

/-- The value of digits in a base up to sixteen. -/
def valueIn (base : Nat) (ds : List Char) : Nat :=
  ds.foldl (fun n c => n * base + (Text.hexValue? c).getD 0) 0

/-- Splits off a sign. -/
def splitSign : List Char → Bool × List Char
  | '-' :: rest => (true, rest)
  | '+' :: rest => (false, rest)
  | cs => (false, cs)

/-- Whether a digit is below a base. -/
def isDigitBelow (base : Nat) (c : Char) : Bool :=
  match Text.hexValue? c with
  | some d => decide (d < base)
  | none => false

/-- Whether an integer has 128 bits, with or without a sign. -/
def integerInRange (i : Int) : Bool :=
  decide (-0x80000000000000000000000000000000 ≤ i) &&
    decide (i < 0x100000000000000000000000000000000)

/-- The integer with the given sign and digits. -/
def integerItem (base : Nat) (negative : Bool) (ds : List Char) : Item :=
  let i : Int := if negative then -(valueIn base ds : Int) else (valueIn base ds : Int)
  if !ds.isEmpty && ds.all (isDigitBelow base) && integerInRange i then .integer i else .unreadable

/-- Reads what follows the mark of a base: digits of that base, also none. -/
def basedInteger? (base : Nat) (cs : List Char) : Option Item := do
  let ds ← ungroup? (isDigitBelow base) cs
  if ds.all (isDigitBelow base) then some (integerItem base false ds) else none

/-- Reads a decimal integer without its sign: no zero stands in front of others.
    The digits beside an underscore may be hexadecimal, and elsewhere other
    characters may stand, but then the integer has no value. -/
def decimalInteger? (negative : Bool) : List Char → Option Item
  | '0' :: _ :: _ => none
  | cs => (ungroup? (isDigitBelow 16) cs).map (integerItem 10 negative)

/-- Splits a list at its first element with a property, which is dropped. -/
def splitAtFirst (p : Char → Bool) (cs : List Char) : List Char × Option (List Char) :=
  match cs.dropWhile (fun c => !p c) with
  | [] => (cs, none)
  | _ :: rest => (cs.takeWhile (fun c => !p c), some rest)

/-- Reads decimal digits, at least one. -/
def digits? (cs : List Char) : Option (List Char) := do
  let ds ← ungroup? Char.isDigit cs
  if !ds.isEmpty && ds.all Char.isDigit then some ds else none

/-- Reads the digits before the point: no zero stands in front of others. -/
def wholeDigits? (cs : List Char) : Option (List Char) := do
  let ds ← digits? cs
  match ds with
  | '0' :: _ :: _ => none
  | _ => some ds

/-- Reads the digits after the point, if there is one. -/
def fractionDigits? : Option (List Char) → Option (List Char)
  | some cs => digits? cs
  | none => some []

/-- Reads the exponent, if there is one. -/
def exponent? : Option (List Char) → Option Int
  | some cs =>
    let (negative, rest) := splitSign cs
    (digits? rest).map fun ds =>
      if negative then -(valueIn 10 ds : Int) else (valueIn 10 ds : Int)
  | none => some 0

/-- Reads a decimal without its sign: a fraction, an exponent or both follow the
    integer part. -/
def decimal? (cs : List Char) : Option Decimal.Fraction := do
  let (mantissa, exponent) := splitAtFirst (fun c => c == 'e' || c == 'E') cs
  let (whole, fraction) := splitAtFirst (· == '.') mantissa
  let wholeDigits ← wholeDigits? whole
  let fractionDigits ← fractionDigits? fraction
  let scale ← exponent? exponent
  if fraction.isSome || exponent.isSome then
    some ⟨valueIn 10 (wholeDigits ++ fractionDigits), scale - fractionDigits.length⟩
  else none

/-- Reads a floating point number without its sign. -/
def float? (cs : List Char) : Option Item :=
  (decimal? cs).map fun f => if f.inRange then .float else .unreadable

/-! ### Dates and times -/

/-- Reads two digits off the front. -/
def twoDigits? : List Char → Option (Nat × List Char)
  | a :: b :: rest => if a.isDigit && b.isDigit then some (valueIn 10 [a, b], rest) else none
  | _ => none

/-- Reads a given character off the front. -/
def expect? (c : Char) : List Char → Option (List Char)
  | d :: rest => if c = d then some rest else none
  | [] => none

/-- Whether February has 29 days. -/
def isLeapYear (year : Nat) : Bool :=
  (year % 4 == 0 && year % 100 != 0) || year % 400 == 0

/-- The number of days of a month. -/
def daysIn (year month : Nat) : Nat :=
  if month = 2 then if isLeapYear year then 29 else 28
  else if month = 4 ∨ month = 6 ∨ month = 9 ∨ month = 11 then 30
  else 31

/-- Reads a calendar date off the front and gives the rest. -/
def date? (cs : List Char) : Option (List Char) := do
  let (century, cs) ← twoDigits? cs
  let (yearOfCentury, cs) ← twoDigits? cs
  let cs ← expect? '-' cs
  let (month, cs) ← twoDigits? cs
  let cs ← expect? '-' cs
  let (day, cs) ← twoDigits? cs
  let year := century * 100 + yearOfCentury
  if 1 ≤ month ∧ month ≤ 12 ∧ 1 ≤ day ∧ day ≤ daysIn year month then some cs else none

/-- Reads a fraction of a second off the front, if there is one. -/
def fraction? : List Char → Option (List Char)
  | '.' :: rest =>
    match rest.takeWhile Char.isDigit with
    | [] => none
    | _ => some (rest.dropWhile Char.isDigit)
  | cs => some cs

/-- Reads a time of day off the front and gives the rest; the seconds may be
    left out, and a leap second is allowed. -/
def time? (cs : List Char) : Option (List Char) := do
  let (hour, cs) ← twoDigits? cs
  let cs ← expect? ':' cs
  let (minute, cs) ← twoDigits? cs
  if 23 < hour ∨ 59 < minute then none
  else
    match cs with
    | ':' :: cs => do
      let (second, cs) ← twoDigits? cs
      if 60 < second then none else fraction? cs
    | cs => some cs

/-- Whether the text is an offset from universal time. -/
def isOffset (cs : List Char) : Bool :=
  match cs with
  | [c] => c == 'Z' || c == 'z'
  | sign :: rest =>
    (sign == '+' || sign == '-') &&
      match (do
        let (hours, rest) ← twoDigits? rest
        let rest ← expect? ':' rest
        let (minutes, rest) ← twoDigits? rest
        some (decide (hours ≤ 23) && decide (minutes ≤ 59) && rest.isEmpty)) with
      | some ok => ok
      | none => false
  | [] => false

/-- Whether the text is a date, a time, or both with an optional offset. -/
def isDateTime (cs : List Char) : Bool :=
  match date? cs with
  | some [] => true
  | some (separator :: rest) =>
    (separator == 'T' || separator == 't' || separator == ' ') &&
      match time? rest with
      | some [] => true
      | some rest => isOffset rest
      | none => false
  | none => time? cs == some []

/-! ### All of them -/

/-- Whether a text has a point or an exponent. -/
def hasFloatMark (cs : List Char) : Bool := cs.any fun c => c == '.' || c == 'e' || c == 'E'

/-- Reads what begins with a sign or a digit: the first character after the leading
    digits tells dates from numbers.  A date may hold a space; in a number a space is
    a fault, and a tabulation a character that is no digit. -/
def numeral? (cs : List Char) : Option Item :=
  let (negative, body) := splitSign cs
  match body.dropWhile Char.isDigit with
  | [] => if body.isEmpty then none else decimalInteger? negative body
  | c :: rest =>
    if c = '-' ∨ c = ':' then if isDateTime cs then some .dateTime else none
    else if rest.contains ' ' then none
    else if hasFloatMark (c :: rest) then float? body
    else if c = '_' then decimalInteger? negative body
    else none

/-- Reads a value that is not quoted. -/
def scalar? (cs : List Char) : Option Item :=
  if cs = "true".toList then some (.bool true)
  else if cs = "false".toList then some (.bool false)
  else if (splitSign cs).2 = "inf".toList || (splitSign cs).2 = "nan".toList then some .float
  else
    match cs with
    | '0' :: 'x' :: ds => basedInteger? 16 ds
    | '0' :: 'o' :: ds => basedInteger? 8 ds
    | '0' :: 'b' :: ds => basedInteger? 2 ds
    | _ => numeral? cs

end ScriptDebugger.Toml
