import Mathlib.Algebra.Order.Ring.Rat
import Mathlib.Data.List.DropRight
import Mathlib.Data.Rat.Floor

/-!
# JavaScript values

The part of the language the services rest on: JSON values, the white space of
`trim`, the conversion `Number(text)`, and date values.  A JSON number is a
finite double, so the rationals hold all of them; NaN and the infinities never
get past the `Number.isFinite` of the callers and are `none` here.
-/

namespace SyncBridge

inductive Json where
  | null
  | bool (value : Bool)
  | num (value : ℚ)
  | str (value : String)
  | arr (items : List Json)
  | obj (fields : List (String × Json))

/-- An object of the shape `Record<string, unknown>`. -/
abbrev Record := List (String × Json)

def Record.get (record : Record) (key : String) : Option Json :=
  record.lookup key

/-- Anything but a plain object counts as the empty record. -/
def ensureRecordObject : Json → Record
  | .obj fields => fields
  | _ => []

@[simp] theorem ensureRecordObject_obj (fields : Record) :
    ensureRecordObject (.obj fields) = fields := rfl

/-! ## Text -/

/-- `WhiteSpace` and `LineTerminator` of the language. -/
def isWhiteSpace (char : Char) : Bool :=
  let code := char.toNat
  (9 ≤ code && code ≤ 13) || code == 0x20 || code == 0xA0 || code == 0x1680 ||
    (0x2000 ≤ code && code ≤ 0x200A) || code == 0x2028 || code == 0x2029 ||
    code == 0x202F || code == 0x205F || code == 0x3000 || code == 0xFEFF

def trimChars (chars : List Char) : List Char :=
  ((chars.dropWhile isWhiteSpace).reverse.dropWhile isWhiteSpace).reverse

def trim (text : String) : String := String.ofList (trimChars text.toList)

theorem trimChars_trimChars (chars : List Char) :
    trimChars (trimChars chars) = trimChars chars := by
  have hhead : (trimChars chars).dropWhile isWhiteSpace = trimChars chars := by
    rw [List.dropWhile_eq_self_iff]
    intro hpos
    have hstart : trimChars chars <+: chars.dropWhile isWhiteSpace :=
      List.rdropWhile_prefix isWhiteSpace _
    have hlong := Nat.lt_of_lt_of_le hpos hstart.length_le
    rw [hstart.getElem hpos]
    exact List.dropWhile_get_zero_not isWhiteSpace chars hlong
  rw [trimChars, hhead]
  exact List.rdropWhile_idempotent isWhiteSpace _

@[simp] theorem trim_trim (text : String) : trim (trim text) = trim text := by
  simp [trim, trimChars_trimChars]

/-- Lower case of the ASCII letters and of the Kelvin sign, the one other
character whose lower case is ASCII. -/
def lowerChar (char : Char) : Char :=
  if char.toNat = 0x212A then 'k' else char.toLower

/-- The names compared with a text in lower case are ASCII. -/
def toLowerCase (text : String) : String :=
  String.ofList (text.toList.map lowerChar)

theorem isWhiteSpace_toLower (char : Char) :
    isWhiteSpace char.toLower = isWhiteSpace char := by
  by_cases hletter : 65 ≤ char.toNat ∧ char.toNat ≤ 90
  · have hletters : ∀ code < 91, 65 ≤ code →
        isWhiteSpace (Char.ofNat code).toLower =
          isWhiteSpace (Char.ofNat code) := by decide
    have hchar := hletters char.toNat (by omega) hletter.1
    rwa [Char.ofNat_toNat] at hchar
  · have hsame : char.toLower = char := by
      refine dif_neg fun h => hletter ?_
      exact ⟨UInt32.le_iff_toNat_le.mp h.1, UInt32.le_iff_toNat_le.mp h.2⟩
    rw [hsame]

theorem isWhiteSpace_lowerChar (char : Char) :
    isWhiteSpace (lowerChar char) = isWhiteSpace char := by
  by_cases hkelvin : char.toNat = 0x212A
  · have hblack : isWhiteSpace char = false := by
      simp only [isWhiteSpace, hkelvin]
      rfl
    rw [lowerChar, if_pos hkelvin, hblack]
    rfl
  · rw [lowerChar, if_neg hkelvin, isWhiteSpace_toLower]

theorem lowerChar_lowerChar (char : Char) :
    lowerChar (lowerChar char) = lowerChar char := by
  by_cases hkelvin : char.toNat = 0x212A
  · have hlower : lowerChar char = 'k' := if_pos hkelvin
    rw [hlower]
    rfl
  · simp only [lowerChar, if_neg hkelvin]
    by_cases hletter : 65 ≤ char.toNat ∧ char.toNat ≤ 90
    · have hletters : ∀ code < 91, 65 ≤ code →
          lowerChar (Char.ofNat code).toLower = (Char.ofNat code).toLower := by
        decide
      have hchar := hletters char.toNat (by omega) hletter.1
      rwa [Char.ofNat_toNat] at hchar
    · have hsame : char.toLower = char := by
        refine dif_neg fun h => hletter ?_
        exact ⟨UInt32.le_iff_toNat_le.mp h.1, UInt32.le_iff_toNat_le.mp h.2⟩
      rw [hsame, if_neg hkelvin, hsame]

theorem trimChars_map {f : Char → Char}
    (hf : ∀ char, isWhiteSpace (f char) = isWhiteSpace char) (chars : List Char) :
    trimChars (chars.map f) = (trimChars chars).map f := by
  have hsame : isWhiteSpace ∘ f = isWhiteSpace := funext hf
  simp only [trimChars, List.dropWhile_map, hsame, ← List.map_reverse]

theorem forall_isDigit {P : Char → Prop}
    (hdigits : ∀ code < 58, 48 ≤ code → P (Char.ofNat code)) {char : Char}
    (h : char.isDigit = true) : P char := by
  simp only [Char.isDigit, Bool.and_eq_true, decide_eq_true_eq] at h
  have hlow : 48 ≤ char.toNat := UInt32.le_iff_toNat_le.mp h.1
  have hhigh : char.toNat ≤ 57 := UInt32.le_iff_toNat_le.mp h.2
  have hchar := hdigits char.toNat (by omega) hlow
  rwa [Char.ofNat_toNat] at hchar

/-! ## Numbers -/

def roundHalfEven (value : ℚ) : ℤ :=
  let floor := value.floor
  let rest := value - floor
  if rest < 1 / 2 then floor
  else if 1 / 2 < rest then floor + 1
  else if floor % 2 = 0 then floor else floor + 1

/-- The double nearest to a positive rational, `none` when that is infinite. -/
def toDoublePos (value : ℚ) : Option ℚ :=
  let guess : ℤ := Nat.log2 value.num.natAbs - Nat.log2 value.den
  let exponent := if value < (2 : ℚ) ^ guess then guess - 1 else guess
  let unit : ℚ := (2 : ℚ) ^ max (exponent - 52) (-1074)
  let rounded := roundHalfEven (value / unit) * unit
  if rounded < (2 : ℚ) ^ (1024 : ℤ) then some rounded else none

def toDouble (value : ℚ) : Option ℚ :=
  if value = 0 then some 0
  else if 0 < value then toDoublePos value
  else (toDoublePos (-value)).map (- ·)

def digitOf (base : Nat) (char : Char) : Option Nat :=
  let code := char.toNat
  let digit :=
    if 48 ≤ code ∧ code ≤ 57 then code - 48
    else if 97 ≤ code ∧ code ≤ 122 then code - 97 + 10
    else if 65 ≤ code ∧ code ≤ 90 then code - 65 + 10
    else base
  if digit < base then some digit else none

def digitsFrom (base : Nat) (acc : Nat) : List Char → Option Nat
  | [] => some acc
  | char :: chars => do
      let digit ← digitOf base char
      digitsFrom base (acc * base + digit) chars

def digits (base : Nat) : List Char → Option Nat
  | [] => none
  | chars => digitsFrom base 0 chars

def isDecimalDigit (char : Char) : Bool := (digitOf 10 char).isSome

def exponentPart : List Char → Option ℤ
  | [] => some 0
  | mark :: chars =>
      if mark = 'e' ∨ mark = 'E' then
        match chars with
        | '-' :: rest => (digits 10 rest).map fun value => -(value : ℤ)
        | '+' :: rest => (digits 10 rest).map Int.ofNat
        | rest => (digits 10 rest).map Int.ofNat
      else none

/-- `StrUnsignedDecimalLiteral` without `Infinity`. -/
def unsignedDecimal (chars : List Char) : Option ℚ :=
  let whole := chars.takeWhile isDecimalDigit
  let afterWhole := chars.dropWhile isDecimalDigit
  let (fraction, rest) := match afterWhole with
    | '.' :: tail =>
        (tail.takeWhile isDecimalDigit, tail.dropWhile isDecimalDigit)
    | tail => ([], tail)
  do
    let mantissa ← digits 10 (whole ++ fraction)
    let exponent ← exponentPart rest
    some ((mantissa : ℚ) * (10 : ℚ) ^ (exponent - fraction.length))

/-- The exact value of a `StringNumericLiteral`, before rounding. -/
def stringNumericLiteral (chars : List Char) : Option ℚ :=
  match trimChars chars with
  | [] => some 0
  | '0' :: mark :: rest =>
      if mark = 'x' ∨ mark = 'X' then (digits 16 rest).map Nat.cast
      else if mark = 'o' ∨ mark = 'O' then (digits 8 rest).map Nat.cast
      else if mark = 'b' ∨ mark = 'B' then (digits 2 rest).map Nat.cast
      else unsignedDecimal ('0' :: mark :: rest)
  | '+' :: rest => unsignedDecimal rest
  | '-' :: rest => (unsignedDecimal rest).map (- ·)
  | rest => unsignedDecimal rest

/-- `Number(text)` where it is finite. -/
def number (text : String) : Option ℚ :=
  (stringNumericLiteral text.toList).bind toDouble

/-! ## Dates -/

abbrev Time := ℤ

def maxTime : Time := 8640000000000000

abbrev DateValue := { time : Time // -maxTime ≤ time ∧ time ≤ maxTime }

/-- `Date.parse` and `toISOString`.  Apart from the ISO format the first is left
to the implementation; both are only assumed to invert each other. -/
structure Dates where
  parse : String → Option DateValue
  toISOString : DateValue → String
  parse_toISOString : ∀ date, parse (toISOString date) = some date

def truncate (value : ℚ) : ℤ :=
  if 0 ≤ value then value.floor else -(-value).floor

/-- `new Date(value)` of a JSON value that is a string or a number. -/
def Dates.newDate (dates : Dates) : Json → Option DateValue
  | .str text => dates.parse text
  | .num value =>
      let time := truncate value
      if h : -maxTime ≤ time ∧ time ≤ maxTime then some ⟨time, h⟩ else none
  | _ => none

def Dates.json (dates : Dates) (time : Option Time) : Json :=
  match time with
  | some time =>
      if h : -maxTime ≤ time ∧ time ≤ maxTime then
        .str (dates.toISOString ⟨time, h⟩)
      else .null
  | none => .null

end SyncBridge
