import Mathlib.Algebra.Order.Floor.Ring
import Mathlib.Tactic.NormNum
import Mathlib.Tactic.FieldSimp
import Mathlib.Tactic.Positivity
import Mathlib.Tactic.Ring
import SyncBridge.JavaScript

/-!
# Decimal digits read as numbers

`Number(text)` of a run of decimal digits.  Whole numbers below `2 ^ 53` are
doubles; above that the nearest double is a whole number that is at least as
large as `2 ^ 53`, if it is finite.
-/

namespace SyncBridge

/-! ## Rounding -/

theorem roundHalfEven_intCast (value : ℤ) : roundHalfEven (value : ℚ) = value := by
  simp [roundHalfEven, Rat.floor_intCast]

theorem floor_le_roundHalfEven (value : ℚ) : value.floor ≤ roundHalfEven value := by
  simp only [roundHalfEven]
  split
  · exact Int.le_refl _
  · split
    · omega
    · split <;> omega

theorem toDoublePos_natCast {value : Nat} (hpos : 0 < value) :
    toDoublePos (value : ℚ) =
      let unit : ℚ := (2 : ℚ) ^ ((Nat.log2 value : ℤ) - 52)
      let rounded := roundHalfEven ((value : ℚ) / unit) * unit
      if rounded < (2 : ℚ) ^ (1024 : ℤ) then some rounded else none := by
  have hguess : ¬ (value : ℚ) <
      (2 : ℚ) ^ ((Nat.log2 value : ℤ) - (0 : Nat)) := by
    rw [not_lt, Nat.cast_zero, sub_zero, zpow_natCast]
    exact_mod_cast Nat.log2_self_le (Nat.pos_iff_ne_zero.mp hpos)
  have hone : Nat.log2 1 = 0 := by decide
  have hmax : max ((Nat.log2 value : ℤ) - (0 : Nat) - 52) (-1074) =
      (Nat.log2 value : ℤ) - 52 := by
    omega
  simp only [toDoublePos, Rat.num_natCast, Rat.den_natCast, Int.natAbs_natCast,
    hone, if_neg hguess, hmax]

theorem toDouble_natCast {value : Nat} (hsmall : value < 2 ^ 53) :
    toDouble (value : ℚ) = some (value : ℚ) := by
  rcases Nat.eq_zero_or_pos value with rfl | hpos
  · simp [toDouble]
  · have hlog : Nat.log2 value < 53 :=
      (Nat.log2_lt (Nat.pos_iff_ne_zero.mp hpos)).mpr hsmall
    obtain ⟨shift, hshift⟩ : ∃ shift : Nat, 52 = Nat.log2 value + shift :=
      ⟨52 - Nat.log2 value, by omega⟩
    have hunit : (2 : ℚ) ^ ((Nat.log2 value : ℤ) - 52) = ((2 : ℚ) ^ shift)⁻¹ := by
      rw [← zpow_natCast, ← zpow_neg]
      congr 1
      omega
    have hscaled : (value : ℚ) / ((2 : ℚ) ^ shift)⁻¹ =
        ((value * 2 ^ shift : Nat) : ℤ) := by
      push_cast
      rw [div_inv_eq_mul]
    have hrounded : (roundHalfEven ((value : ℚ) / ((2 : ℚ) ^ shift)⁻¹) : ℚ) *
        ((2 : ℚ) ^ shift)⁻¹ = value := by
      rw [hscaled, roundHalfEven_intCast]
      push_cast
      field_simp
    have hfinite : (value : ℚ) < (2 : ℚ) ^ (1024 : ℤ) := by
      have hle : (2 : ℚ) ^ (53 : ℤ) ≤ (2 : ℚ) ^ (1024 : ℤ) :=
        zpow_le_zpow_right₀ (by norm_num) (by norm_num)
      exact lt_of_lt_of_le (by exact_mod_cast hsmall) hle
    have hne : (value : ℚ) ≠ 0 := by exact_mod_cast hpos.ne'
    have hlt : (0 : ℚ) < value := by exact_mod_cast hpos
    simp only [toDouble, hne, hlt, if_false, if_true, toDoublePos_natCast hpos,
      hunit, hrounded, hfinite]

theorem toDouble_natCast_large {value : Nat} {double : ℚ}
    (hlarge : 2 ^ 53 ≤ value) (h : toDouble (value : ℚ) = some double) :
    ∃ whole : Nat, double = whole ∧ 2 ^ 53 ≤ whole := by
  have hpos : 0 < value := by omega
  have hlog : 53 ≤ Nat.log2 value :=
    (Nat.le_log2 (Nat.pos_iff_ne_zero.mp hpos)).mpr hlarge
  obtain ⟨shift, hshift, hshifted⟩ :
      ∃ shift : Nat, Nat.log2 value = 52 + shift ∧ 1 ≤ shift :=
    ⟨Nat.log2 value - 52, by omega, by omega⟩
  have hunit : (2 : ℚ) ^ ((Nat.log2 value : ℤ) - 52) = (2 : ℚ) ^ shift := by
    rw [← zpow_natCast]
    congr 1
    omega
  have hquotient : (2 : ℤ) ^ 52 ≤
      roundHalfEven ((value : ℚ) / (2 : ℚ) ^ shift) := by
    refine le_trans ?_ (floor_le_roundHalfEven _)
    refine Rat.le_floor_iff.mpr ?_
    rw [le_div_iff₀ (by positivity)]
    have hself : 2 ^ 52 * 2 ^ shift ≤ value := by
      rw [← pow_add, ← hshift]
      exact Nat.log2_self_le (Nat.pos_iff_ne_zero.mp hpos)
    exact_mod_cast hself
  have hne : (value : ℚ) ≠ 0 := by exact_mod_cast hpos.ne'
  have hlt : (0 : ℚ) < value := by exact_mod_cast hpos
  simp only [toDouble, hne, hlt, if_false, if_true, toDoublePos_natCast hpos,
    hunit] at h
  split at h
  · obtain rfl := Option.some.inj h
    obtain ⟨quotient, hcast⟩ :=
      Int.eq_ofNat_of_zero_le (le_trans (by positivity) hquotient)
    rw [hcast] at hquotient ⊢
    refine ⟨quotient * 2 ^ shift, by push_cast; ring, ?_⟩
    have hquotient' : 2 ^ 52 ≤ quotient := by exact_mod_cast hquotient
    calc 2 ^ 53 = 2 ^ 52 * 2 ^ 1 := by norm_num
      _ ≤ quotient * 2 ^ shift :=
          Nat.mul_le_mul hquotient' (Nat.pow_le_pow_right (by decide) hshifted)
  · cases h

/-! ## Digits -/

variable {chars : List Char} {value : Nat}

theorem isDecimalDigit_iff {char : Char} : isDecimalDigit char = true ↔
    48 ≤ char.toNat ∧ char.toNat ≤ 57 := by
  simp only [isDecimalDigit, digitOf]
  constructor
  · intro h
    by_contra hcode
    rw [if_neg hcode] at h
    split_ifs at h
    all_goals first
      | omega
      | cases h
  · intro hcode
    rw [if_pos hcode, if_pos (by omega)]
    rfl

theorem isWhiteSpace_of_isDecimalDigit {char : Char}
    (h : isDecimalDigit char = true) : isWhiteSpace char = false := by
  rw [isDecimalDigit_iff] at h
  by_contra hspace
  rw [Bool.not_eq_false] at hspace
  simp only [isWhiteSpace, Bool.or_eq_true, Bool.and_eq_true, decide_eq_true_eq,
    beq_iff_eq] at hspace
  omega

theorem digitsFrom_isSome_iff {base acc : Nat} :
    (digitsFrom base acc chars).isSome = true ↔
      ∀ char ∈ chars, (digitOf base char).isSome = true := by
  induction chars generalizing acc with
  | nil => simp [digitsFrom]
  | cons char chars ih =>
      cases hdigit : digitOf base char with
      | none => simp [digitsFrom, hdigit]
      | some digit => simp [digitsFrom, hdigit, ih]

theorem digits_isSome_iff : (digits 10 chars).isSome = true ↔
    chars ≠ [] ∧ ∀ char ∈ chars, isDecimalDigit char = true := by
  cases chars with
  | nil => simp [digits]
  | cons char chars => simp [digits, digitsFrom_isSome_iff, isDecimalDigit]

theorem isDecimalDigit_of_digits (h : digits 10 chars = some value) :
    ∀ char ∈ chars, isDecimalDigit char = true :=
  (digits_isSome_iff.mp (Option.isSome_of_eq_some h)).2

theorem ne_nil_of_digits (h : digits 10 chars = some value) : chars ≠ [] :=
  (digits_isSome_iff.mp (Option.isSome_of_eq_some h)).1

theorem not_mem_of_digits {char : Char} (h : digits 10 chars = some value)
    (hchar : isDecimalDigit char = false) : char ∉ chars := by
  intro hmem
  rw [isDecimalDigit_of_digits h char hmem] at hchar
  cases hchar

theorem trimChars_of_forall (h : ∀ char ∈ chars, isWhiteSpace char = false) :
    trimChars chars = chars := by
  have hdrop : ∀ {text : List Char}, (∀ char ∈ text, isWhiteSpace char = false) →
      text.dropWhile isWhiteSpace = text := by
    intro text htext
    cases text with
    | nil => rfl
    | cons char text =>
        simp [htext char List.mem_cons_self]
  rw [trimChars, hdrop h, hdrop (by simpa using h), List.reverse_reverse]

theorem unsignedDecimal_of_digits (h : digits 10 chars = some value) :
    unsignedDecimal chars = some (value : ℚ) := by
  have hall := isDecimalDigit_of_digits h
  have htake : chars.takeWhile isDecimalDigit = chars :=
    List.takeWhile_eq_self_iff.mpr hall
  have hdrop : chars.dropWhile isDecimalDigit = [] :=
    List.dropWhile_eq_nil_iff.mpr hall
  simp [unsignedDecimal, htake, hdrop, h, exponentPart]

theorem stringNumericLiteral_of_digits (h : digits 10 chars = some value) :
    stringNumericLiteral chars = some (value : ℚ) := by
  have hall := isDecimalDigit_of_digits h
  have htrim : trimChars chars = chars := trimChars_of_forall fun char hchar =>
    isWhiteSpace_of_isDecimalDigit (hall char hchar)
  have hmark : ∀ {mark : Char}, isDecimalDigit mark = false → mark ∉ chars :=
    fun hnot => not_mem_of_digits h hnot
  have hplus := hmark (show isDecimalDigit '+' = false by decide)
  have hminus := hmark (show isDecimalDigit '-' = false by decide)
  have hhex := hmark (show isDecimalDigit 'x' = false by decide)
  have hHex := hmark (show isDecimalDigit 'X' = false by decide)
  have hoctal := hmark (show isDecimalDigit 'o' = false by decide)
  have hOctal := hmark (show isDecimalDigit 'O' = false by decide)
  have hbinary := hmark (show isDecimalDigit 'b' = false by decide)
  have hBinary := hmark (show isDecimalDigit 'B' = false by decide)
  rw [stringNumericLiteral, htrim]
  split
  · exact absurd rfl (ne_nil_of_digits h)
  · rename_i mark rest
    have hother : ∀ {letter : Char}, letter ∉ '0' :: mark :: rest →
        mark ≠ letter := by
      rintro letter hnot rfl
      exact hnot (List.mem_cons_of_mem _ List.mem_cons_self)
    rw [if_neg (by simp [hother hhex, hother hHex]),
      if_neg (by simp [hother hoctal, hother hOctal]),
      if_neg (by simp [hother hbinary, hother hBinary])]
    exact unsignedDecimal_of_digits h
  · exact absurd List.mem_cons_self hplus
  · exact absurd List.mem_cons_self hminus
  · exact unsignedDecimal_of_digits h

theorem number_of_digits (h : digits 10 chars = some value) :
    number (String.ofList chars) = toDouble (value : ℚ) := by
  simp [number, stringNumericLiteral_of_digits h]

end SyncBridge
