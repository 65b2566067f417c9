import Mathlib.Data.List.DropRight
import Mathlib.Data.Rat.Cast.Order
import Mathlib.Tactic.FieldSimp
import Mathlib.Tactic.Ring

/-!
Decimal texts and the rationals they denote: digits, a point with digits after it,
and a sign. Zeros in front of digits change nothing, zeros after the last digit
behind a point neither (`fraction_trim`), so a quotient by a power of ten is written
as its whole part and its remainder, filled up in front to the full width and
trimmed at the end (`literal_quotient`).
-/
namespace Helix.Decimals

/-- The number that digits spell; there has to be one. -/
def natural (text : List Char) : Option Nat :=
  if text ≠ [] ∧ text.all Char.isDigit = true then some (Nat.ofDigitChars 10 text 0) else none

/-- What digits behind a point come to. -/
def fraction (text : List Char) : ℚ := Nat.ofDigitChars 10 text 0 / 10 ^ text.length

/-- Digits, or digits on both sides of a point. -/
def unsigned (text : List Char) : Option ℚ :=
  match text.dropWhile (fun c => c ≠ '.') with
  | [] => (natural text).map (fun n => (n : ℚ))
  | _ :: behind => do
    let whole ← natural (text.takeWhile (fun c => c ≠ '.'))
    let _ ← natural behind
    some (whole + fraction behind)

/-- A decimal text, with a sign or without. -/
def literal : List Char → Option ℚ
  | '-' :: text => (unsigned text).map (fun q => -q)
  | text => unsigned text

example : literal "-12.50".toList = some (-25 / 2) := by decide +kernel

/-- Digits filled up with zeros in front. -/
def padStart (text : List Char) (width : Nat) : List Char := text.leftpad width '0'

/-- A text without the zeros at its end. -/
def trim (text : List Char) : List Char := text.rdropWhile (fun c => c = '0')

/-- There are digits only. -/
def Digits (text : List Char) : Prop := ∀ c ∈ text, c.isDigit = true

section Digits
variable {text whole behind : List Char} {n : Nat}

theorem toDigits_digits (n : Nat) : Digits (Nat.toDigits 10 n) := fun _ member =>
  Nat.isDigit_of_mem_toDigits (by decide) (by decide) member

theorem natural_digits (digits : Digits text) (some_digit : text ≠ []) :
    natural text = some (Nat.ofDigitChars 10 text 0) :=
  if_pos ⟨some_digit,List.all_eq_true.mpr digits⟩

theorem Digits.no_point (digits : Digits text) : ∀ c ∈ text, decide (c ≠ '.') = true := by
  intro c member
  apply decide_eq_true
  rintro rfl
  have digit := digits '.' member
  revert digit
  decide

/-! ### Padding and trimming -/

theorem padStart_digits (digits : Digits text) (width : Nat) : Digits (padStart text width) := by
  intro c member
  rcases List.mem_append.mp member with filled | own
  · rw [List.eq_of_mem_replicate filled]
    decide
  · exact digits c own

theorem length_padStart {width : Nat} (fits : text.length ≤ width) : (padStart text width).length = width := by
  rw [padStart,List.leftpad,List.length_append,List.length_replicate]
  omega

/-- Zeros in front change nothing. -/
theorem ofDigitChars_padStart (text : List Char) (width : Nat) :
    Nat.ofDigitChars 10 (padStart text width) 0 = Nat.ofDigitChars 10 text 0 := by
  rw [padStart,List.leftpad,Nat.ofDigitChars_append,Nat.ofDigitChars_replicate_zero,Nat.mul_zero]

/-- What is trimmed is zeros. -/
theorem trim_zeros (text : List Char) : ∃ zeros, trim text ++ List.replicate zeros '0' = text := by
  refine ⟨(text.rtakeWhile (fun c => c = '0')).length,?_⟩
  have cut : ∀ c ∈ text.rtakeWhile (fun c => decide (c = '0')), c = '0' := by
    intro c member
    simpa using List.mem_rtakeWhile_imp member
  rw [← List.eq_replicate_of_mem cut]
  exact List.rdropWhile_append_rtakeWhile

theorem trim_digits (digits : Digits text) : Digits (trim text) := fun c member =>
  digits c ((List.rdropWhile_prefix _ text).subset member)

/-- The last digit that is left is not a zero. -/
theorem trim_last (text : List Char) : (trim text).getLast? ≠ some '0' := by
  intro zero
  have some_digit : trim text ≠ [] := by
    intro empty
    rw [empty] at zero
    cases zero
  rw [List.getLast?_eq_some_getLast some_digit] at zero
  have last := List.rdropWhile_last_not (fun c => decide (c = '0')) text some_digit
  exact last (decide_eq_true (Option.some.inj zero))

/-- Zeros at the end of a fraction change nothing. -/
theorem fraction_zeros (text : List Char) (zeros : Nat) : fraction (text ++ List.replicate zeros '0') = fraction text := by
  rw [fraction,Nat.ofDigitChars_append,Nat.ofDigitChars_replicate_zero,List.length_append,List.length_replicate,pow_add,
    fraction]
  push_cast
  field_simp

theorem fraction_trim (text : List Char) : fraction (trim text) = fraction text := by
  obtain ⟨zeros,split⟩ := trim_zeros text
  rw [← fraction_zeros (trim text) zeros,split]

/-! ### Reading -/

theorem unsigned_whole (digits : Digits whole) (some_digit : whole ≠ []) :
    unsigned whole = some (Nat.ofDigitChars 10 whole 0 : ℚ) := by
  have point : whole.dropWhile (fun c => c ≠ '.') = [] := List.dropWhile_eq_nil_iff.mpr digits.no_point
  rw [unsigned,point,natural_digits digits some_digit]
  rfl

theorem unsigned_point (digits : Digits whole) (some_digit : whole ≠ []) (digits' : Digits behind)
    (some_digit' : behind ≠ []) :
    unsigned (whole ++ '.' :: behind) = some (Nat.ofDigitChars 10 whole 0 + fraction behind) := by
  have rest : (whole ++ '.' :: behind).dropWhile (fun c => c ≠ '.') = '.' :: behind := by
    rw [List.dropWhile_append_of_pos digits.no_point]
    rfl
  have front : (whole ++ '.' :: behind).takeWhile (fun c => c ≠ '.') = whole := by
    rw [List.takeWhile_append_of_pos digits.no_point]
    exact List.append_nil whole
  rw [unsigned,rest]
  simp only [front,natural_digits digits some_digit,natural_digits digits' some_digit',bind,Option.bind_some]

/-- A text with a minus in front of it or without. -/
def signed (negative : Bool) (text : List Char) : List Char := if negative = true then '-' :: text else text

theorem literal_signed (negative : Bool) (digits : Digits whole) (some_digit : whole ≠ []) {q : ℚ}
    (read : unsigned (whole ++ text) = some q) :
    literal (signed negative (whole ++ text)) = some (if negative = true then -q else q) := by
  cases negative with
  | true =>
    show (unsigned (whole ++ text)).map _ = _
    rw [read]
    rfl
  | false =>
    cases whole with
    | nil => exact absurd rfl some_digit
    | cons c whole =>
      have digit := digits c List.mem_cons_self
      have unsigned_text : literal (c :: (whole ++ text)) = unsigned (c :: (whole ++ text)) := by
        unfold literal
        split
        · rename_i same
          cases same
          exact absurd digit (by decide)
        · rfl
      exact unsigned_text.trans read

/-! ### Quotients by a power of ten -/

section Quotient
variable (magnitude width : Nat)

/-- What stands behind the point: the remainder in full width, trimmed. -/
def remainder (magnitude width : Nat) : List Char := trim (padStart (Nat.toDigits 10 (magnitude % 10 ^ width)) width)

theorem remainder_fits (rest : magnitude % 10 ^ width ≠ 0) :
    (Nat.toDigits 10 (magnitude % 10 ^ width)).length ≤ width := by
  have small : magnitude % 10 ^ width < 10 ^ width := Nat.mod_lt _ (pow_pos (by decide) width)
  rcases Nat.eq_zero_or_pos width with rfl | positive
  · rw [pow_zero,Nat.mod_one] at rest
    exact absurd rfl rest
  · exact (Nat.length_toDigits_le_iff (by decide) positive).mpr small

/-- The trimmed zeros fill the digits behind the point up to the full width. -/
theorem remainder_zeros (rest : magnitude % 10 ^ width ≠ 0) : ∃ zeros,
    (remainder magnitude width).length + zeros = width ∧
    Nat.ofDigitChars 10 (remainder magnitude width ++ List.replicate zeros '0') 0 = magnitude % 10 ^ width := by
  obtain ⟨zeros,split⟩ := trim_zeros (padStart (Nat.toDigits 10 (magnitude % 10 ^ width)) width)
  refine ⟨zeros,?_,?_⟩
  · have sizes := congrArg List.length split
    rw [List.length_append,List.length_replicate,length_padStart (remainder_fits magnitude width rest)] at sizes
    exact sizes
  · rw [remainder,split,ofDigitChars_padStart,Nat.ofDigitChars_ten_toDigits]

theorem fraction_remainder (rest : magnitude % 10 ^ width ≠ 0) :
    fraction (remainder magnitude width) = ((magnitude % 10 ^ width : Nat) : ℚ) / 10 ^ width := by
  rw [remainder,fraction_trim,fraction,ofDigitChars_padStart,Nat.ofDigitChars_ten_toDigits,
    length_padStart (remainder_fits magnitude width rest)]

theorem remainder_ne_nil (rest : magnitude % 10 ^ width ≠ 0) : remainder magnitude width ≠ [] := by
  intro empty
  obtain ⟨zeros,_,spelled⟩ := remainder_zeros magnitude width rest
  rw [empty,List.nil_append,Nat.ofDigitChars_replicate_zero,Nat.mul_zero] at spelled
  exact rest spelled.symm

theorem remainder_digits : Digits (remainder magnitude width) := trim_digits (padStart_digits (toDigits_digits _) width)

/-- A quotient as text: without a point if nothing is left. -/
def quotient (negative : Bool) (magnitude width : Nat) : List Char :=
  signed negative (Nat.toDigits 10 (magnitude / 10 ^ width) ++
    if magnitude % 10 ^ width = 0 then [] else '.' :: remainder magnitude width)

theorem quotient_parts : (magnitude : ℚ) / 10 ^ width =
    ((magnitude / 10 ^ width : Nat) : ℚ) + ((magnitude % 10 ^ width : Nat) : ℚ) / 10 ^ width := by
  have parts : ((10 ^ width * (magnitude / 10 ^ width) + magnitude % 10 ^ width : Nat) : ℚ) = (magnitude : ℚ) :=
    congrArg _ (Nat.div_add_mod magnitude (10 ^ width))
  rw [← parts]
  push_cast
  field_simp

/-- The text of a quotient denotes it. -/
theorem literal_quotient (negative : Bool) : literal (quotient negative magnitude width) =
    some (if negative = true then -((magnitude : ℚ) / 10 ^ width) else (magnitude : ℚ) / 10 ^ width) := by
  have digits := toDigits_digits (magnitude / 10 ^ width)
  have parts := quotient_parts magnitude width
  have some_digit : Nat.toDigits 10 (magnitude / 10 ^ width) ≠ [] := Nat.toDigits_ne_nil
  have read : unsigned (Nat.toDigits 10 (magnitude / 10 ^ width) ++
      if magnitude % 10 ^ width = 0 then [] else '.' :: remainder magnitude width) = some ((magnitude : ℚ) / 10 ^ width) := by
    by_cases whole : magnitude % 10 ^ width = 0
    · rw [whole,Nat.cast_zero,zero_div,add_zero] at parts
      rw [if_pos whole,List.append_nil,unsigned_whole digits some_digit,Nat.ofDigitChars_ten_toDigits,parts]
    · rw [if_neg whole,unsigned_point digits some_digit (remainder_digits magnitude width)
        (remainder_ne_nil magnitude width whole),Nat.ofDigitChars_ten_toDigits,fraction_remainder magnitude width whole,parts]
  exact literal_signed negative digits some_digit read

end Quotient

end Digits

end Helix.Decimals
