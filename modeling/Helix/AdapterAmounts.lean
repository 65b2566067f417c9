import Helix.Adapter
import Helix.Decimals
import Mathlib.Data.Nat.Size

/-!
The decimal texts through which the adapter scales its amounts. A text that
`scaleIntegerToNumber` hands to the language denotes the value over the power of
ten exactly (`scale_literal_exact`); only the reading of it rounds.
-/
namespace Helix.Adapter
open Binary64 Decimals

/-- What is thrown: a type error with its text, or an integer is too large. -/
inductive Thrown where
  | typeError (text : String)
  | rangeError

/-- What runs the adapter. It refuses integers of more than so many bits, and none
    has room for 2^53 of them. -/
structure Engine where
  bigIntBits : Nat
  bounded : bigIntBits ≤ 2 ^ 53

/-- `10n ** exponent`. -/
def Engine.power (engine : Engine) (exponent : Nat) : Except Thrown Nat :=
  if (10 ^ exponent).size ≤ engine.bigIntBits then .ok (10 ^ exponent) else .error .rangeError

/-- The decimals as a number of the language, which has to be a natural one. -/
def scaleDecimals (decimals : Int) (fieldName : String) : Except Thrown Nat :=
  match Number.ofRat decimals with
  | .finite q =>
    if q.den ≠ 1 ∨ q < 0 then .error (.typeError s!"{fieldName} decimals must be a non-negative integer")
    else .ok q.num.toNat
  | _ => .error (.typeError s!"{fieldName} decimals must be a non-negative integer")

/-- The text that `scaleIntegerToNumber` hands to `Number`. -/
def scaleIntegerToLiteral (engine : Engine) (value decimals : Int) (fieldName : String) : Except Thrown String := do
  let scaleDecimals ← scaleDecimals decimals fieldName
  let sign := if value < 0 then "-" else ""
  let magnitude := value.natAbs
  let scale ← engine.power scaleDecimals
  let whole := magnitude / scale
  let fraction := magnitude % scale
  if fraction = 0 then pure (sign ++ toString whole)
  else
    let fractionText := String.ofList (trim (padStart (toString fraction).toList scaleDecimals))
    pure (sign ++ toString whole ++ "." ++ fractionText)

/-- A text denotes a value over a power of ten: it has a minus exactly for a negative
    value, the digits of the whole part, and if something is left a point and the
    digits of the remainder in full width, of which only zeros at the end may be
    missing. -/
structure Renders (value : Int) (decimals : Nat) (text : List Char) : Prop where
  denotes : literal text = some ((value : ℚ) / 10 ^ decimals)
  written : ∃ behind, text = signed (decide (value < 0)) (Nat.toDigits 10 (value.natAbs / 10 ^ decimals) ++ behind) ∧
    if value.natAbs % 10 ^ decimals = 0 then behind = []
    else ∃ digits zeros, behind = '.' :: digits ∧ digits.length + zeros = decimals ∧
      Nat.ofDigitChars 10 (digits ++ List.replicate zeros '0') 0 = value.natAbs % 10 ^ decimals ∧
      digits.getLast? ≠ some '0'

/-- The text of a value over a power of ten. -/
def rendered (value : Int) (decimals : Nat) : List Char := quotient (decide (value < 0)) value.natAbs decimals

example : rendered 123456789 7 = "12.3456789".toList ∧ rendered (-120000000) 7 = "-12".toList ∧
    rendered (-5) 3 = "-0.005".toList := by decide +kernel

theorem rendered_renders (value : Int) (decimals : Nat) : Renders value decimals (rendered value decimals) := by
  refine ⟨?_,_,rfl,?_⟩
  · rw [rendered,literal_quotient]
    congr 1
    rcases lt_or_ge value 0 with negative | natural
    · have magnitude : (value.natAbs : ℚ) = -value := by
        rw [Nat.cast_natAbs,abs_of_neg negative]
        push_cast
        rfl
      rw [if_pos (decide_eq_true negative),magnitude,neg_div,neg_neg]
    · have magnitude : (value.natAbs : ℚ) = value := by
        rw [Nat.cast_natAbs,abs_of_nonneg natural]
      rw [if_neg (by simpa using natural),magnitude]
  · by_cases whole : value.natAbs % 10 ^ decimals = 0
    · rw [if_pos whole,if_pos whole]
    · rw [if_neg whole,if_neg whole]
      obtain ⟨zeros,width,spelled⟩ := remainder_zeros value.natAbs decimals whole
      exact ⟨_,zeros,rfl,width,spelled,trim_last _⟩

section Literals
variable {engine : Engine} {value decimals : Int} {fieldName text : String}

theorem scaleDecimals_small (natural : 0 ≤ decimals) (small : decimals ≤ 2 ^ 53) :
    scaleDecimals decimals fieldName = .ok decimals.toNat := by
  obtain ⟨n,rfl⟩ := Int.eq_ofNat_of_zero_le natural
  have kept : Number.ofRat ((n : Int) : ℚ) = .finite n := Number.ofRat_nat (by exact_mod_cast small)
  rw [scaleDecimals,kept]
  simp

/-- Natural decimals are kept, or read as a number that is too large for a scale. -/
theorem scaleDecimals_ok {exponent : Nat} (natural : 0 ≤ decimals)
    (read : scaleDecimals decimals fieldName = .ok exponent) : exponent = decimals.toNat ∨ 2 ^ 53 ≤ exponent := by
  rcases le_or_gt decimals (2 ^ 53) with small | large
  · rw [scaleDecimals_small natural small] at read
    exact .inl (Except.ok.inj read).symm
  · right
    have there : Representable ((2 ^ 53 : Int) : ℚ) := representable_int le_rfl
    have beyond : ((2 ^ 53 : Int) : ℚ) ≤ decimals := by exact_mod_cast large.le
    cases number : Number.ofRat decimals with
    | infinite | nan =>
      rw [scaleDecimals,number] at read
      cases read
    | finite q =>
      rw [scaleDecimals,number] at read
      have high := Number.le_of_ofRat there (by positivity) beyond number
      by_cases refused : q.den ≠ 1 ∨ q < 0
      · simp only [if_pos refused,reduceCtorEq] at read
      · simp only [if_neg refused,Except.ok.injEq] at read
        have whole : (q.num : ℚ) = q := Rat.coe_int_num_of_den_eq_one (by tauto)
        rw [← whole] at high
        have size : (2 ^ 53 : Int) ≤ q.num := by exact_mod_cast high
        omega

/-- No engine has room for a power with so many zeros. -/
theorem power_ok {exponent scale : Nat} (ran : engine.power exponent = .ok scale) :
    scale = 10 ^ exponent ∧ (10 ^ exponent).size ≤ engine.bigIntBits ∧ exponent < 2 ^ 53 := by
  unfold Engine.power at ran
  split at ran
  · rename_i fits
    cases ran
    have size : exponent < (10 ^ exponent).size := Nat.lt_size.mpr (Nat.pow_le_pow_left (by decide) exponent)
    exact ⟨rfl,fits,size.trans_le (fits.trans engine.bounded)⟩
  · cases ran

/-- The text that is built, from its parts. -/
theorem built_text (value : Int) (exponent : Nat) :
    (if value.natAbs % 10 ^ exponent = 0 then (if value < 0 then "-" else "") ++ toString (value.natAbs / 10 ^ exponent)
      else (if value < 0 then "-" else "") ++ toString (value.natAbs / 10 ^ exponent) ++ "." ++
        String.ofList (trim (padStart (toString (value.natAbs % 10 ^ exponent)).toList exponent))).toList =
      rendered value exponent := by
  by_cases whole : value.natAbs % 10 ^ exponent = 0 <;> by_cases negative : value < 0 <;>
    simp [rendered,quotient,signed,remainder,whole,negative]

theorem literal_built {exponent : Nat} (read : scaleDecimals decimals fieldName = .ok exponent)
    (power : engine.power exponent = .ok (10 ^ exponent)) :
    scaleIntegerToLiteral engine value decimals fieldName = .ok (String.ofList (rendered value exponent)) := by
  rw [← built_text,String.ofList_toList,scaleIntegerToLiteral,read]
  simp only [bind,Except.bind,power]
  split <;> rfl

/-- A literal is built wherever the engine has room for the power of ten, and it is
    the text of the value over that power. -/
theorem scaleIntegerToLiteral_ok (natural : 0 ≤ decimals) :
    scaleIntegerToLiteral engine value decimals fieldName = .ok text ↔
      (10 ^ decimals.toNat).size ≤ engine.bigIntBits ∧ text = String.ofList (rendered value decimals.toNat) := by
  constructor
  · intro built
    cases read : scaleDecimals decimals fieldName with
    | error thrown =>
      rw [scaleIntegerToLiteral,read] at built
      cases built
    | ok exponent =>
      cases power : engine.power exponent with
      | error thrown =>
        rw [scaleIntegerToLiteral,read] at built
        simp only [bind,Except.bind,power,reduceCtorEq] at built
      | ok scale =>
        obtain ⟨rfl,fits,small⟩ := power_ok power
        have kept : exponent = decimals.toNat := (scaleDecimals_ok natural read).resolve_right (by omega)
        rw [literal_built read power] at built
        cases built
        rw [← kept]
        exact ⟨fits,rfl⟩
  · rintro ⟨fits,rfl⟩
    have power : engine.power decimals.toNat = .ok (10 ^ decimals.toNat) := if_pos fits
    obtain ⟨_,_,small⟩ := power_ok power
    exact literal_built (scaleDecimals_small natural (by omega)) power

/-- A text that is handed to the language denotes the value over the power of ten
    exactly, and there is one wherever the engine has room for that power. -/
theorem scale_literal_exact (engine : Engine) (value decimals : Int) (fieldName : String) (natural : 0 ≤ decimals) :
    (∀ text, scaleIntegerToLiteral engine value decimals fieldName = .ok text →
      Renders value decimals.toNat text.toList ∧
        ∃ q, literal text.toList = some q ∧ scaleIntegerToNumber value decimals fieldName = .ok (.ofRat q)) ∧
    ((10 ^ decimals.toNat).size ≤ engine.bigIntBits →
      ∃ text, scaleIntegerToLiteral engine value decimals fieldName = .ok text) := by
  refine ⟨?_,?_⟩
  · intro text built
    obtain ⟨_,rfl⟩ := (scaleIntegerToLiteral_ok natural).mp built
    rw [String.toList_ofList]
    have renders := rendered_renders value decimals.toNat
    exact ⟨renders,_,renders.denotes,if_neg (not_lt.mpr natural)⟩
  · intro fits
    exact ⟨_,(scaleIntegerToLiteral_ok natural).mpr ⟨fits,rfl⟩⟩

end Literals

/-- An engine with integers of up to 2^30 bits. -/
def Small.engine : Engine := ⟨2 ^ 30,by decide⟩

theorem scale_literal_exact_small : ∃ text, scaleIntegerToLiteral Small.engine (-5) 3 "value" = .ok text ∧
    Renders (-5) 3 text.toList ∧
    ∃ q, literal text.toList = some q ∧ scaleIntegerToNumber (-5) 3 "value" = .ok (.ofRat q) := by
  have fits : (10 ^ (3 : Int).toNat).size ≤ Small.engine.bigIntBits :=
    (Nat.size_le.mpr (show 1000 < 2 ^ 10 by decide)).trans (by decide)
  obtain ⟨text,built⟩ := (scale_literal_exact Small.engine (-5) 3 "value" (by decide)).2 fits
  exact ⟨text,built,(scale_literal_exact Small.engine (-5) 3 "value" (by decide)).1 text built⟩

end Helix.Adapter
