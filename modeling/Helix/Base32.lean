import Helix.Bits

/-!
Base 32 without padding characters: every character stands for five bits, the
bits spell bytes, and fewer than five zeros may follow the last byte. A text
whose bits are those of some bytes decodes to these bytes (`decode_of_bits`).
-/
namespace Helix.Base32
open Bits

/-- The value of a character: letters first, then the digits from two on. -/
def digit (c : Char) : Option Nat :=
  if 'A' ≤ c ∧ c ≤ 'Z' then some (c.toNat - 'A'.toNat)
  else if '2' ≤ c ∧ c ≤ '7' then some (c.toNat - '2'.toNat + 26)
  else none

/-- The values of the characters of a text. -/
def digits (text : List Char) : Option (List Nat) := text.mapM digit

/-- What a text spells. -/
def decode (text : List Char) : Option (List UInt8) :=
  (digits text).bind (fun values =>
    let bits := values.flatMap (bitsOf 5)
    let count := bits.length / 8
    let padding := bits.drop (8 * count)
    if padding = List.replicate padding.length false ∧ padding.length < 5 then
      some ((groups 8 count bits).map UInt8.ofNat)
    else none)

theorem digits_append {text more : List Char} {values others : List Nat} (read : digits text = some values)
    (then' : digits more = some others) : digits (text ++ more) = some (values ++ others) := by
  unfold digits at *
  rw [List.mapM_append,read,then']
  rfl

theorem digits_singleton {c : Char} {value : Nat} (read : digit c = some value) : digits [c] = some [value] := by
  unfold digits
  rw [List.mapM_cons,read]
  rfl

/-- A text that is read consists of characters of the alphabet, one for a value. -/
theorem digits_some {text : List Char} {values : List Nat} (read : digits text = some values) :
    text.length = values.length ∧ ∀ c ∈ text, (digit c).isSome := by
  induction text generalizing values with
  | nil =>
    cases read
    exact ⟨rfl,by simp⟩
  | cons c text ih =>
    unfold digits at read
    rw [List.mapM_cons] at read
    cases first : digit c with
    | none =>
      rw [first] at read
      cases read
    | some value =>
      cases others : text.mapM digit with
      | none =>
        rw [first,others] at read
        cases read
      | some rest =>
        rw [first,others] at read
        cases read
        obtain ⟨lengths,alphabet⟩ := ih others
        exact ⟨congrArg Nat.succ lengths,List.forall_mem_cons.mpr ⟨by rw [first]; rfl,alphabet⟩⟩

/-- A text with the bits of some bytes decodes to these bytes. -/
theorem decode_of_bits {text : List Char} {values : List Nat} {data : List UInt8} {padding : Nat}
    (read : digits text = some values)
    (bits : values.flatMap (bitsOf 5) = byteBits data ++ List.replicate padding false) (short : padding < 5) :
    decode text = some data := by
  have length : (byteBits data).length = 8 * data.length := length_byteBits data
  have count : (byteBits data ++ List.replicate padding false).length / 8 = data.length := by
    rw [List.length_append,length,List.length_replicate]
    omega
  have rest : (byteBits data ++ List.replicate padding false).drop (8 * data.length) = List.replicate padding false := by
    rw [← length,List.drop_left]
  have spelled : groups 8 data.length (byteBits data ++ List.replicate padding false) = data.map UInt8.toNat := by
    have small : ∀ n ∈ data.map UInt8.toNat, n < 2 ^ 8 := by
      intro n member
      obtain ⟨byte,_,rfl⟩ := List.mem_map.mp member
      exact byte.toNat_lt
    rw [byteBits_eq,← List.length_map UInt8.toNat]
    exact groups_flatMap small _
  have bytes : (data.map UInt8.toNat).map UInt8.ofNat = data := by
    rw [List.map_map]
    exact List.map_id'' (fun byte => UInt8.ofNat_toNat) data
  rw [decode,read,Option.bind_some]
  simp only [bits,count,rest,spelled,bytes,List.length_replicate]
  exact if_pos ⟨trivial,short⟩

end Helix.Base32
