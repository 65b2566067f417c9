import Mathlib.Algebra.Group.Nat.Defs
import Mathlib.Data.List.Induction
import Mathlib.Tactic.Common

/-!
Big-endian words and tuples of them, the layout of statically sized contract
parameters: every component fills one word of 32 bytes and nothing follows the
last. Reading inverts writing (`decode_encode`).
-/
namespace Helix.Abi

abbrev Word : Type := BitVec 256

/-- The lowest bytes of a number, most significant first. -/
def bigEndian : Nat → Nat → List UInt8
  | 0, _ => []
  | n + 1, x => bigEndian n (x / 256) ++ [UInt8.ofNat x]
/-- The number that bytes spell, most significant first. -/
def ofBigEndian (bytes : List UInt8) : Nat := bytes.foldl (fun x byte => x * 256 + byte.toNat) 0

@[simp] theorem length_bigEndian (n x : Nat) : (bigEndian n x).length = n := by
  induction n generalizing x with
  | zero => rfl
  | succ n ih => simp [bigEndian,ih]

theorem ofBigEndian_append (bytes : List UInt8) (byte : UInt8) :
    ofBigEndian (bytes ++ [byte]) = ofBigEndian bytes * 256 + byte.toNat := by
  simp [ofBigEndian]

theorem ofBigEndian_bigEndian {n x : Nat} (small : x < 256 ^ n) : ofBigEndian (bigEndian n x) = x := by
  induction n generalizing x with
  | zero =>
    have zero : x = 0 := by simpa using small
    rw [zero]
    rfl
  | succ n ih =>
    have above : x / 256 < 256 ^ n := Nat.div_lt_of_lt_mul (by rwa [← Nat.pow_succ'])
    rw [bigEndian,ofBigEndian_append,ih above]
    show x / 256 * 256 + x % 256 = x
    omega

theorem bigEndian_ofBigEndian (bytes : List UInt8) : bigEndian bytes.length (ofBigEndian bytes) = bytes := by
  induction bytes using List.reverseRecOn with
  | nil => rfl
  | append_singleton bytes byte ih =>
    have below := byte.toNat_lt
    have above : (ofBigEndian bytes * 256 + byte.toNat) / 256 = ofBigEndian bytes := by omega
    have last : UInt8.ofNat (ofBigEndian bytes * 256 + byte.toNat) = byte := by
      apply UInt8.toNat_inj.mp
      show (ofBigEndian bytes * 256 + byte.toNat) % 256 = byte.toNat
      omega
    rw [List.length_append,List.length_singleton,bigEndian,ofBigEndian_append,above,ih,last]

theorem ofBigEndian_lt (bytes : List UInt8) : ofBigEndian bytes < 256 ^ bytes.length := by
  induction bytes using List.reverseRecOn with
  | nil => simp [ofBigEndian]
  | append_singleton bytes byte ih =>
    have below := byte.toNat_lt
    rw [ofBigEndian_append,List.length_append,List.length_singleton,Nat.pow_succ]
    omega

theorem ofBigEndian_append_bytes (first second : List UInt8) :
    ofBigEndian (first ++ second) = ofBigEndian first * 256 ^ second.length + ofBigEndian second := by
  induction second using List.reverseRecOn with
  | nil => simp [ofBigEndian]
  | append_singleton second byte ih =>
    rw [← List.append_assoc,ofBigEndian_append,ofBigEndian_append,ih,List.length_append,List.length_singleton,Nat.pow_succ,
      Nat.add_mul,Nat.mul_assoc,Nat.add_assoc]

/-- The lowest bytes, after those above them. -/
theorem bigEndian_add (m n x : Nat) : bigEndian (m + n) x = bigEndian m (x / 256 ^ n) ++ bigEndian n x := by
  induction n generalizing x with
  | zero => simp [bigEndian]
  | succ n ih =>
    rw [← Nat.add_assoc,bigEndian,bigEndian,ih,Nat.div_div_eq_div_mul,Nat.pow_succ',List.append_assoc]

/-- Bytes that are written read back as the part of the number they have room for. -/
theorem ofBigEndian_bigEndian_mod (n x : Nat) : ofBigEndian (bigEndian n x) = x % 256 ^ n := by
  induction n generalizing x with
  | zero => simp [bigEndian,ofBigEndian,Nat.mod_one]
  | succ n ih =>
    rw [bigEndian,ofBigEndian_append,ih,Nat.pow_succ',Nat.mod_mul,UInt8.toNat_ofNat']
    omega

/-- The bytes of a word. -/
def wordBytes (word : Word) : List UInt8 := bigEndian 32 word.toNat
/-- The word that bytes spell. -/
def readWord (bytes : List UInt8) : Word := BitVec.ofNat 256 (ofBigEndian bytes)

@[simp] theorem length_wordBytes (word : Word) : (wordBytes word).length = 32 := length_bigEndian _ _

theorem readWord_wordBytes (word : Word) : readWord (wordBytes word) = word := by
  have bound : word.toNat < 256 ^ 32 := word.isLt
  rw [readWord,wordBytes,ofBigEndian_bigEndian bound,BitVec.ofNat_toNat,BitVec.setWidth_eq]

theorem wordBytes_readWord {bytes : List UInt8} (full : bytes.length = 32) : wordBytes (readWord bytes) = bytes := by
  have bound : ofBigEndian bytes < 2 ^ 256 := by
    have below := ofBigEndian_lt bytes
    rwa [full] at below
  rw [wordBytes,readWord,BitVec.toNat_ofNat,Nat.mod_eq_of_lt bound,← full]
  exact bigEndian_ofBigEndian bytes

/-- A tuple of words. -/
def encode (words : List Word) : List UInt8 := words.flatMap wordBytes
/-- The words of a tuple, when the bytes are exactly that many words. -/
def decode : Nat → List UInt8 → Option (List Word)
  | 0, bytes => if bytes = [] then some [] else none
  | n + 1, bytes =>
    if bytes.length < 32 then none
    else (decode n (bytes.drop 32)).map (fun words => readWord (bytes.take 32) :: words)

theorem decode_encode (words : List Word) : decode words.length (encode words) = some words := by
  induction words with
  | nil => rfl
  | cons word rest ih =>
    have long : ¬ (wordBytes word ++ encode rest).length < 32 := by simp
    have first : (wordBytes word ++ encode rest).take 32 = wordBytes word := by
      rw [List.take_append_of_le_length (by simp),List.take_of_length_le (by simp)]
    have others : (wordBytes word ++ encode rest).drop 32 = encode rest := by
      rw [List.drop_append_of_le_length (by simp),List.drop_eq_nil_of_le (by simp),List.nil_append]
    show decode (rest.length + 1) (wordBytes word ++ encode rest) = some (word :: rest)
    rw [decode,if_neg long,others,ih,first,readWord_wordBytes]
    rfl

/-- What reads as a tuple is the tuple written. -/
theorem encode_of_decode {n : Nat} {bytes : List UInt8} {words : List Word} (read : decode n bytes = some words) :
    encode words = bytes := by
  induction n generalizing bytes words with
  | zero =>
    rw [decode] at read
    split at read
    · rename_i empty
      cases read
      exact empty.symm
    · cases read
  | succ n ih =>
    rw [decode] at read
    split at read
    · cases read
    · rename_i long
      obtain ⟨rest,others,rfl⟩ := Option.map_eq_some_iff.mp read
      have full : (bytes.take 32).length = 32 := by
        rw [List.length_take]
        omega
      show wordBytes (readWord (bytes.take 32)) ++ encode rest = bytes
      rw [wordBytes_readWord full,ih others,List.take_append_drop]

theorem length_encode (words : List Word) : (encode words).length = 32 * words.length := by
  induction words with
  | nil => rfl
  | cons word rest ih =>
    show (wordBytes word ++ encode rest).length = 32 * (rest.length + 1)
    rw [List.length_append,length_wordBytes,ih]
    omega

end Helix.Abi
