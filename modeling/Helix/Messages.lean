import Helix.Abi
import Helix.Host
import Helix.Integers

/-!
The messages of `contracts/bridge-handler` and the conversions between their
unsigned words and the amounts of the contracts. The code generated for the
message types is not part of the repository: `SolCodec` is what the contract
calls of it, and `abiCodec` the one that follows the layout of `Helix.Abi`.
-/
namespace Helix

abbrev U256 : Type := Abi.Word

structure DepositMessage where
  messageType : UInt8
  stellarRecipient : BytesN 32
  shares : U256
  nonce : U256
  deriving DecidableEq

structure WithdrawMessage where
  messageType : UInt8
  ethRecipient : BytesN 32
  shares : U256
  nonce : U256
  deriving DecidableEq

structure YieldUpdateMessage where
  messageType : UInt8
  exchangeRate : U256
  timestamp : U256
  nonce : U256
  deriving DecidableEq

/-- The generated codec. The contract decodes what arrives and encodes what
    leaves; `decode_withdraw` is how the other side reads the latter. -/
structure SolCodec where
  decode_deposit : Bytes → Option DepositMessage
  decode_yield_update : Bytes → Option YieldUpdateMessage
  encode_withdraw : WithdrawMessage → Bytes
  decode_withdraw : Bytes → Option WithdrawMessage

/-- Reading a withdrawal gives back what was written. -/
def SolCodec.RoundTrips (codec : SolCodec) : Prop :=
  ∀ message, codec.decode_withdraw (codec.encode_withdraw message) = some message

/-! ### Amounts -/

/-- Both halves of the word are read as signed numbers: the upper one has to be
    zero and the lower one not negative. -/
def u256_to_i128 (value : U256) : Option Int :=
  let low := (value.extractLsb' 0 128).toInt
  let high := (value.extractLsb' 128 128).toInt
  if high ≠ 0 then none else if low < 0 then none else some low

def i128_to_u256 (value : Int) : Option U256 :=
  if 0 ≤ value then some (BitVec.ofNat 256 value.toNat) else none

/-- A word converts to an amount exactly when it is the amount's own word. -/
theorem u256_to_i128_some {value : U256} {amount : Int} :
    u256_to_i128 value = some amount ↔ 0 ≤ amount ∧ amount ≤ i128Max ∧ (value.toNat : Int) = amount := by
  have bound : value.toNat < 2 ^ 256 := value.isLt
  have lower : (value.extractLsb' 0 128).toNat = value.toNat % 2 ^ 128 := by
    rw [BitVec.extractLsb'_toNat,Nat.shiftRight_zero]
  have upper : (value.extractLsb' 128 128).toNat = value.toNat / 2 ^ 128 := by
    rw [BitVec.extractLsb'_toNat,Nat.shiftRight_eq_div_pow]
    omega
  simp only [u256_to_i128,BitVec.toInt_eq_toNat_cond,lower,upper,i128Max]
  split_ifs <;> simp only [Option.some.injEq,false_iff] <;> omega

/-- An amount survives the way out and back. -/
theorem u256_of_i128 {amount : Int} {value : U256} (small : amount ≤ i128Max)
    (converted : i128_to_u256 amount = some value) : u256_to_i128 value = some amount := by
  unfold i128_to_u256 at converted
  split at converted
  · rename_i nonneg
    cases converted
    refine u256_to_i128_some.mpr ⟨nonneg,small,?_⟩
    simp only [i128Max] at small
    rw [BitVec.toNat_ofNat]
    omega
  · cases converted

/-! ### The layout -/

def ofByte (byte : UInt8) : U256 := BitVec.ofNat 256 byte.toNat

/-- A word that holds one byte. -/
def toByte (word : U256) : Option UInt8 := if word.toNat < 256 then some (UInt8.ofNat word.toNat) else none

def ofBytes32 (bytes : BytesN 32) : U256 := Abi.readWord bytes.val
def toBytes32 (word : U256) : BytesN 32 := ⟨Abi.wordBytes word,Abi.length_wordBytes word⟩

@[simp] theorem toByte_ofByte (byte : UInt8) : toByte (ofByte byte) = some byte := by
  have bound := byte.toNat_lt
  have small : (ofByte byte).toNat = byte.toNat := by
    rw [ofByte,BitVec.toNat_ofNat]
    omega
  rw [toByte,small,if_pos bound,UInt8.ofNat_toNat]

@[simp] theorem toBytes32_ofBytes32 (bytes : BytesN 32) : toBytes32 (ofBytes32 bytes) = bytes :=
  Subtype.ext (Abi.wordBytes_readWord bytes.property)

/-- The four words of a message whose first is a byte. -/
def readTuple {M : Type} (make : UInt8 → U256 → U256 → U256 → M) (payload : Bytes) : Option M :=
  match Abi.decode 4 payload with
  | some [kind, first, second, third] => (toByte kind).map (fun byte => make byte first second third)
  | _ => none

theorem ofByte_toByte {word : U256} {byte : UInt8} (read : toByte word = some byte) : ofByte byte = word := by
  unfold toByte at read
  split at read
  · rename_i small
    cases read
    apply BitVec.eq_of_toNat_eq
    have kept : (UInt8.ofNat word.toNat).toNat = word.toNat := Nat.mod_eq_of_lt small
    rw [ofByte,BitVec.toNat_ofNat,kept,Nat.mod_eq_of_lt word.isLt]
  · cases read

@[simp] theorem ofBytes32_toBytes32 (word : U256) : ofBytes32 (toBytes32 word) = word := Abi.readWord_wordBytes word

theorem readTuple_encode {M : Type} (make : UInt8 → U256 → U256 → U256 → M) (byte : UInt8)
    (first second third : U256) :
    readTuple make (Abi.encode [ofByte byte,first,second,third]) = some (make byte first second third) := by
  have words := Abi.decode_encode [ofByte byte,first,second,third]
  rw [readTuple,show Abi.decode 4 (Abi.encode [ofByte byte,first,second,third]) = _ from words]
  simp

/-- Only the encoding of a tuple is read as one. -/
theorem encode_of_readTuple {M : Type} {make : UInt8 → U256 → U256 → U256 → M} {payload : Bytes} {message : M}
    (read : readTuple make payload = some message) :
    ∃ byte first second third, payload = Abi.encode [ofByte byte,first,second,third] ∧
      make byte first second third = message := by
  unfold readTuple at read
  split at read
  · rename_i kind first second third decoded
    obtain ⟨byte,typed,rfl⟩ := Option.map_eq_some_iff.mp read
    refine ⟨byte,first,second,third,?_,rfl⟩
    rw [ofByte_toByte typed,Abi.encode_of_decode decoded]
  · cases read

/-- The codec that follows the layout. -/
def abiCodec : SolCodec where
  decode_deposit := readTuple (fun kind recipient shares nonce => ⟨kind,toBytes32 recipient,shares,nonce⟩)
  decode_yield_update := readTuple (fun kind rate timestamp nonce => ⟨kind,rate,timestamp,nonce⟩)
  encode_withdraw message :=
    Abi.encode [ofByte message.messageType,ofBytes32 message.ethRecipient,message.shares,message.nonce]
  decode_withdraw := readTuple (fun kind recipient shares nonce => ⟨kind,toBytes32 recipient,shares,nonce⟩)

/-! ### Canonical encodings -/

def DepositMessage.words (message : DepositMessage) : List U256 :=
  [ofByte message.messageType,ofBytes32 message.stellarRecipient,message.shares,message.nonce]
def WithdrawMessage.words (message : WithdrawMessage) : List U256 :=
  [ofByte message.messageType,ofBytes32 message.ethRecipient,message.shares,message.nonce]
def YieldUpdateMessage.words (message : YieldUpdateMessage) : List U256 :=
  [ofByte message.messageType,message.exchangeRate,message.timestamp,message.nonce]

/-- A codec that validates: it writes the words of a message one after the
    other, and reads a message from exactly what it would write for it. -/
structure SolCodec.Canonical (codec : SolCodec) : Prop where
  deposit : ∀ payload message, codec.decode_deposit payload = some message ↔ payload = Abi.encode message.words
  yield_update : ∀ payload message, codec.decode_yield_update payload = some message ↔ payload = Abi.encode message.words
  withdraw : ∀ payload message, codec.decode_withdraw payload = some message ↔ payload = Abi.encode message.words
  encodes : ∀ message, codec.encode_withdraw message = Abi.encode message.words

/-- A reader of tuples that takes a message apart the way it puts it together. -/
theorem readTuple_some {M : Type} {make : UInt8 → U256 → U256 → U256 → M} {words : M → List U256}
    (written : ∀ byte first second third, words (make byte first second third) = [ofByte byte,first,second,third])
    (built : ∀ message, ∃ byte first second third, make byte first second third = message) (payload : Bytes)
    (message : M) : readTuple make payload = some message ↔ payload = Abi.encode (words message) := by
  constructor
  · intro read
    obtain ⟨byte,first,second,third,same,made⟩ := encode_of_readTuple read
    rw [same,← made,written]
  · intro same
    obtain ⟨byte,first,second,third,made⟩ := built message
    rw [same,← made,written,readTuple_encode]

theorem abiCodec_canonical : abiCodec.Canonical where
  deposit := readTuple_some (fun _ _ _ _ => by rw [DepositMessage.words,ofBytes32_toBytes32])
    (fun message => ⟨message.messageType,ofBytes32 message.stellarRecipient,message.shares,message.nonce,
      by rw [toBytes32_ofBytes32]⟩)
  yield_update := readTuple_some (fun _ _ _ _ => rfl)
    (fun message => ⟨message.messageType,message.exchangeRate,message.timestamp,message.nonce,rfl⟩)
  withdraw := readTuple_some (fun _ _ _ _ => by rw [WithdrawMessage.words,ofBytes32_toBytes32])
    (fun message => ⟨message.messageType,ofBytes32 message.ethRecipient,message.shares,message.nonce,
      by rw [toBytes32_ofBytes32]⟩)
  encodes := fun message => by simp only [abiCodec,WithdrawMessage.words]

theorem abiCodec_roundTrips : abiCodec.RoundTrips := by
  intro message
  simp only [abiCodec,readTuple_encode,toBytes32_ofBytes32]

end Helix
