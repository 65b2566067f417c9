import Helix.Base32
import Helix.BridgeSystem
import Helix.Crc

/-!
The text of a contract id is read back. The encoder's shift register never drops
a bit it has not written yet (`loop_bits`), and a step by the table is eight steps
of the checksum (`crc16_step_eq`), so what a strkey stands for is the id that it
was made of (`strkey_faithful`).
-/
namespace Helix.Strkey
open Bits

/-! ### The groups of five bits -/

theorem digit_alphabet : ∀ value < 32, Base32.digit (BASE32_ALPHABET.getD value 'A') = some value := by decide

theorem digit_char (index : UInt32) : Base32.digit (base32_char index) = some (index.toNat % 32) := by
  have masked : (index &&& 0x1f).toNat = index.toNat % 32 := by
    rw [UInt32.toNat_and]
    exact Nat.and_two_pow_sub_one_eq_mod index.toNat 5
  rw [base32_char,masked]
  exact digit_alphabet _ (Nat.mod_lt _ (by decide))

theorem bitsOf_mod (w n : Nat) : bitsOf w (n % 2 ^ w) = bitsOf w n := by
  apply bitsOf_congr
  intro i below
  rw [Nat.testBit_mod_two_pow]
  simp [below]

/-- The inner loop writes the upper bits of the buffer and keeps the others. -/
theorem emit_bits (buffer : UInt32) {bits_left : Nat} (fits : bits_left < 37) :
    ∃ values, Base32.digits (emit buffer bits_left) = some values ∧
      values.flatMap (bitsOf 5) ++ bitsOf (bits_left % 5) buffer.toNat = bitsOf bits_left buffer.toNat := by
  fun_induction emit buffer bits_left with
  | case1 bits_left ih =>
    obtain ⟨values,read,bits⟩ := ih (by omega)
    have shifted : (buffer >>> UInt32.ofNat bits_left).toNat = buffer.toNat >>> bits_left := by
      rw [UInt32.toNat_shiftRight,UInt32.toNat_ofNat']
      congr 1
      omega
    have group : bitsOf 5 ((buffer >>> UInt32.ofNat bits_left).toNat % 32) = bitsOf 5 (buffer.toNat >>> bits_left) := by
      rw [shifted]
      exact bitsOf_mod 5 _
    refine ⟨((buffer >>> UInt32.ofNat bits_left).toNat % 32) :: values,
      Base32.digits_append (Base32.digits_singleton (digit_char _)) read,?_⟩
    have rest : (bits_left + 5) % 5 = bits_left % 5 := Nat.add_mod_right bits_left 5
    show _ ++ bitsOf ((bits_left + 5) % 5) buffer.toNat = bitsOf (bits_left + 5) buffer.toNat
    rw [List.flatMap_cons,group,List.append_assoc,rest,bits,Nat.add_comm bits_left 5,bitsOf_add]
  | case2 bits_left few =>
    have small : bits_left % 5 = bits_left := by
      apply Nat.mod_eq_of_lt
      by_contra many
      exact few (bits_left - 5) (by omega)
    exact ⟨[],rfl,by rw [small]; rfl⟩

/-- One more byte below the bits that are not written yet. -/
theorem filled_bits (buffer : UInt32) (byte : UInt8) {bits_left : Nat} (few : bits_left < 5) :
    bitsOf (bits_left + 8) ((buffer <<< 8) ||| byte.toUInt32).toNat =
      bitsOf bits_left buffer.toNat ++ bitsOf 8 byte.toNat := by
  have bound := byte.toNat_lt
  have value : ((buffer <<< 8) ||| byte.toUInt32).toNat = (buffer.toNat <<< 8) % 2 ^ 32 ||| byte.toNat := by
    rw [UInt32.toNat_or,UInt32.toNat_shiftLeft,UInt8.toNat_toUInt32]
    rfl
  have high : ∀ i, 8 ≤ i → byte.toNat.testBit i = false := fun i above =>
    Nat.testBit_lt_two_pow (Nat.lt_of_lt_of_le bound (Nat.pow_le_pow_right (by decide) above))
  rw [bitsOf_add]
  congr 1
  · apply bitsOf_congr
    intro i below
    rw [value,Nat.testBit_shiftRight,Nat.testBit_or,Nat.testBit_mod_two_pow,Nat.testBit_shiftLeft,high _ (by omega)]
    have inside : 8 + i < 32 := by omega
    simp [inside]
  · apply bitsOf_congr
    intro i below
    rw [value,Nat.testBit_or,Nat.testBit_mod_two_pow,Nat.testBit_shiftLeft]
    have under : ¬ 8 ≤ i := by omega
    simp [under]

/-- The last group is filled up with zeros. -/
theorem padded_bits (buffer : UInt32) {bits_left : Nat} (few : bits_left < 5) :
    bitsOf 5 ((buffer <<< UInt32.ofNat (5 - bits_left)).toNat % 32) =
      bitsOf bits_left buffer.toNat ++ List.replicate (5 - bits_left) false := by
  have value : (buffer <<< UInt32.ofNat (5 - bits_left)).toNat = (buffer.toNat <<< (5 - bits_left)) % 2 ^ 32 := by
    rw [UInt32.toNat_shiftLeft,UInt32.toNat_ofNat']
    congr 2
    omega
  rw [show (32 : Nat) = 2 ^ 5 from rfl,bitsOf_mod,value]
  have split : bitsOf 5 ((buffer.toNat <<< (5 - bits_left)) % 2 ^ 32) =
      bitsOf (bits_left + (5 - bits_left)) ((buffer.toNat <<< (5 - bits_left)) % 2 ^ 32) := by
    rw [show bits_left + (5 - bits_left) = 5 by omega]
  rw [split,bitsOf_add,← bitsOf_zero]
  congr 1
  · apply bitsOf_congr
    intro i below
    rw [Nat.testBit_shiftRight,Nat.testBit_mod_two_pow,Nat.testBit_shiftLeft]
    have inside : 5 - bits_left + i < 32 := by omega
    simp [inside]
  · apply bitsOf_congr
    intro i below
    rw [Nat.testBit_mod_two_pow,Nat.testBit_shiftLeft,Nat.zero_testBit]
    have under : ¬ 5 - bits_left ≤ i := by omega
    simp [under]

/-- The outer loop writes the bits still in the buffer and those of the bytes. -/
theorem loop_bits (buffer : UInt32) {bits_left : Nat} (few : bits_left < 5) (data : List UInt8) :
    ∃ values padding, Base32.digits (base32_loop buffer bits_left data) = some values ∧ padding < 5 ∧
      values.flatMap (bitsOf 5) = bitsOf bits_left buffer.toNat ++ byteBits data ++ List.replicate padding false := by
  induction data generalizing buffer bits_left with
  | nil =>
    by_cases pending : 0 < bits_left
    · refine ⟨[(buffer <<< UInt32.ofNat (5 - bits_left)).toNat % 32],5 - bits_left,?_,by omega,?_⟩
      · rw [base32_loop,if_pos pending]
        exact Base32.digits_singleton (digit_char _)
      · rw [List.flatMap_singleton,padded_bits buffer few,byteBits,List.flatMap_nil,List.append_nil]
    · have empty : bits_left = 0 := by omega
      refine ⟨[],0,?_,by omega,?_⟩
      · rw [base32_loop,if_neg pending]
        rfl
      · rw [empty]
        rfl
  | cons byte data ih =>
    have more : bits_left + 8 < 37 := by omega
    obtain ⟨values,read,bits⟩ := emit_bits ((buffer <<< 8) ||| byte.toUInt32) more
    obtain ⟨others,padding,rest,short,tail⟩ := ih ((buffer <<< 8) ||| byte.toUInt32)
      (Nat.mod_lt (bits_left + 8) (by decide))
    refine ⟨values ++ others,padding,Base32.digits_append read rest,short,?_⟩
    rw [List.flatMap_append,tail,← List.append_assoc,← List.append_assoc,bits,filled_bits buffer byte few,
      List.append_assoc (bitsOf bits_left buffer.toNat)]
    rfl

/-- The characters of an encoding carry the bits of the bytes and fewer than
    five zeros. -/
theorem base32_bits (data : List UInt8) :
    ∃ values padding, Base32.digits (base32_encode_no_pad data).toList = some values ∧ padding < 5 ∧
      values.flatMap (bitsOf 5) = byteBits data ++ List.replicate padding false := by
  rw [base32_encode_no_pad,String.toList_ofList]
  exact loop_bits 0 (by decide) data

theorem base32_decode (data : List UInt8) : Base32.decode (base32_encode_no_pad data).toList = some data := by
  obtain ⟨values,padding,read,short,bits⟩ := base32_bits data
  exact Base32.decode_of_bits read bits short

/-! ### Between two bytes -/

/-- The encoder between two bytes: what is written, the buffer, and how many bits of
    the buffer are not written yet. -/
structure Encoding where
  text : List Char
  buffer : UInt32
  bits_left : Nat

namespace Encoding

/-- The buffer with one more byte. -/
def filled (e : Encoding) (byte : UInt8) : UInt32 := (e.buffer <<< 8) ||| byte.toUInt32

/-- The body of the outer loop. -/
def push (e : Encoding) (byte : UInt8) : Encoding :=
  ⟨e.text ++ emit (e.filled byte) (e.bits_left + 8),e.filled byte,(e.bits_left + 8) % 5⟩

/-- What is written and what is left of the buffer are together some bits. -/
structure Holds (e : Encoding) (bits : List Bool) : Prop where
  few : e.bits_left < 5
  kept : ∃ values, Base32.digits e.text = some values ∧
    values.flatMap (bitsOf 5) ++ bitsOf e.bits_left e.buffer.toNat = bits

theorem Holds.push {e : Encoding} {bits : List Bool} (holds : e.Holds bits) (byte : UInt8) :
    (e.push byte).Holds (bits ++ bitsOf 8 byte.toNat) := by
  obtain ⟨few,values,read,kept⟩ := holds
  have more : e.bits_left + 8 < 37 := by omega
  obtain ⟨others,written,groups⟩ := emit_bits (e.filled byte) more
  refine ⟨Nat.mod_lt _ (by decide),values ++ others,Base32.digits_append read written,?_⟩
  show (values ++ others).flatMap (bitsOf 5) ++ bitsOf ((e.bits_left + 8) % 5) (e.filled byte).toNat = _
  rw [List.flatMap_append,List.append_assoc,groups,filled,filled_bits e.buffer byte few,← List.append_assoc,kept]

end Encoding

/-- The encoder after some bytes. -/
def encoding (data : List UInt8) : Encoding := data.foldl Encoding.push ⟨[],0,0⟩

theorem encoding_concat (data : List UInt8) (byte : UInt8) : encoding (data ++ [byte]) = (encoding data).push byte :=
  List.foldl_append

theorem encoding_holds (data : List UInt8) : (encoding data).Holds (byteBits data) := by
  induction data using List.reverseRecOn with
  | nil => exact ⟨by decide,[],rfl,rfl⟩
  | append_singleton data byte ih =>
    have bits : byteBits (data ++ [byte]) = byteBits data ++ bitsOf 8 byte.toNat := by
      rw [byteBits,List.flatMap_append,List.flatMap_singleton]
      rfl
    rw [encoding_concat,bits]
    exact ih.push byte

/-- What is written after some bytes stays, and the loop goes on with the buffer. -/
theorem encode_after (read rest : List UInt8) : (base32_encode_no_pad (read ++ rest)).toList =
    (encoding read).text ++ base32_loop (encoding read).buffer (encoding read).bits_left rest := by
  induction read using List.reverseRecOn generalizing rest with
  | nil => exact String.toList_ofList
  | append_singleton read byte ih =>
    rw [List.append_assoc,List.singleton_append,ih,encoding_concat]
    exact (List.append_assoc _ _ _).symm

/-- The encoder writes the bits of its input in groups of five, the last one filled
    up with zeros. Between two bytes, what it wrote and the bits left in the buffer
    are those read so far, and the next byte pushes none of them out. -/
theorem base32_encodes (data : List UInt8) :
    (∃ values padding, Base32.digits (base32_encode_no_pad data).toList = some values ∧ padding < 5 ∧
      values.flatMap (bitsOf 5) = byteBits data ++ List.replicate padding false) ∧
    (base32_encode_no_pad data).length = (8 * data.length + 4) / 5 ∧
    (∀ c ∈ (base32_encode_no_pad data).toList, (Base32.digit c).isSome) ∧
    (∀ read rest, data = read ++ rest → (encoding read).Holds (byteBits read) ∧
      (base32_encode_no_pad data).toList =
        (encoding read).text ++ base32_loop (encoding read).buffer (encoding read).bits_left rest ∧
      (encoding read).bits_left + 8 ≤ 32 ∧
      ∀ byte, bitsOf ((encoding read).bits_left + 8) ((encoding read).filled byte).toNat =
        bitsOf (encoding read).bits_left (encoding read).buffer.toNat ++ bitsOf 8 byte.toNat) ∧
    Base32.decode (base32_encode_no_pad data).toList = some data := by
  obtain ⟨values,padding,read,short,bits⟩ := base32_bits data
  obtain ⟨count,alphabet⟩ := Base32.digits_some read
  refine ⟨⟨values,padding,read,short,bits⟩,?_,alphabet,?_,base32_decode data⟩
  · have sizes := congrArg List.length bits
    rw [length_flatMap_bitsOf,List.length_append,length_byteBits,List.length_replicate] at sizes
    have groups : (base32_encode_no_pad data).length = values.length := by rw [← count,String.length_toList]
    rw [groups]
    omega
  · rintro front rest rfl
    have holds := encoding_holds front
    have few := holds.few
    exact ⟨holds,encode_after front rest,by omega,fun byte => filled_bits (encoding front).buffer byte few⟩

/-! ### The checksum -/

/-- Every entry of the table is the checksum of its index. -/
theorem table_entries :
    ∀ index < 256, (CRC16_TABLE.getD index 0).toBitVec = Crc.checksum 0x1021 0 (bitsOf 8 index) := by decide +kernel

/-- A step by the table feeds the bits of a byte. -/
theorem crc16_step_eq (crc : UInt16) (byte : UInt8) :
    (crc16_step crc byte).toBitVec = Crc.checksum 0x1021 crc.toBitVec (bitsOf 8 byte.toNat) := by
  have top : crc.toNat >>> 8 < 2 ^ 8 := by
    have bound := crc.toNat_lt
    rw [Nat.shiftRight_eq_div_pow]
    omega
  have index : ((crc >>> 8).toUInt8 ^^^ byte).toNat = (crc.toNat >>> 8) ^^^ byte.toNat := by
    rw [UInt8.toNat_xor,UInt16.toNat_toUInt8,UInt16.toNat_shiftRight]
    congr 1
    exact Nat.mod_eq_of_lt top
  rw [Crc.checksum_group 0x1021 crc.toBitVec (by decide) byte.toNat,crc16_step,UInt16.toBitVec_xor,index]
  show _ ^^^ (CRC16_TABLE.getD (crc.toNat >>> 8 ^^^ byte.toNat) 0).toBitVec =
    _ ^^^ Crc.checksum 0x1021 0 (bitsOf 8 (crc.toNat >>> 8 ^^^ byte.toNat))
  rw [table_entries _ (Nat.xor_lt_two_pow top byte.toNat_lt)]
  rfl

theorem crc16_fold (crc : UInt16) (data : List UInt8) :
    (data.foldl crc16_step crc).toBitVec = Crc.checksum 0x1021 crc.toBitVec (byteBits data) := by
  induction data generalizing crc with
  | nil => rfl
  | cons byte data ih =>
    rw [List.foldl_cons,ih,crc16_step_eq]
    exact List.foldl_append.symm

/-- The checksum that is written is the one of the bytes, lower byte first. -/
theorem crc16_xmodem_eq (data : List UInt8) : crc16_xmodem data = Crc.littleEndian (Crc.xmodem data) := by
  have checksum : (data.foldl crc16_step 0).toBitVec = Crc.xmodem data := crc16_fold 0 data
  rw [Crc.littleEndian,← checksum,crc16_xmodem]
  generalize data.foldl crc16_step 0 = crc
  have low : (crc &&& 0xff).toUInt8 = UInt8.ofNat crc.toNat := by
    apply UInt8.toNat_inj.mp
    have masked : crc.toNat &&& 255 = crc.toNat % 2 ^ 8 := Nat.and_two_pow_sub_one_eq_mod crc.toNat 8
    rw [UInt16.toNat_toUInt8,UInt16.toNat_and,UInt8.toNat_ofNat']
    show (crc.toNat &&& 255) % 2 ^ 8 = crc.toNat % 2 ^ 8
    rw [masked,Nat.mod_mod]
  have high : (crc >>> 8).toUInt8 = UInt8.ofNat (crc.toNat / 256) := by
    apply UInt8.toNat_inj.mp
    rw [UInt16.toNat_toUInt8,UInt16.toNat_shiftRight,UInt8.toNat_ofNat']
    show crc.toNat >>> 8 % 2 ^ 8 = crc.toNat / 2 ^ 8 % 2 ^ 8
    rw [Nat.shiftRight_eq_div_pow]
  exact congrArg₂ (fun a b => [a,b]) low high

/-- Every register takes a byte of the table as it takes its bits one by one, and the
    two bytes that are written are those of the bitwise checksum, lower byte first. -/
theorem crc16_bit_by_bit :
    (∀ (crc : UInt16) (byte : UInt8),
      (crc16_step crc byte).toBitVec = Crc.checksum 0x1021 crc.toBitVec (bitsOf 8 byte.toNat)) ∧
    ∀ data, ∃ low high : UInt8, crc16_xmodem data = [low,high] ∧ high.toBitVec ++ low.toBitVec = Crc.xmodem data := by
  refine ⟨crc16_step_eq,fun data => ⟨_,_,crc16_xmodem_eq data,?_⟩⟩
  apply BitVec.eq_of_toNat_eq
  have bound := (Crc.xmodem data).isLt
  rw [BitVec.toNat_append]
  show (UInt8.ofNat ((Crc.xmodem data).toNat / 256)).toNat <<< 8 ||| (UInt8.ofNat (Crc.xmodem data).toNat).toNat = _
  rw [UInt8.toNat_ofNat',UInt8.toNat_ofNat',← Nat.shiftLeft_add_eq_or_of_lt (Nat.mod_lt _ (by decide)),
    Nat.shiftLeft_eq]
  omega

/-! ### The text of an id -/

/-- What a strkey of a contract stands for: 35 bytes, of which the first is the
    version and the last two are the checksum of the others. -/
def decode_contract (text : String) : Option (BytesN 32) :=
  (Base32.decode text.toList).bind (fun bytes =>
    if valid : bytes.length = 35 ∧ bytes.head? = some 16 ∧
        bytes.drop 33 = Crc.littleEndian (Crc.xmodem (bytes.take 33)) then
      some ⟨(bytes.drop 1).take 32,by
        rw [List.length_take,List.length_drop,valid.1]
        rfl⟩
    else none)

/-- The bytes that a strkey is made of. -/
def strkeyBytes (contract_id : BytesN 32) : List UInt8 :=
  STRKEY_CONTRACT_VERSION_BYTE :: contract_id.val ++ crc16_xmodem (STRKEY_CONTRACT_VERSION_BYTE :: contract_id.val)

theorem length_strkeyBytes (contract_id : BytesN 32) : (strkeyBytes contract_id).length = 35 := by
  rw [strkeyBytes,List.length_append,List.length_cons,contract_id.property]
  rfl

theorem strkey_length (contract_id : BytesN 32) : (contract_id_to_strkey contract_id).length = 56 := by
  obtain ⟨values,padding,read,short,bits⟩ := base32_bits (strkeyBytes contract_id)
  have sizes := congrArg List.length bits
  rw [length_flatMap_bitsOf,List.length_append,length_byteBits,length_strkeyBytes,List.length_replicate] at sizes
  have count : (contract_id_to_strkey contract_id).toList.length = values.length := (Base32.digits_some read).1
  rw [← String.length_toList,count]
  omega

theorem strkey_alphabet (contract_id : BytesN 32) :
    ∀ c ∈ (contract_id_to_strkey contract_id).toList, (Base32.digit c).isSome := by
  obtain ⟨values,padding,read,_⟩ := base32_bits (strkeyBytes contract_id)
  exact (Base32.digits_some read).2

/-- The id is read back from its text. -/
theorem decode_strkey (contract_id : BytesN 32) :
    decode_contract (contract_id_to_strkey contract_id) = some contract_id := by
  have front : (strkeyBytes contract_id).take 33 = STRKEY_CONTRACT_VERSION_BYTE :: contract_id.val :=
    List.take_left' (by rw [List.length_cons,contract_id.property])
  have back : (strkeyBytes contract_id).drop 33 = crc16_xmodem (STRKEY_CONTRACT_VERSION_BYTE :: contract_id.val) :=
    List.drop_left' (by rw [List.length_cons,contract_id.property])
  have id : ((strkeyBytes contract_id).drop 1).take 32 = contract_id.val :=
    List.take_left' contract_id.property
  have valid : (strkeyBytes contract_id).length = 35 ∧ (strkeyBytes contract_id).head? = some 16 ∧
      (strkeyBytes contract_id).drop 33 = Crc.littleEndian (Crc.xmodem ((strkeyBytes contract_id).take 33)) :=
    ⟨length_strkeyBytes contract_id,rfl,by rw [front,back,crc16_xmodem_eq]⟩
  have decoded : Base32.decode (contract_id_to_strkey contract_id).toList = some (strkeyBytes contract_id) :=
    base32_decode (strkeyBytes contract_id)
  rw [decode_contract,decoded,Option.bind_some,dif_pos valid]
  exact congrArg some (Subtype.ext id)

/-- A host that reads strkeys: the text of a contract is its address. -/
def ReadsStrkeys (address_from_str : String → Option Address) : Prop :=
  ∀ text contract_id, decode_contract text = some contract_id →
    address_from_str text = some (.contract contract_id)

/-- A recipient without a mapping is the contract its bytes name. -/
theorem bytes32_to_address_ok {prim : Bridge.Primitives} (reads : ReadsStrkeys prim.address_from_str) {W : Type}
    (s : World Bridge.BridgeHandler W) (contract_id : BytesN 32) :
    Bridge.bytes32_to_address prim contract_id s = .ok (.contract contract_id, s) := by
  rw [Bridge.bytes32_to_address,Invoke.need_ok]
  exact ⟨reads _ _ (decode_strkey contract_id),rfl⟩

/-- The text of every contract id is a strkey from which the id is read back,
    the texts of two ids differ, and on a host that reads strkeys so do the
    addresses they are minted to. -/
theorem strkey_faithful {prim : Bridge.Primitives} (reads : ReadsStrkeys prim.address_from_str) :
    (∀ contract_id : BytesN 32, (contract_id_to_strkey contract_id).length = 56 ∧
      (∀ c ∈ (contract_id_to_strkey contract_id).toList, (Base32.digit c).isSome) ∧
      decode_contract (contract_id_to_strkey contract_id) = some contract_id) ∧
    (∀ contract_id other : BytesN 32, contract_id ≠ other →
      contract_id_to_strkey contract_id ≠ contract_id_to_strkey other) ∧
    ∀ (W : Type) (s : World Bridge.BridgeHandler W) (contract_id other : BytesN 32), contract_id ≠ other →
      ∃ a b, Bridge.bytes32_to_address prim contract_id s = .ok (a, s) ∧
        Bridge.bytes32_to_address prim other s = .ok (b, s) ∧ a = .contract contract_id ∧ a ≠ b := by
  refine ⟨?_,?_,?_⟩
  · intro contract_id
    exact ⟨strkey_length contract_id,strkey_alphabet contract_id,decode_strkey contract_id⟩
  · intro contract_id other differ same
    have decoded := decode_strkey contract_id
    rw [same,decode_strkey other] at decoded
    exact differ (Option.some.inj decoded).symm
  · intro W s contract_id other differ
    exact ⟨_,_,bytes32_to_address_ok reads s contract_id,bytes32_to_address_ok reads s other,rfl,
      fun same => differ (Address.contract.inj same)⟩

namespace Small

/-- A host that reads strkeys. -/
def primitives : Bridge.Primitives :=
  { Bridge.Small.primitives with address_from_str := fun text => (decode_contract text).map Address.contract }

/-- The id of the gas token. -/
def native : BytesN 32 := toBytes32 0xd7928b72c2703ccfeaf7eb9ff4ef4d504a55a8b979fc9b450ea2c842b4d1ce61

theorem reads : ReadsStrkeys primitives.address_from_str := by
  intro text contract_id decoded
  exact congrArg (Option.map Address.contract) decoded

end Small

theorem strkey_faithful_native :
    contract_id_to_strkey Small.native = Bridge.GAS_TOKEN_ADDRESS ∧
      decode_contract (contract_id_to_strkey Small.native) = some Small.native ∧
      ∃ a b, Bridge.bytes32_to_address Small.primitives Small.native Bridge.Small.start.state =
          .ok (a, Bridge.Small.start.state) ∧
        Bridge.bytes32_to_address Small.primitives Bridge.Small.key Bridge.Small.start.state =
          .ok (b, Bridge.Small.start.state) ∧ a = .contract Small.native ∧ a ≠ b := by
  have faithful := strkey_faithful Small.reads
  exact ⟨by decide +kernel,(faithful.1 Small.native).2.2,
    faithful.2.2 _ Bridge.Small.start.state Small.native Bridge.Small.key (by decide +kernel)⟩

end Helix.Strkey
