import Helix.Abi
import Helix.Liquidator
import Helix.VaultFits

/-!
The values of contracts as `liquidation-bot` reads and writes them. A number of 128
bits is two halves of 64, a struct a map by the names of its fields, in which the
first entry of a name counts. What a parser accepts is what the contract's own type
lays out, in any order and among any other entries (`parse_exact`).
-/
namespace Helix.Rpc
open Vault (Position PoolConfig SizedPosition SizedConfig)

structure Int128Parts where
  hi : Int64
  lo : UInt64
  deriving DecidableEq

/-- Values of contracts. What no vault, token or oracle gives is `other`. -/
inductive ScVal where
  | bool (value : Bool)
  | u32 (value : UInt32)
  | u64 (value : UInt64)
  | i128 (parts : Int128Parts)
  | symbol (name : String)
  | address (address : Address)
  | vec (values : Option (List ScVal))
  | map (entries : Option (List (ScVal × ScVal)))
  | contract_instance (storage : Option (List (ScVal × ScVal)))
  | other (shown : String)

/-- The entries of a map, in the order they are listed. -/
abbrev ScMap : Type := List (ScVal × ScVal)

/-- What a parser stops at. -/
inductive ParseError where
  | unexpected (kind : String) (value : ScVal)
  | bytes_length
  | missing (field : String)
  | tuple_length (length : Nat)

/-- The text of an error, by how values are shown. -/
def ParseError.text (shown : ScVal → String) : ParseError → String
  | .unexpected kind value => "unexpected ScVal for " ++ kind ++ ": " ++ shown value
  | .bytes_length => "invalid i128 bytes length"
  | .missing field => "missing " ++ field
  | .tuple_length length => "unexpected tuple length for lastprice result: " ++ toString length

abbrev Parsed (α : Type) : Type := Except ParseError α

/-! ### Parsers -/

def i64_to_be_bytes (value : Int64) : Bytes := Abi.bigEndian 8 value.toBitVec.toNat
def u64_to_be_bytes (value : UInt64) : Bytes := Abi.bigEndian 8 value.toNat
def i128_to_be_bytes (value : Int) : Bytes := Abi.bigEndian 16 (BitVec.ofInt 128 value).toNat
def i64_from_be_bytes (bytes : Bytes) : Int64 := .ofBitVec (BitVec.ofNat 64 (Abi.ofBigEndian bytes))
def u64_from_be_bytes (bytes : Bytes) : UInt64 := .ofNat (Abi.ofBigEndian bytes)
def i128_from_be_bytes (bytes : Bytes) : Int := (BitVec.ofNat 128 (Abi.ofBigEndian bytes)).toInt

def parse_i128 : ScVal → Parsed Int
  | .i128 ⟨hi,lo⟩ =>
    let bytes := i64_to_be_bytes hi ++ u64_to_be_bytes lo
    if bytes.length = 16 then .ok (i128_from_be_bytes bytes) else .error .bytes_length
  | other => .error (.unexpected "i128" other)

def parse_u64 : ScVal → Parsed Nat
  | .u64 value => .ok value.toNat
  | other => .error (.unexpected "u64" other)

def parse_u32 : ScVal → Parsed Nat
  | .u32 value => .ok value.toNat
  | other => .error (.unexpected "u32" other)

def parse_vec : ScVal → Parsed (List ScVal)
  | .vec (some values) => .ok values
  | other => .error (.unexpected "vec" other)

/-- The value of the first entry whose key names a word. -/
def lookup (named : ScVal → Option String) : ScMap → String → Option ScVal
  | [], _ => none
  | (key,val) :: rest, word => if named key = some word then some val else lookup named rest word

def field_name : ScVal → Option String
  | .symbol symbol => some symbol
  | _ => none

/-- A variant of an enumeration is a vector that begins with its name. -/
def variant_name : ScVal → Option String
  | .vec (some (.symbol symbol :: _)) => some symbol
  | _ => none

def map_lookup : ScMap → String → Option ScVal := lookup field_name
def storage_lookup : ScMap → String → Option ScVal := lookup variant_name

/-- A field of a map, parsed. -/
def parse_field {α : Type} (parse : ScVal → Parsed α) (entries : ScMap) (field : String) : Parsed α :=
  match map_lookup entries field with
  | some val => parse val
  | none => .error (.missing field)

def parse_map (kind : String) : ScVal → Parsed ScMap
  | .map (some entries) => .ok entries
  | other => .error (.unexpected kind other)

def parse_position (value : ScVal) : Parsed Position := do
  let map ← parse_map "Position" value
  let deposited_shares ← parse_field parse_i128 map "deposited_shares"
  let borrowed_amount ← parse_field parse_i128 map "borrowed_amount"
  let last_update ← parse_field parse_u64 map "last_update"
  pure ⟨deposited_shares,borrowed_amount,last_update⟩

def parse_pool_config (value : ScVal) : Parsed PoolConfig := do
  let map ← parse_map "PoolConfig" value
  let max_ltv ← parse_field parse_u32 map "max_ltv"
  let liq_threshold ← parse_field parse_u32 map "liq_threshold"
  let liq_bonus ← parse_field parse_u32 map "liq_bonus"
  let interest_rate ← parse_field parse_u32 map "interest_rate"
  let min_position ← parse_field parse_i128 map "min_position"
  pure ⟨max_ltv,liq_threshold,liq_bonus,interest_rate,min_position⟩

def parse_price_tuple (value : ScVal) : Parsed (Int × Nat) := do
  match ← parse_vec value with
  | [price,timestamp] => do
    let price ← parse_i128 price
    let timestamp ← parse_u64 timestamp
    pure (price,timestamp)
  | values => .error (.tuple_length values.length)

def sc_i128 (value : Int) : ScVal :=
  let bytes := i128_to_be_bytes value
  .i128 ⟨i64_from_be_bytes (bytes.take 8),u64_from_be_bytes (bytes.drop 8)⟩

theorem parsed_bind {α β : Type} {x : Parsed α} {f : α → Parsed β} {b : β} :
    (x >>= f) = .ok b ↔ ∃ a, x = .ok a ∧ f a = .ok b := by
  cases x with
  | error e => simp [bind,Except.bind]
  | ok a => simp [bind,Except.bind]

theorem parsed_pure {α : Type} {a b : α} : (pure a : Parsed α) = .ok b ↔ a = b := by simp [pure,Except.pure]

/-! ### Numbers of 128 bits -/

section Numbers
variable {value : ScVal} {x : Int}

theorem i64_from_be_bytes_to (n : Nat) : i64_from_be_bytes (Abi.bigEndian 8 n) = .ofBitVec (BitVec.ofNat 64 n) := by
  rw [i64_from_be_bytes,Abi.ofBigEndian_bigEndian_mod]
  congr 1
  apply BitVec.eq_of_toNat_eq
  simp

theorem u64_from_be_bytes_to (n : Nat) : u64_from_be_bytes (Abi.bigEndian 8 n) = .ofNat n := by
  rw [u64_from_be_bytes,Abi.ofBigEndian_bigEndian_mod]
  apply UInt64.toNat_inj.mp
  simp

/-- The halves of a number are its bits above and below the 64th. -/
theorem sc_i128_halves : sc_i128 x = .i128 ⟨.ofBitVec (BitVec.ofNat 64 ((BitVec.ofInt 128 x).toNat / 2 ^ 64)),
    .ofNat (BitVec.ofInt 128 x).toNat⟩ := by
  have split := Abi.bigEndian_add 8 8 (BitVec.ofInt 128 x).toNat
  have full := Abi.length_bigEndian 8 ((BitVec.ofInt 128 x).toNat / 256 ^ 8)
  have high : (i128_to_be_bytes x).take 8 = Abi.bigEndian 8 ((BitVec.ofInt 128 x).toNat / 256 ^ 8) := by
    rw [i128_to_be_bytes,split,List.take_append_of_le_length full.ge,List.take_of_length_le full.le]
  have low : (i128_to_be_bytes x).drop 8 = Abi.bigEndian 8 (BitVec.ofInt 128 x).toNat := by
    rw [i128_to_be_bytes,split,List.drop_append_of_le_length full.ge,List.drop_eq_nil_of_le full.le,List.nil_append]
  rw [sc_i128]
  simp only [high,low,i64_from_be_bytes_to,u64_from_be_bytes_to]
  rfl

/-- Two halves read as the number whose bits they are. -/
theorem parse_i128_halves (hi : Int64) (lo : UInt64) :
    parse_i128 (.i128 ⟨hi,lo⟩) = .ok (BitVec.ofNat 128 (hi.toBitVec.toNat * 2 ^ 64 + lo.toNat)).toInt := by
  have full : (i64_to_be_bytes hi ++ u64_to_be_bytes lo).length = 16 := by
    rw [List.length_append,i64_to_be_bytes,u64_to_be_bytes,Abi.length_bigEndian,Abi.length_bigEndian]
  have bytes : Abi.ofBigEndian (i64_to_be_bytes hi ++ u64_to_be_bytes lo) = hi.toBitVec.toNat * 2 ^ 64 + lo.toNat := by
    rw [Abi.ofBigEndian_append_bytes,i64_to_be_bytes,u64_to_be_bytes,Abi.length_bigEndian,
      Abi.ofBigEndian_bigEndian hi.toBitVec.isLt,Abi.ofBigEndian_bigEndian lo.toNat_lt]
    rfl
  rw [parse_i128,if_pos full,i128_from_be_bytes,bytes]

/-- What reads as a number of 128 bits is that number written, and every such number
    is written so. -/
theorem parse_i128_ok : parse_i128 value = .ok x ↔ Fits x ∧ value = sc_i128 x := by
  constructor
  · intro read
    cases value with
    | i128 parts =>
      obtain ⟨hi,lo⟩ := parts
      have high := hi.toBitVec.isLt
      have low := lo.toNat_lt
      rw [parse_i128_halves,Except.ok.injEq] at read
      have bits : (BitVec.ofInt 128 x).toNat = hi.toBitVec.toNat * 2 ^ 64 + lo.toNat := by
        rw [← read,BitVec.ofInt_toInt,BitVec.toNat_ofNat]
        omega
      refine ⟨?_,?_⟩
      · have below := BitVec.toInt_lt (x := BitVec.ofNat 128 (hi.toBitVec.toNat * 2 ^ 64 + lo.toNat))
        have above := BitVec.le_toInt (x := BitVec.ofNat 128 (hi.toBitVec.toNat * 2 ^ 64 + lo.toNat))
        rw [read] at below above
        exact ⟨above,by rw [i128Max]; omega⟩
      · have above : (hi.toBitVec.toNat * 2 ^ 64 + lo.toNat) / 2 ^ 64 = hi.toBitVec.toNat := by omega
        have own : UInt64.ofNat (hi.toBitVec.toNat * 2 ^ 64 + lo.toNat) = lo := by
          apply UInt64.toNat_inj.mp
          rw [UInt64.toNat_ofNat']
          omega
        rw [sc_i128_halves,bits,above,own,BitVec.ofNat_toNat,BitVec.setWidth_eq,Int64.ofBitVec_toBitVec]
    | _ => cases read
  · rintro ⟨fits,rfl⟩
    have bound := (BitVec.ofInt 128 x).isLt
    rw [sc_i128_halves,parse_i128_halves,Int64.toBitVec_ofBitVec,BitVec.toNat_ofNat,UInt64.toNat_ofNat']
    have whole : (BitVec.ofInt 128 x).toNat / 2 ^ 64 % 2 ^ 64 * 2 ^ 64 + (BitVec.ofInt 128 x).toNat % 2 ^ 64 =
        (BitVec.ofInt 128 x).toNat := by omega
    rw [whole,BitVec.ofNat_toNat,BitVec.setWidth_eq,BitVec.toInt_ofInt]
    congr 1
    apply Int.bmod_eq_of_le
    · exact fits.1
    · have above := fits.2
      rw [i128Max] at above
      omega

theorem parse_u64_ok {n : Nat} : parse_u64 value = .ok n ↔ n < 2 ^ 64 ∧ value = .u64 (.ofNat n) := by
  constructor
  · intro read
    cases value with
    | u64 number =>
      cases read
      exact ⟨number.toNat_lt,by rw [UInt64.ofNat_toNat]⟩
    | _ => cases read
  · rintro ⟨below,rfl⟩
    rw [parse_u64,UInt64.toNat_ofNat_of_lt' below]

theorem parse_u32_ok {n : Nat} : parse_u32 value = .ok n ↔ n < 2 ^ 32 ∧ value = .u32 (.ofNat n) := by
  constructor
  · intro read
    cases value with
    | u32 number =>
      cases read
      exact ⟨number.toNat_lt,by rw [UInt32.ofNat_toNat]⟩
    | _ => cases read
  · rintro ⟨below,rfl⟩
    rw [parse_u32,UInt32.toNat_ofNat_of_lt' below]

end Numbers

/-! ### Structs as maps -/

section Lookup
variable {named : ScVal → Option String} {entries : ScMap} {key value : ScVal} {word : String}

/-- A word is found where an entry is named by it, and all entries it names agree. -/
theorem lookup_of_mem (member : (key,value) ∈ entries) (names : named key = some word)
    (agree : ∀ entry ∈ entries, named entry.1 = some word → entry.2 = value) : lookup named entries word = some value := by
  induction entries with
  | nil => cases member
  | cons entry rest ih =>
    obtain ⟨first,val⟩ := entry
    rw [lookup]
    by_cases own : named first = some word
    · rw [if_pos own]
      exact congrArg some (agree _ List.mem_cons_self own)
    · rw [if_neg own]
      rcases List.mem_cons.mp member with same | there
      · cases same
        exact absurd names own
      · exact ih there (fun entry other => agree entry (List.mem_cons_of_mem _ other))

/-- What is laid out under its names is found, in whatever order and among entries of
    other names. -/
theorem lookup_of_fields {fields : List (String × ScVal)} {others : ScMap} (laid : String → ScVal)
    (names : ∀ word, named (laid word) = some word) (distinct : (fields.map Prod.fst).Nodup)
    (parts : entries.Perm (fields.map (fun field => (laid field.1,field.2)) ++ others))
    (foreign : ∀ entry ∈ others, ∀ field ∈ fields, named entry.1 ≠ some field.1) :
    ∀ field ∈ fields, lookup named entries field.1 = some field.2 := by
  intro field member
  have entered : (laid field.1, field.2) ∈ entries :=
    parts.mem_iff.mpr (List.mem_append_left _ (List.mem_map_of_mem member))
  refine lookup_of_mem entered (names _) ?_
  intro entry listed named
  rcases List.mem_append.mp (parts.mem_iff.mp listed) with own | other
  · obtain ⟨field',member',rfl⟩ := List.mem_map.mp own
    have same : field'.1 = field.1 := Option.some.inj ((names _).symm.trans named)
    exact congrArg Prod.snd (List.inj_on_of_nodup_map distinct member' member same)
  · exact absurd named (foreign entry other field member)

end Lookup

/-- The fields of a struct as the first entries of a map have them. -/
def Lists (entries : ScMap) (fields : List (String × ScVal)) : Prop :=
  ∀ field ∈ fields, map_lookup entries field.1 = some field.2

section Structs
variable {entries : ScMap} {name : String} {value : ScVal}

variable {α : Type} {parse : ScVal → Parsed α} {a : α}

theorem parse_field_ok : parse_field parse entries name = .ok a ↔
    ∃ val, map_lookup entries name = some val ∧ parse val = .ok a := by
  unfold parse_field
  cases map_lookup entries name with
  | none => simp
  | some val => simp

theorem parse_map_ok {kind : String} : parse_map kind value = .ok entries ↔ value = .map (some entries) := by
  unfold parse_map
  split
  · simp
  · rename_i other different
    simp only [reduceCtorEq,false_iff]
    rintro rfl
    exact different entries rfl

end Structs

/-! ### What a contract lays out -/

/-- A position as the vault gives it: a map with its fields by name. -/
def position_fields (p : Position) : List (String × ScVal) :=
  [("borrowed_amount",sc_i128 p.borrowed_amount),("deposited_shares",sc_i128 p.deposited_shares),
    ("last_update",.u64 (.ofNat p.last_update))]

def pool_config_fields (config : PoolConfig) : List (String × ScVal) :=
  [("interest_rate",.u32 (.ofNat config.interest_rate)),("liq_bonus",.u32 (.ofNat config.liq_bonus)),
    ("liq_threshold",.u32 (.ofNat config.liq_threshold)),("max_ltv",.u32 (.ofNat config.max_ltv)),
    ("min_position",sc_i128 config.min_position)]

/-- A struct whose fields are laid out in this order. -/
def struct_val (fields : List (String × ScVal)) : ScVal := .map (some (fields.map (fun field => (.symbol field.1,field.2))))

def position_val (p : Position) : ScVal := struct_val (position_fields p)
def pool_config_val (config : PoolConfig) : ScVal := struct_val (pool_config_fields config)
def price_val (price : Int × Nat) : ScVal := .vec (some [sc_i128 price.1,.u64 (.ofNat price.2)])

section Exact
variable {value : ScVal}

theorem parse_position_ok {p : Position} : parse_position value = .ok p ↔
    SizedPosition p ∧ ∃ entries, value = .map (some entries) ∧ Lists entries (position_fields p) := by
  simp only [parse_position,parsed_bind,parsed_pure,parse_map_ok,parse_field_ok,parse_i128_ok,parse_u64_ok]
  constructor
  · rintro ⟨entries,rfl,shares,⟨_,first,fits,rfl⟩,debt,⟨_,second,fits',rfl⟩,update,⟨_,third,below,rfl⟩,rfl⟩
    exact ⟨⟨fits,fits',below⟩,entries,rfl,by simp [Lists,position_fields,first,second,third]⟩
  · rintro ⟨sized,entries,rfl,listed⟩
    simp only [Lists,position_fields,List.forall_mem_cons] at listed
    obtain ⟨second,first,third,_⟩ := listed
    exact ⟨entries,rfl,_,⟨_,first,sized.deposited_shares,rfl⟩,_,⟨_,second,sized.borrowed_amount,rfl⟩,_,
      ⟨_,third,sized.last_update,rfl⟩,rfl⟩

theorem parse_pool_config_ok {config : PoolConfig} : parse_pool_config value = .ok config ↔
    SizedConfig config ∧ ∃ entries, value = .map (some entries) ∧ Lists entries (pool_config_fields config) := by
  simp only [parse_pool_config,parsed_bind,parsed_pure,parse_map_ok,parse_field_ok,parse_i128_ok,parse_u32_ok]
  constructor
  · rintro ⟨entries,rfl,ltv,⟨_,first,below₁,rfl⟩,threshold,⟨_,second,below₂,rfl⟩,bonus,⟨_,third,below₃,rfl⟩,rate,
      ⟨_,fourth,below₄,rfl⟩,least,⟨_,fifth,fits,rfl⟩,rfl⟩
    exact ⟨⟨below₁,below₂,below₃,below₄,fits⟩,entries,rfl,
      by simp [Lists,pool_config_fields,first,second,third,fourth,fifth]⟩
  · rintro ⟨sized,entries,rfl,listed⟩
    simp only [Lists,pool_config_fields,List.forall_mem_cons] at listed
    obtain ⟨fourth,third,second,first,fifth,_⟩ := listed
    exact ⟨entries,rfl,_,⟨_,first,sized.max_ltv,rfl⟩,_,⟨_,second,sized.liq_threshold,rfl⟩,_,
      ⟨_,third,sized.liq_bonus,rfl⟩,_,⟨_,fourth,sized.interest_rate,rfl⟩,_,⟨_,fifth,sized.min_position,rfl⟩,rfl⟩

theorem parse_vec_ok {values : List ScVal} : parse_vec value = .ok values ↔ value = .vec (some values) := by
  unfold parse_vec
  split
  · simp
  · rename_i other different
    simp only [reduceCtorEq,false_iff]
    rintro rfl
    exact different values rfl

theorem parse_price_tuple_ok {price : Int × Nat} : parse_price_tuple value = .ok price ↔
    (Fits price.1 ∧ price.2 < 2 ^ 64) ∧ value = price_val price := by
  simp only [parse_price_tuple,parsed_bind,parse_vec_ok]
  constructor
  · rintro ⟨values,rfl,read⟩
    split at read
    · simp only [parsed_bind,parsed_pure,parse_i128_ok,parse_u64_ok] at read
      obtain ⟨_,⟨fits,rfl⟩,_,⟨below,rfl⟩,rfl⟩ := read
      exact ⟨⟨fits,below⟩,rfl⟩
    · cases read
  · rintro ⟨⟨fits,below⟩,rfl⟩
    refine ⟨_,rfl,?_⟩
    simp only [parsed_bind,parsed_pure,parse_i128_ok,parse_u64_ok]
    exact ⟨_,⟨fits,rfl⟩,_,⟨below,rfl⟩,rfl⟩

/-- The fields of a struct are listed by a map that has them among entries of other
    names, in whatever order. -/
theorem Lists.of_entries {entries others : ScMap} {fields : List (String × ScVal)} (distinct : (fields.map Prod.fst).Nodup)
    (parts : entries.Perm (fields.map (fun field => (.symbol field.1,field.2)) ++ others))
    (foreign : ∀ entry ∈ others, ∀ field ∈ fields, field_name entry.1 ≠ some field.1) : Lists entries fields :=
  lookup_of_fields ScVal.symbol (fun _ => rfl) distinct parts foreign

theorem parse_position_val {p : Position} (sized : SizedPosition p) : parse_position (position_val p) = .ok p :=
  parse_position_ok.mpr ⟨sized,_,rfl,.of_entries (by simp [position_fields]) (by rw [List.append_nil]) (by simp)⟩

theorem parse_pool_config_val {config : PoolConfig} (sized : SizedConfig config) :
    parse_pool_config (pool_config_val config) = .ok config :=
  parse_pool_config_ok.mpr ⟨sized,_,rfl,.of_entries (by simp [pool_config_fields]) (by rw [List.append_nil]) (by simp)⟩

theorem parse_sc_i128 {x : Int} (fits : Fits x) : parse_i128 (sc_i128 x) = .ok x := parse_i128_ok.mpr ⟨fits,rfl⟩

/-- What a parser accepts, and as what: a number of 128 bits only as the two halves that
    spell it, a struct by its fields, whatever their order and whatever else the map
    has, and a quote as a pair. -/
theorem parse_exact (value : ScVal) :
    (∀ x, parse_i128 value = .ok x ↔ Fits x ∧ value = sc_i128 x) ∧
    (∀ p, parse_position value = .ok p ↔
      SizedPosition p ∧ ∃ entries, value = .map (some entries) ∧ Lists entries (position_fields p)) ∧
    (∀ config, parse_pool_config value = .ok config ↔
      SizedConfig config ∧ ∃ entries, value = .map (some entries) ∧ Lists entries (pool_config_fields config)) ∧
    ∀ price, parse_price_tuple value = .ok price ↔ (Fits price.1 ∧ price.2 < 2 ^ 64) ∧ value = price_val price :=
  ⟨fun _ => parse_i128_ok,fun _ => parse_position_ok,fun _ => parse_pool_config_ok,fun _ => parse_price_tuple_ok⟩

end Exact

end Helix.Rpc
