import Helix.Store
import Helix.Integers
import Helix.Lease
import Helix.Host

/-!
The share token hstETH of `contracts/token`: balances, supply, total assets and
allowances, the entry points that move them, and for each of them the exact
condition under which it succeeds and what it then leaves (`Effect`,
`effect_of_call`).
-/
namespace Helix.Token
open Invoke

def TTL_THRESHOLD : Nat := 17280
def TTL_BUMP : Nat := 518400

inductive TokenError where
  | NotInitialized
  | AlreadyInitialized
  | Unauthorized
  | InsufficientBalance
  | InvalidAmount
  | InsufficientAllowance
  | AllowanceExpired
  deriving DecidableEq

structure AllowanceData where
  amount : Int
  expiration_ledger : Nat

/-- The storage of an initialized token. Allowances are temporary entries. -/
structure HelixToken where
  admin : Address
  vault_contract : Address
  bridge_handler : Address
  total_shares : Int
  total_assets : Int
  balances : Store Address Int
  allowances : Address → Address → Option (Lease AllowanceData)

/-- A stored balance; an address without an entry has none. -/
def HelixToken.balance (t : HelixToken) (a : Address) : Int := (t.balances.get a).getD 0

/-- The token after a balance is written; an empty balance is not stored. -/
def HelixToken.withBalance (t : HelixToken) (a : Address) (amount : Int) : HelixToken :=
  { t with balances := if amount = 0 then t.balances.remove a else t.balances.set a amount }

/-- The token after an allowance entry is replaced. -/
def HelixToken.withAllowance (t : HelixToken) (owner spender : Address) (entry : Option (Lease AllowanceData)) :
    HelixToken :=
  { t with allowances := fun a b => if a = owner ∧ b = spender then entry else t.allowances a b }

abbrev Contract (α : Type) : Type := Invoke HelixToken TokenError α

/-! ### Checked arithmetic -/

def validate_amount (amount : Int) : Contract Unit := require (0 ≤ amount) (.error .InvalidAmount)
def checked_add (left right : Int) : Contract Int := need (Checked.add left right) (.error .InvalidAmount)
def checked_sub (left right : Int) : Contract Int := need (Checked.sub left right) (.error .InvalidAmount)
def checked_mul (left right : Int) : Contract Int := need (Checked.mul left right) (.error .InvalidAmount)

def checked_div_ceil (numerator denominator : Int) : Contract Int := do
  require (0 < denominator) (.error .InvalidAmount)
  let quotient := numerator.tdiv denominator
  let remainder := numerator.tmod denominator
  if remainder = 0 then pure quotient else checked_add quotient 1

/-! ### Balances and allowances -/

def read_balance (address : Address) : Contract Int := read (fun t => t.balance address)

def write_balance (address : Address) (amount : Int) : Contract Unit := do
  require (0 ≤ amount) (.error .InvalidAmount)
  write (fun t => t.withBalance address amount)

def spend_balance (address : Address) (amount : Int) : Contract Unit := do
  let balance ← read_balance address
  require (amount ≤ balance) (.error .InsufficientBalance)
  let updated_balance ← checked_sub balance amount
  write_balance address updated_balance

def allowance_expired (env : Env) (allowance : AllowanceData) : Prop := allowance.expiration_ledger < env.sequence

instance (env : Env) (allowance : AllowanceData) : Decidable (allowance_expired env allowance) :=
  inferInstanceAs (Decidable (_ < _))

/-- The allowance entry as the temporary storage has it. -/
def HelixToken.stored_allowance (t : HelixToken) (env : Env) (owner spender : Address) : Option AllowanceData :=
  Lease.read env.sequence (t.allowances owner spender)

def allowance_amount (env : Env) (t : HelixToken) (owner spender : Address) : Int :=
  match t.stored_allowance env owner spender with
  | some allowance => if allowance_expired env allowance then 0 else allowance.amount
  | none => 0

/-- The entry that writing an allowance leaves. -/
def HelixToken.allowance_entry (t : HelixToken) (env : Env) (owner spender : Address) (allowance : AllowanceData) :
    Lease AllowanceData :=
  (Lease.set env.sequence env.min_temp_entry_ttl (t.allowances owner spender) allowance).extend_ttl env.sequence
    TTL_THRESHOLD TTL_BUMP

def write_allowance (env : Env) (owner spender : Address) (amount : Int) (expiration_ledger : Nat) : Contract Unit :=
  if amount = 0 then write (fun t => t.withAllowance owner spender none)
  else do
    require (env.sequence ≤ expiration_ledger) (.error .InvalidAmount)
    write (fun t => t.withAllowance owner spender (some (t.allowance_entry env owner spender ⟨amount,expiration_ledger⟩)))

def spend_allowance (env : Env) (owner spender : Address) (amount : Int) : Contract Unit :=
  if amount = 0 then pure ()
  else do
    let stored ← read (fun t => t.stored_allowance env owner spender)
    let allowance ← need stored (.error .InsufficientAllowance)
    require (¬ allowance_expired env allowance) (.error .AllowanceExpired)
    require (amount ≤ allowance.amount) (.error .InsufficientAllowance)
    let updated_amount ← checked_sub allowance.amount amount
    write_allowance env owner spender updated_amount allowance.expiration_ledger

/-! ### Shares and assets -/

def mint_shares (recipient : Address) (shares : Int) : Contract Unit := do
  let balance ← read_balance recipient
  let total_shares ← read (fun t => t.total_shares)
  let updated_balance ← checked_add balance shares
  let updated_total_shares ← checked_add total_shares shares
  write_balance recipient updated_balance
  write (fun t => { t with total_shares := updated_total_shares })

def burn_shares (owner : Address) (shares : Int) : Contract Unit := do
  spend_balance owner shares
  let total_shares ← read (fun t => t.total_shares)
  let updated_total_shares ← checked_sub total_shares shares
  write (fun t => { t with total_shares := updated_total_shares })

def burn_external_shares (shares : Int) : Contract Unit :=
  if shares = 0 then pure ()
  else do
    let total_shares ← read (fun t => t.total_shares)
    let total_assets ← read (fun t => t.total_assets)
    let product ← checked_mul shares total_assets
    let assets_to_remove ← checked_div_ceil product total_shares
    let updated_total_shares ← checked_sub total_shares shares
    let updated_total_assets ← checked_sub total_assets assets_to_remove
    write (fun t => { t with total_shares := updated_total_shares })
    write (fun t => { t with total_assets := updated_total_assets })

def assets_for_shares (shares : Int) : Contract Int := do
  validate_amount shares
  let total_shares ← read (fun t => t.total_shares)
  if total_shares = 0 ∨ shares = 0 then pure 0
  else do
    let total_assets ← read (fun t => t.total_assets)
    let product ← checked_mul shares total_assets
    pure (product.tdiv total_shares)

def shares_for_assets (assets : Int) : Contract Int := do
  validate_amount assets
  let total_assets ← read (fun t => t.total_assets)
  if total_assets = 0 ∨ assets = 0 then pure 0
  else do
    let total_shares ← read (fun t => t.total_shares)
    let product ← checked_mul assets total_shares
    pure (product.tdiv total_assets)

/-! ### Entry points -/

def vault_mint (env : Env) (recipient : Address) (shares : Int) : Contract Unit := do
  validate_amount shares
  let vault ← read (fun t => t.vault_contract)
  require_auth env vault
  mint_shares recipient shares

def bridge_mint (env : Env) (recipient : Address) (shares : Int) : Contract Unit := do
  validate_amount shares
  let bridge ← read (fun t => t.bridge_handler)
  require_auth env bridge
  mint_shares recipient shares

def vault_burn (env : Env) (owner : Address) (shares : Int) : Contract Unit := do
  validate_amount shares
  let vault ← read (fun t => t.vault_contract)
  require_auth env vault
  burn_shares owner shares

def bridge_burn (env : Env) (owner : Address) (shares : Int) : Contract Unit := do
  validate_amount shares
  let bridge ← read (fun t => t.bridge_handler)
  require_auth env bridge
  burn_shares owner shares

def update_exchange_rate (env : Env) (new_total_assets : Int) : Contract Unit := do
  require (0 < new_total_assets) (.error .InvalidAmount)
  let bridge ← read (fun t => t.bridge_handler)
  require_auth env bridge
  write (fun t => { t with total_assets := new_total_assets })

def set_admin (env : Env) (new_admin : Address) : Contract Unit := do
  let current_admin ← read (fun t => t.admin)
  require_auth env current_admin
  write (fun t => { t with admin := new_admin })

def approve (env : Env) (owner spender : Address) (amount : Int) (expiration_ledger : Nat) : Contract Unit := do
  validate_amount amount
  require_auth env owner
  write_allowance env owner spender amount expiration_ledger

/-- The second half of a transfer; a transfer to oneself reads what the first
    half wrote. -/
def receive_balance (recipient : Address) (amount : Int) : Contract Unit := do
  let recipient_balance ← read_balance recipient
  let updated_balance ← checked_add recipient_balance amount
  write_balance recipient updated_balance

def transfer (env : Env) (owner recipient : Address) (amount : Int) : Contract Unit := do
  validate_amount amount
  require_auth env owner
  spend_balance owner amount
  receive_balance recipient amount

def transfer_from (env : Env) (spender owner recipient : Address) (amount : Int) : Contract Unit := do
  validate_amount amount
  require_auth env spender
  spend_allowance env owner spender amount
  spend_balance owner amount
  receive_balance recipient amount

def burn (env : Env) (owner : Address) (amount : Int) : Contract Unit := do
  validate_amount amount
  require_auth env owner
  spend_balance owner amount
  burn_external_shares amount

def burn_from (env : Env) (spender owner : Address) (amount : Int) : Contract Unit := do
  validate_amount amount
  require_auth env spender
  spend_allowance env owner spender amount
  spend_balance owner amount
  burn_external_shares amount

/-- A freshly initialized token. -/
def fresh (admin vault bridge : Address) : HelixToken where
  admin := admin
  vault_contract := vault
  bridge_handler := bridge
  total_shares := 0
  total_assets := 0
  balances := .empty
  allowances := fun _ _ => none

/-- The calls that change a token; `initialise` is its `initialize`, a keyword
    here. `upgrade` replaces the code and ends what can be said about it. -/
inductive Entry where
  | initialise (admin vault bridge : Address)
  | vault_mint (recipient : Address) (shares : Int)
  | bridge_mint (recipient : Address) (shares : Int)
  | vault_burn (owner : Address) (shares : Int)
  | bridge_burn (owner : Address) (shares : Int)
  | update_exchange_rate (new_total_assets : Int)
  | set_admin (new_admin : Address)
  | approve (owner spender : Address) (amount : Int) (expiration_ledger : Nat)
  | transfer (owner recipient : Address) (amount : Int)
  | transfer_from (spender owner recipient : Address) (amount : Int)
  | burn (owner : Address) (amount : Int)
  | burn_from (spender owner : Address) (amount : Int)

/-- A call to an initialized token. -/
def call (env : Env) : Entry → Contract Unit
  | .initialise _ _ _ => fail .AlreadyInitialized
  | .vault_mint recipient shares => vault_mint env recipient shares
  | .bridge_mint recipient shares => bridge_mint env recipient shares
  | .vault_burn owner shares => vault_burn env owner shares
  | .bridge_burn owner shares => bridge_burn env owner shares
  | .update_exchange_rate new_total_assets => update_exchange_rate env new_total_assets
  | .set_admin new_admin => set_admin env new_admin
  | .approve owner spender amount expiration_ledger => approve env owner spender amount expiration_ledger
  | .transfer owner recipient amount => transfer env owner recipient amount
  | .transfer_from spender owner recipient amount => transfer_from env spender owner recipient amount
  | .burn owner amount => burn env owner amount
  | .burn_from spender owner amount => burn_from env spender owner amount

/-- A call to a token that may not be initialized yet: until then every entry
    point but `initialise` refuses. -/
def invoke (env : Env) (entry : Entry) : Invoke (Option HelixToken) TokenError Unit := fun s =>
  match s, entry with
  | none, .initialise admin vault bridge =>
    if env.Authorised admin then .ok ((), some (fresh admin vault bridge)) else .error .trap
  | none, _ => .error (.error .NotInitialized)
  | some t, entry =>
    match call env entry t with
    | .ok (_, u) => .ok ((), some u)
    | .error e => .error e

/-! ### What a call does -/

namespace HelixToken
variable (t : HelixToken) (a b owner spender : Address) (x : Int) (entry : Option (Lease AllowanceData))

@[simp] theorem withBalance_admin : (t.withBalance a x).admin = t.admin := rfl
@[simp] theorem withBalance_vault : (t.withBalance a x).vault_contract = t.vault_contract := rfl
@[simp] theorem withBalance_bridge : (t.withBalance a x).bridge_handler = t.bridge_handler := rfl
@[simp] theorem withBalance_shares : (t.withBalance a x).total_shares = t.total_shares := rfl
@[simp] theorem withBalance_assets : (t.withBalance a x).total_assets = t.total_assets := rfl
@[simp] theorem withBalance_allowances : (t.withBalance a x).allowances = t.allowances := rfl
@[simp] theorem withAllowance_vault : (t.withAllowance owner spender entry).vault_contract = t.vault_contract := rfl
@[simp] theorem withAllowance_bridge : (t.withAllowance owner spender entry).bridge_handler = t.bridge_handler := rfl
@[simp] theorem withAllowance_shares : (t.withAllowance owner spender entry).total_shares = t.total_shares := rfl
@[simp] theorem withAllowance_assets : (t.withAllowance owner spender entry).total_assets = t.total_assets := rfl
@[simp] theorem withAllowance_balances : (t.withAllowance owner spender entry).balances = t.balances := rfl
@[simp] theorem withAllowance_balance : (t.withAllowance owner spender entry).balance a = t.balance a := rfl

theorem balance_withBalance : (t.withBalance a x).balance b = if b = a then x else t.balance b := by
  unfold withBalance balance
  by_cases zero : x = 0
  · by_cases same : b = a <;> simp [zero,same,Store.get_remove]
  · by_cases same : b = a <;> simp [zero,same,Store.get_set]

@[simp] theorem balance_withBalance_same : (t.withBalance a x).balance a = x := by
  simp [balance_withBalance]

/-- The balances after an amount leaves one address and then reaches another. -/
def moved (t : HelixToken) (owner recipient : Address) (amount : Int) : HelixToken :=
  let paid := t.withBalance owner (t.balance owner - amount)
  paid.withBalance recipient (paid.balance recipient + amount)

def minted (t : HelixToken) (recipient : Address) (shares : Int) : HelixToken :=
  { t.withBalance recipient (t.balance recipient + shares) with total_shares := t.total_shares + shares }

def burned (t : HelixToken) (owner : Address) (shares : Int) : HelixToken :=
  { t.withBalance owner (t.balance owner - shares) with total_shares := t.total_shares - shares }

/-- The quotient rounded away from zero where the division is not exact. -/
def ceilQuotient (numerator denominator : Int) : Int :=
  if numerator.tmod denominator = 0 then numerator.tdiv denominator else numerator.tdiv denominator + 1

/-- A public burn also removes assets, rounded up. -/
def redeemed (t : HelixToken) (owner : Address) (shares : Int) : HelixToken :=
  { t.burned owner shares with
    total_assets := t.total_assets - if shares = 0 then 0 else ceilQuotient (shares * t.total_assets) t.total_shares }

/-- The token after an allowance is written: none is kept for no amount. -/
def approved (t : HelixToken) (env : Env) (owner spender : Address) (amount : Int) (expiration_ledger : Nat) :
    HelixToken :=
  t.withAllowance owner spender
    (if amount = 0 then none else some (t.allowance_entry env owner spender ⟨amount,expiration_ledger⟩))

/-- An allowance that covers an amount and has not expired. -/
structure Covers (t : HelixToken) (env : Env) (owner spender : Address) (amount : Int) (allowance : AllowanceData) :
    Prop where
  stored : t.stored_allowance env owner spender = some allowance
  current : env.sequence ≤ allowance.expiration_ledger
  enough : amount ≤ allowance.amount

/-- What spending from an allowance leaves; nothing is spent for no amount. -/
inductive Spent (t : HelixToken) (env : Env) (owner spender : Address) (amount : Int) : HelixToken → Prop
  | nothing : amount = 0 → Spent t env owner spender amount t
  | part (allowance : AllowanceData) : amount ≠ 0 → t.Covers env owner spender amount allowance →
      Spent t env owner spender amount
        (t.approved env owner spender (allowance.amount - amount) allowance.expiration_ledger)

end HelixToken

@[simp] theorem validate_amount_ok {amount : Int} {t : HelixToken} {r : Unit × HelixToken} :
    validate_amount amount t = .ok r ↔ 0 ≤ amount ∧ r = ((), t) := by
  simp [validate_amount]

theorem spend_balance_ok {owner : Address} {amount : Int} {t : HelixToken} {r : Unit × HelixToken} :
    spend_balance owner amount t = .ok r ↔
      amount ≤ t.balance owner ∧ Fits (t.balance owner - amount) ∧
        r = ((), t.withBalance owner (t.balance owner - amount)) := by
  simp only [spend_balance,read_balance,checked_sub,write_balance,bind_ok,read_ok,require_ok,need_ok,write_ok,
    Checked.sub_some,exists_eq_left]
  constructor
  · rintro ⟨q,⟨enough,rfl⟩,p,⟨⟨fits,value⟩,same⟩,s,⟨nonneg,rfl⟩,rfl⟩
    simp only at value same
    exact ⟨enough,fits,by rw [value,same]⟩
  · rintro ⟨enough,fits,rfl⟩
    exact ⟨_,⟨enough,rfl⟩,(_,t),⟨⟨fits,rfl⟩,rfl⟩,_,⟨by simpa using enough,rfl⟩,rfl⟩

theorem receive_balance_ok {recipient : Address} {amount : Int} {t : HelixToken} {r : Unit × HelixToken} :
    receive_balance recipient amount t = .ok r ↔
      0 ≤ t.balance recipient + amount ∧ Fits (t.balance recipient + amount) ∧
        r = ((), t.withBalance recipient (t.balance recipient + amount)) := by
  simp [receive_balance,read_balance,checked_add,write_balance,and_left_comm,and_assoc]

theorem mint_shares_ok {recipient : Address} {shares : Int} {t : HelixToken} {r : Unit × HelixToken} :
    mint_shares recipient shares t = .ok r ↔
      0 ≤ t.balance recipient + shares ∧ Fits (t.balance recipient + shares) ∧ Fits (t.total_shares + shares) ∧
        r = ((), t.minted recipient shares) := by
  simp [mint_shares,read_balance,checked_add,write_balance,HelixToken.minted,and_left_comm,and_assoc]

theorem burn_shares_ok {owner : Address} {shares : Int} {t : HelixToken} {r : Unit × HelixToken} :
    burn_shares owner shares t = .ok r ↔
      shares ≤ t.balance owner ∧ Fits (t.balance owner - shares) ∧ Fits (t.total_shares - shares) ∧
        r = ((), t.burned owner shares) := by
  simp [burn_shares,spend_balance_ok,checked_sub,HelixToken.burned,and_left_comm,and_assoc]

theorem checked_div_ceil_ok {numerator denominator : Int} {t : HelixToken} {r : Int × HelixToken} :
    checked_div_ceil numerator denominator t = .ok r ↔
      0 < denominator ∧ (numerator.tmod denominator ≠ 0 → Fits (numerator.tdiv denominator + 1)) ∧
        r = (HelixToken.ceilQuotient numerator denominator, t) := by
  obtain ⟨x,u⟩ := r
  unfold HelixToken.ceilQuotient
  by_cases exact : numerator.tmod denominator = 0
  · simp [checked_div_ceil,exact]
    tauto
  · simp [checked_div_ceil,exact,checked_add,and_assoc]

/-- What a public burn removes beyond the balance: shares, and assets when
    there are shares to remove. -/
theorem burn_external_shares_ok {owner : Address} {shares : Int} {t : HelixToken} {r : Unit × HelixToken}
    (done : burn_external_shares shares (t.withBalance owner (t.balance owner - shares)) = .ok r) :
    (shares ≠ 0 → 0 < t.total_shares) ∧ r = ((), t.redeemed owner shares) := by
  by_cases zero : shares = 0
  · subst zero
    simp only [burn_external_shares,↓reduceIte,pure_ok] at done
    refine ⟨fun nonzero => absurd rfl nonzero,?_⟩
    simp only [done,HelixToken.redeemed,HelixToken.burned,↓reduceIte,sub_zero]
    rfl
  · simp only [burn_external_shares,zero,↓reduceIte,bind_ok,read_ok,exists_eq_left,checked_mul,need_ok,
      Checked.mul_some,checked_div_ceil_ok,checked_sub,Checked.sub_some,write_ok] at done
    obtain ⟨⟨product,u⟩,⟨⟨_,product_eq⟩,same⟩,_,⟨positive,_,rfl⟩,⟨shares_left,v⟩,⟨⟨_,shares_eq⟩,same_shares⟩,
      ⟨assets_left,w⟩,⟨⟨_,assets_eq⟩,same_assets⟩,rfl⟩ := done
    simp only at product_eq same positive shares_eq same_shares assets_eq same_assets
    subst product_eq same shares_eq same_shares assets_eq same_assets
    exact ⟨fun _ => positive,by simp only [HelixToken.redeemed,HelixToken.burned,zero,↓reduceIte]; rfl⟩

theorem write_allowance_ok {env : Env} {owner spender : Address} {amount : Int} {expiration_ledger : Nat}
    {t : HelixToken} {r : Unit × HelixToken} :
    write_allowance env owner spender amount expiration_ledger t = .ok r ↔
      (amount ≠ 0 → env.sequence ≤ expiration_ledger) ∧
        r = ((), t.approved env owner spender amount expiration_ledger) := by
  by_cases zero : amount = 0
  · simp [write_allowance,zero,HelixToken.approved]
  · simp [write_allowance,zero,HelixToken.approved]

theorem spend_allowance_ok {env : Env} {owner spender : Address} {amount : Int} {t : HelixToken}
    {r : Unit × HelixToken} (done : spend_allowance env owner spender amount t = .ok r) :
    ∃ u, r = ((), u) ∧ t.Spent env owner spender amount u := by
  by_cases zero : amount = 0
  · subst zero
    simp only [spend_allowance,↓reduceIte,pure_ok] at done
    exact ⟨t,done,.nothing rfl⟩
  · simp only [spend_allowance,zero,↓reduceIte,bind_ok,read_ok,exists_eq_left,need_ok,require_ok,checked_sub,
      Checked.sub_some,write_allowance_ok,allowance_expired,Nat.not_lt] at done
    obtain ⟨⟨allowance,u⟩,⟨stored,same⟩,_,⟨current,rfl⟩,_,⟨enough,rfl⟩,⟨left,v⟩,⟨⟨_,left_eq⟩,same_v⟩,_,rfl⟩ := done
    simp only at stored same current enough left_eq same_v
    subst same same_v left_eq
    exact ⟨_,rfl,.part allowance zero ⟨stored,current,enough⟩⟩

/-- Everything a successful call can do, with the conditions it checked. -/
inductive Effect (env : Env) (t : HelixToken) : Entry → HelixToken → Prop
  | vault_mint (recipient : Address) (shares : Int) : 0 ≤ shares → env.Authorised t.vault_contract →
      Fits (t.total_shares + shares) → Effect env t (.vault_mint recipient shares) (t.minted recipient shares)
  | bridge_mint (recipient : Address) (shares : Int) : 0 ≤ shares → env.Authorised t.bridge_handler →
      Fits (t.total_shares + shares) → Effect env t (.bridge_mint recipient shares) (t.minted recipient shares)
  | vault_burn (owner : Address) (shares : Int) : 0 ≤ shares → env.Authorised t.vault_contract →
      shares ≤ t.balance owner → Effect env t (.vault_burn owner shares) (t.burned owner shares)
  | bridge_burn (owner : Address) (shares : Int) : 0 ≤ shares → env.Authorised t.bridge_handler →
      shares ≤ t.balance owner → Effect env t (.bridge_burn owner shares) (t.burned owner shares)
  | update_exchange_rate (new_total_assets : Int) : 0 < new_total_assets → env.Authorised t.bridge_handler →
      Effect env t (.update_exchange_rate new_total_assets) { t with total_assets := new_total_assets }
  | set_admin (new_admin : Address) : env.Authorised t.admin →
      Effect env t (.set_admin new_admin) { t with admin := new_admin }
  | approve (owner spender : Address) (amount : Int) (expiration_ledger : Nat) : 0 ≤ amount → env.Authorised owner →
      (amount ≠ 0 → env.sequence ≤ expiration_ledger) →
      Effect env t (.approve owner spender amount expiration_ledger)
        (t.approved env owner spender amount expiration_ledger)
  | transfer (owner recipient : Address) (amount : Int) : 0 ≤ amount → env.Authorised owner →
      amount ≤ t.balance owner → Effect env t (.transfer owner recipient amount) (t.moved owner recipient amount)
  | transfer_from (spender owner recipient : Address) (amount : Int) (u : HelixToken) : 0 ≤ amount →
      env.Authorised spender → t.Spent env owner spender amount u → amount ≤ t.balance owner →
      Effect env t (.transfer_from spender owner recipient amount) (u.moved owner recipient amount)
  | burn (owner : Address) (amount : Int) : 0 ≤ amount → env.Authorised owner → amount ≤ t.balance owner →
      Effect env t (.burn owner amount) (t.redeemed owner amount)
  | burn_from (spender owner : Address) (amount : Int) (u : HelixToken) : 0 ≤ amount → env.Authorised spender →
      t.Spent env owner spender amount u → amount ≤ t.balance owner →
      Effect env t (.burn_from spender owner amount) (u.redeemed owner amount)

namespace HelixToken.Spent
variable {t u : HelixToken} {env : Env} {owner spender : Address} {amount : Int}

theorem balances (spent : t.Spent env owner spender amount u) : u.balances = t.balances := by
  cases spent <;> rfl
theorem balance (spent : t.Spent env owner spender amount u) (a : Address) : u.balance a = t.balance a := by
  simp [HelixToken.balance,spent.balances]
theorem shares (spent : t.Spent env owner spender amount u) : u.total_shares = t.total_shares := by
  cases spent <;> rfl
theorem assets (spent : t.Spent env owner spender amount u) : u.total_assets = t.total_assets := by
  cases spent <;> rfl
theorem vault (spent : t.Spent env owner spender amount u) : u.vault_contract = t.vault_contract := by
  cases spent <;> rfl
theorem bridge (spent : t.Spent env owner spender amount u) : u.bridge_handler = t.bridge_handler := by
  cases spent <;> rfl

end HelixToken.Spent

/-- A successful call does what `Effect` says, and nothing else. -/
theorem effect_of_call {env : Env} {entry : Entry} {t : HelixToken} {r : Unit × HelixToken}
    (done : call env entry t = .ok r) : Effect env t entry r.2 := by
  cases entry with
  | initialise admin vault bridge => simp [call] at done
  | vault_mint recipient shares =>
    simp only [call,vault_mint,bind_ok,validate_amount_ok,read_ok,auth_ok,mint_shares_ok] at done
    obtain ⟨_,⟨nonneg,rfl⟩,_,rfl,_,⟨authorised,rfl⟩,_,_,fits,rfl⟩ := done
    exact .vault_mint recipient shares nonneg authorised fits
  | bridge_mint recipient shares =>
    simp only [call,bridge_mint,bind_ok,validate_amount_ok,read_ok,auth_ok,mint_shares_ok] at done
    obtain ⟨_,⟨nonneg,rfl⟩,_,rfl,_,⟨authorised,rfl⟩,_,_,fits,rfl⟩ := done
    exact .bridge_mint recipient shares nonneg authorised fits
  | vault_burn owner shares =>
    simp only [call,vault_burn,bind_ok,validate_amount_ok,read_ok,auth_ok,burn_shares_ok] at done
    obtain ⟨_,⟨nonneg,rfl⟩,_,rfl,_,⟨authorised,rfl⟩,enough,_,_,rfl⟩ := done
    exact .vault_burn owner shares nonneg authorised enough
  | bridge_burn owner shares =>
    simp only [call,bridge_burn,bind_ok,validate_amount_ok,read_ok,auth_ok,burn_shares_ok] at done
    obtain ⟨_,⟨nonneg,rfl⟩,_,rfl,_,⟨authorised,rfl⟩,enough,_,_,rfl⟩ := done
    exact .bridge_burn owner shares nonneg authorised enough
  | update_exchange_rate new_total_assets =>
    simp only [call,update_exchange_rate,bind_ok,require_ok,read_ok,auth_ok,write_ok] at done
    obtain ⟨_,⟨positive,rfl⟩,_,rfl,_,⟨authorised,rfl⟩,rfl⟩ := done
    exact .update_exchange_rate new_total_assets positive authorised
  | set_admin new_admin =>
    simp only [call,set_admin,bind_ok,read_ok,auth_ok,write_ok] at done
    obtain ⟨_,rfl,_,⟨authorised,rfl⟩,rfl⟩ := done
    exact .set_admin new_admin authorised
  | approve owner spender amount expiration_ledger =>
    simp only [call,approve,bind_ok,validate_amount_ok,auth_ok,write_allowance_ok] at done
    obtain ⟨_,⟨nonneg,rfl⟩,_,⟨authorised,rfl⟩,current,rfl⟩ := done
    exact .approve owner spender amount expiration_ledger nonneg authorised current
  | transfer owner recipient amount =>
    simp only [call,transfer,bind_ok,validate_amount_ok,auth_ok,spend_balance_ok,receive_balance_ok] at done
    obtain ⟨_,⟨nonneg,rfl⟩,_,⟨authorised,rfl⟩,_,⟨enough,_,rfl⟩,_,_,rfl⟩ := done
    exact .transfer owner recipient amount nonneg authorised enough
  | transfer_from spender owner recipient amount =>
    simp only [call,transfer_from,bind_ok,validate_amount_ok,auth_ok,spend_balance_ok,
      receive_balance_ok] at done
    obtain ⟨_,⟨nonneg,rfl⟩,_,⟨authorised,rfl⟩,_,allowed,_,⟨enough,_,rfl⟩,_,_,rfl⟩ := done
    obtain ⟨u,rfl,spent⟩ := spend_allowance_ok allowed
    exact .transfer_from spender owner recipient amount u nonneg authorised spent (by rwa [spent.balance] at enough)
  | burn owner amount =>
    simp only [call,burn,bind_ok,validate_amount_ok,auth_ok,spend_balance_ok] at done
    obtain ⟨_,⟨nonneg,rfl⟩,_,⟨authorised,rfl⟩,_,⟨enough,_,rfl⟩,removed⟩ := done
    obtain ⟨_,rfl⟩ := burn_external_shares_ok removed
    exact .burn owner amount nonneg authorised enough
  | burn_from spender owner amount =>
    simp only [call,burn_from,bind_ok,validate_amount_ok,auth_ok,spend_balance_ok] at done
    obtain ⟨_,⟨nonneg,rfl⟩,_,⟨authorised,rfl⟩,_,allowed,_,⟨enough,_,rfl⟩,removed⟩ := done
    obtain ⟨u,rfl,spent⟩ := spend_allowance_ok allowed
    obtain ⟨_,rfl⟩ := burn_external_shares_ok removed
    exact .burn_from spender owner amount u nonneg authorised spent (by rwa [spent.balance] at enough)

/-- A successful call finds a token and does what `Effect` says, or makes one. -/
theorem invoke_cases {env : Env} {entry : Entry} {s s' : Option HelixToken} {r : Unit}
    (done : invoke env entry s = .ok (r, s')) :
    (∃ t u, s = some t ∧ s' = some u ∧ Effect env t entry u) ∨
      (s = none ∧ ∃ admin vault bridge, entry = .initialise admin vault bridge ∧ s' = some (fresh admin vault bridge)) := by
  cases s with
  | none =>
    cases entry with
    | initialise admin vault bridge =>
      simp only [invoke] at done
      split at done
      · cases done
        exact .inr ⟨rfl,admin,vault,bridge,rfl,rfl⟩
      · cases done
    | _ => simp [invoke] at done
  | some t =>
    simp only [invoke] at done
    split at done
    · rename_i u ran
      cases done
      exact .inl ⟨t,u,rfl,rfl,effect_of_call ran⟩
    · cases done

/-- On a token there already is a successful call does what `Effect` says. -/
theorem effect_of_invoke {env : Env} {entry : Entry} {s s' : Option HelixToken} {t : HelixToken} {r : Unit}
    (found : s = some t) (done : invoke env entry s = .ok (r, s')) : ∃ u, s' = some u ∧ Effect env t entry u := by
  rcases invoke_cases done with ⟨t',u,found',left,effect⟩ | ⟨missing,_⟩
  · have same : t = t' := Option.some.inj (found.symm.trans found')
    subst same
    exact ⟨u,left,effect⟩
  · cases found.symm.trans missing

end Helix.Token
