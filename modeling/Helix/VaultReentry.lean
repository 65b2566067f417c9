import Helix.VaultSystem

/-!
The lock of the vault against contracts that come back to it. Whenever the vault calls a
token or the oracle, that contract may run any calls to the vault, each of which calls
contracts that may do so again (`Nested`), before it answers what it likes. The five
operations that take the lock call others only while it is taken (`operation_same`), and
while it is taken none of them goes through (`locked_refuses`), so what an operation
leaves in the book is its own posting and no other (`reentrancy_guard`).
-/
namespace Helix.Vault
open Invoke

/-- The entry points that take the lock. -/
def Entry.locks : Entry → Bool
  | .deposit _ _ _ | .withdraw _ _ _ | .borrow _ _ | .repay _ _ | .liquidate _ _ _ => true
  | _ => false

/-! ### Contracts that come back -/

/-- What the contracts do between a call and its answer is in `R`. -/
structure Clients.Does {S : Type} (clients : Clients S) (R : S → S → Prop) : Prop where
  balance : ∀ env id s answer t, clients.balance env id s = some (answer, t) → R s t
  transfer : ∀ env owner recipient amount s answer t, clients.transfer env owner recipient amount s = some (answer, t) →
    R s t
  transfer_from : ∀ env spender owner recipient amount s answer t,
    clients.transfer_from env spender owner recipient amount s = some (answer, t) → R s t
  assets_for_shares : ∀ env shares s answer t, clients.assets_for_shares env shares s = some (answer, t) → R s t
  shares_for_assets : ∀ env assets s answer t, clients.shares_for_assets env assets s = some (answer, t) → R s t
  lastprice : ∀ env asset s answer t, clients.lastprice env asset s = some (answer, t) → R s t
  decimals : ∀ env asset s answer t, clients.decimals env asset s = some (answer, t) → R s t

theorem Clients.Does.mono {S : Type} {clients : Clients S} {R R' : S → S → Prop} (does : clients.Does R)
    (weaker : ∀ s t, R s t → R' s t) : clients.Does R' where
  balance _ _ _ _ _ done := weaker _ _ (does.balance _ _ _ _ _ done)
  transfer _ _ _ _ _ _ _ done := weaker _ _ (does.transfer _ _ _ _ _ _ _ done)
  transfer_from _ _ _ _ _ _ _ _ done := weaker _ _ (does.transfer_from _ _ _ _ _ _ _ _ done)
  assets_for_shares _ _ _ _ _ done := weaker _ _ (does.assets_for_shares _ _ _ _ _ done)
  shares_for_assets _ _ _ _ _ done := weaker _ _ (does.shares_for_assets _ _ _ _ _ done)
  lastprice _ _ _ _ _ done := weaker _ _ (does.lastprice _ _ _ _ _ done)
  decimals _ _ _ _ _ done := weaker _ _ (does.decimals _ _ _ _ _ done)

/-- What is outside the vault, and the entry points that calls from there have got
    through. -/
structure Outside (W : Type) where
  others : W
  through : List Entry

/-- The vault and what may come back to it. -/
abbrev Nest (W : Type) : Type := World HelixVault (Outside W)

section Nested
variable {W : Type}

/-- A call from outside to an entry point has got through. -/
def noted (entry : Entry) (s : Nest W) : Nest W :=
  { s with rest := { s.rest with through := s.rest.through ++ [entry] } }

/-- Only what is outside changes. -/
def Moves (s t : Nest W) : Prop := t.own = s.own ∧ t.rest.through = s.rest.through

/-- A call to the vault, by anybody, that returns. -/
inductive Enters (clients : Clients (Nest W)) (s : Nest W) : Nest W → Prop
  | called (env : Env) (entry : Entry) (event : Option VaultEvent) (t : Nest W) :
      call clients env entry s = .ok (event, t) → Enters clients s (noted entry t)
  | health (env : Env) (user : Address) (factor : Int) (t : Nest W) :
      get_health_factor clients env user s = .ok (factor, t) → Enters clients s t
  | snapshot (env : Env) (user : Address) (snapshot : PositionSnapshot) (t : Nest W) :
      get_position_snapshot clients env user s = .ok (snapshot, t) → Enters clients s t

/-- What contracts may do before they answer, with calls nested to some depth: change
    what is outside, and call the vault, one call after the other, each of them next to
    contracts that do the same to a lesser depth. A call that fails changes nothing. -/
def Nested : Nat → Nest W → Nest W → Prop
  | 0 => Moves
  | depth + 1 => Relation.ReflTransGen (fun s t => Moves s t ∨ ∃ clients, clients.Does (Nested depth) ∧
      Enters clients s t)

/-- The entry points that have got through since do not take the lock. -/
def Through (s t : Nest W) : Prop :=
  ∃ later, t.rest.through = s.rest.through ++ later ∧ ∀ entry ∈ later, entry.locks = false

/-- What the lock keeps: while it is taken it stays taken, the book stays as it is, and
    nothing that takes it gets through; while it is free it is free again afterwards. -/
structure LockKeeps (s t : Nest W) : Prop where
  busy : s.own.locked = true → t.own.locked = true ∧ t.own.book = s.own.book ∧ Through s t
  free : s.own.locked = false → t.own.locked = false

theorem Through.refl (s : Nest W) : Through s s := ⟨[],by simp,by simp⟩

theorem Through.trans {s t u : Nest W} (first : Through s t) (second : Through t u) : Through s u := by
  obtain ⟨earlier,grown,none⟩ := first
  obtain ⟨later,grown',none'⟩ := second
  exact ⟨earlier ++ later,by rw [grown',grown,List.append_assoc],List.forall_mem_append.mpr ⟨none,none'⟩⟩

instance : Std.Refl (LockKeeps (W := W)) := ⟨fun s => ⟨fun locked => ⟨locked,rfl,.refl s⟩,id⟩⟩

instance : IsTrans (Nest W) LockKeeps where
  trans s t u first second := by
    constructor
    · intro locked
      obtain ⟨locked',same,through⟩ := first.busy locked
      obtain ⟨locked'',same',through'⟩ := second.busy locked'
      exact ⟨locked'',same'.trans same,through.trans through'⟩
    · exact fun free => second.free (first.free free)

/-! ### What the vault does while it is locked -/

/-- Answers only while the vault is locked. -/
def onlyLocked {α : Type} (f : Nest W → Option (α × Nest W)) (s : Nest W) : Option (α × Nest W) :=
  if s.own.locked = true then f s else none

/-- The same contracts, which answer only while the vault is locked. -/
def Clients.whileLocked (clients : Clients (Nest W)) : Clients (Nest W) where
  balance env id := onlyLocked (clients.balance env id)
  transfer env owner recipient amount := onlyLocked (clients.transfer env owner recipient amount)
  transfer_from env spender owner recipient amount := onlyLocked (clients.transfer_from env spender owner recipient amount)
  assets_for_shares env shares := onlyLocked (clients.assets_for_shares env shares)
  shares_for_assets env assets := onlyLocked (clients.shares_for_assets env assets)
  lastprice env asset := onlyLocked (clients.lastprice env asset)
  decimals env asset := onlyLocked (clients.decimals env asset)

/-- Contracts that do the same as others in the states where `P` holds, and what `R`
    allows. -/
structure Clients.Alike {S : Type} (P : S → Prop) (R : S → S → Prop) (clients other : Clients S) : Prop where
  balance : ∀ env id, Agree P R (reach (clients.balance env id) : Invoke S VaultError Int) (reach (other.balance env id))
  transfer : ∀ env owner recipient amount, Agree P R
    (reach (clients.transfer env owner recipient amount) : Invoke S VaultError Unit)
    (reach (other.transfer env owner recipient amount))
  transfer_from : ∀ env spender owner recipient amount, Agree P R
    (reach (clients.transfer_from env spender owner recipient amount) : Invoke S VaultError Unit)
    (reach (other.transfer_from env spender owner recipient amount))
  assets_for_shares : ∀ env shares, Agree P R (reach (clients.assets_for_shares env shares) : Invoke S VaultError Int)
    (reach (other.assets_for_shares env shares))
  shares_for_assets : ∀ env assets, Agree P R (reach (clients.shares_for_assets env assets) : Invoke S VaultError Int)
    (reach (other.shares_for_assets env assets))
  lastprice : ∀ env asset, Agree P R (reach (clients.lastprice env asset) : Invoke S VaultError (Int × Nat))
    (reach (other.lastprice env asset))
  decimals : ∀ env asset, Agree P R (reach (clients.decimals env asset) : Invoke S VaultError Nat)
    (reach (other.decimals env asset))

theorem asks_locked {α : Type} {f : Nest W → Option (α × Nest W)} (does : ∀ s a t, f s = some (a, t) → LockKeeps s t) :
    Agree (fun s => s.own.locked = true) LockKeeps (reach f : Contract (Outside W) α) (reach (onlyLocked f)) := by
  refine reach_agree ?_ ?_
  · intro s locked
    rw [onlyLocked,if_pos locked]
  · intro s a t locked done
    have kept := does s a t done
    exact ⟨(kept.busy locked).1,kept⟩

/-- While the vault is locked, contracts do the same as others, and the lock keeps. -/
abbrev Shielded (clients other : Clients (Nest W)) : Prop :=
  clients.Alike (fun s => s.own.locked = true) LockKeeps other

theorem Clients.Does.shielded {clients : Clients (Nest W)} (does : clients.Does LockKeeps) :
    Shielded clients clients.whileLocked where
  balance _ _ := asks_locked (does.balance _ _)
  transfer _ _ _ _ := asks_locked (does.transfer _ _ _ _)
  transfer_from _ _ _ _ _ := asks_locked (does.transfer_from _ _ _ _ _)
  assets_for_shares _ _ := asks_locked (does.assets_for_shares _ _)
  shares_for_assets _ _ := asks_locked (does.shares_for_assets _ _)
  lastprice _ _ := asks_locked (does.lastprice _ _)
  decimals _ _ := asks_locked (does.decimals _ _)

theorem asks_self {S α : Type} {R : S → S → Prop} {f : S → Option (α × S)} (does : ∀ s a t, f s = some (a, t) → R s t) :
    Agree (fun _ => True) R (reach f : Invoke S VaultError α) (reach f) :=
  reach_agree (fun _ _ => rfl) (fun s a t _ done => ⟨trivial,does s a t done⟩)

theorem Clients.Does.self {S : Type} {R : S → S → Prop} {clients : Clients S} (does : clients.Does R) :
    clients.Alike (fun _ => True) R clients where
  balance _ _ := asks_self (does.balance _ _)
  transfer _ _ _ _ := asks_self (does.transfer _ _ _ _)
  transfer_from _ _ _ _ _ := asks_self (does.transfer_from _ _ _ _ _)
  assets_for_shares _ _ := asks_self (does.assets_for_shares _ _)
  shares_for_assets _ _ := asks_self (does.shares_for_assets _ _)
  lastprice _ _ := asks_self (does.lastprice _ _)
  decimals _ _ := asks_self (does.decimals _ _)

theorem floor_still {left right denominator : Int} : Still (checked_mul_div_floor left right denominator : Contract W Int) :=
  .bind .require fun _ => .bind .need fun _ => .pure

section Parts
variable {P : World HelixVault W → Prop} {R : World HelixVault W → World HelixVault W → Prop} [Std.Refl R]
  [IsTrans (World HelixVault W) R] {clients other : Clients (World HelixVault W)} {env : Env} {token party : Address}
  {amount : Int} {p : Position}

theorem oracle_price_agree (alike : clients.Alike P R other) :
    Agree P R (oracle_price clients env token) (oracle_price other env token) := by
  refine .look .read fun oracle => .bind (alike.decimals _ _) fun decimals => .look .require fun _ => ?_
  exact .bind (alike.lastprice _ _) fun last => .look .require fun _ => .look .require fun _ => .still .pure

theorem collateral_value_agree (alike : clients.Alike P R other) :
    Agree P R (collateral_value_for_position clients env token amount)
      (collateral_value_for_position other env token amount) := by
  refine .ite (.still .pure) (.bind (alike.assets_for_shares _ _) fun assets => ?_)
  exact .bind (oracle_price_agree alike) fun price => .still floor_still

theorem max_borrow_agree (alike : clients.Alike P R other) :
    Agree P R (max_borrow_for_position clients env token p) (max_borrow_for_position other env token p) :=
  .look .read fun _ => .bind (collateral_value_agree alike) fun _ => .still floor_still

theorem health_factor_agree (alike : clients.Alike P R other) :
    Agree P R (health_factor_for_position clients env token p) (health_factor_for_position other env token p) :=
  .ite (.still .pure) (.look .read fun _ => .bind (collateral_value_agree alike) fun _ => .still floor_still)

theorem require_healthy_agree (alike : clients.Alike P R other) :
    Agree P R (require_healthy clients env token p) (require_healthy other env token p) :=
  .ite (.bind (health_factor_agree alike) fun _ => .still .require) (.still .pure)

theorem receive_agree (alike : clients.Alike P R other) :
    Agree P R (receive clients env token party amount) (receive other env token party amount) := by
  refine .bind (alike.balance _ _) fun before => .bind (alike.transfer_from _ _ _ _ _) fun _ => ?_
  exact .bind (alike.balance _ _) fun after => .look .need fun _ => .still .require

theorem receive_some_agree (alike : clients.Alike P R other) :
    Agree P R (receive_some clients env token party amount) (receive_some other env token party amount) :=
  .ite (receive_agree alike) (.still .pure)

theorem send_agree (alike : clients.Alike P R other) :
    Agree P R (send clients env token party amount) (send other env token party amount) := by
  refine .bind (alike.balance _ _) fun before => .bind (alike.transfer _ _ _ _) fun _ => ?_
  exact .bind (alike.balance _ _) fun after => .look .need fun _ => .still .require

theorem lend_agree (alike : clients.Alike P R other) :
    Agree P R (lend clients env token party amount) (lend other env token party amount) := by
  refine .bind (alike.balance _ _) fun before => .look .require fun _ => .bind (alike.transfer _ _ _ _) fun _ => ?_
  exact .bind (alike.balance _ _) fun after => .look .need fun _ => .still .require

theorem accrue_still : Still (accrue_position env p : Contract W Position) :=
  fun _ _ done => by rw [(preview_accrued_position_ok.mp done).2]

theorem stored_still : Still (read_position_required party : Contract W Position) := .bind .read fun _ => .need

theorem primary_still : Still (primary_supported_asset : Contract W Address) := .bind .read fun _ => .need

theorem get_health_factor_agree (alike : clients.Alike P R other) :
    Agree P R (get_health_factor clients env party) (get_health_factor other env party) :=
  .look primary_still fun _ => .look stored_still fun _ => .look accrue_still fun _ => health_factor_agree alike

theorem get_position_snapshot_agree (alike : clients.Alike P R other) :
    Agree P R (get_position_snapshot clients env party) (get_position_snapshot other env party) := by
  refine .look primary_still fun _ => .look .read fun _ => .look stored_still fun _ => .look accrue_still fun _ => ?_
  exact .look .need fun _ => .bind (health_factor_agree alike) fun _ => .look .read fun _ => .still .pure

end Parts

/-! ### The operations -/

/-- The lock stays taken. -/
def Busy (s t : Nest W) : Prop := s.own.locked = true → t.own.locked = true

instance : Std.Refl (Busy (W := W)) := ⟨fun _ locked => locked⟩
instance : IsTrans (Nest W) Busy := ⟨fun _ _ _ first second locked => second (first locked)⟩

/-- The same, where the book may change as well. -/
def Locked {α : Type} (x y : Contract (Outside W) α) : Prop := Agree (fun s => s.own.locked = true) Busy x y

/-- A part of an operation keeps the lock. -/
theorem busy {α : Type} {x y : Contract (Outside W) α}
    (agree : Agree (fun s => s.own.locked = true) LockKeeps x y) : Locked x y :=
  agree.weaken fun _ _ kept locked => (kept.busy locked).1

theorem save_locked {change : HelixVault → HelixVault} (keeps : ∀ v, (change v).locked = v.locked) :
    Locked (W := W) (save change) (save change) :=
  .write fun s locked => ⟨(keeps s.own).trans locked,fun _ => (keeps s.own).trans locked⟩

/-- A locked vault refuses to lock. -/
theorem with_lock_taken {α : Type} {x : Contract (Outside W) α} {s : Nest W} (taken : s.own.locked = true) :
    with_lock x s = .error (.error .Reentrancy) := by
  rw [with_lock,bind_of_ok (load_ok.mpr rfl)]
  exact bind_error.mpr (.inl (require_error.mpr ⟨by simp [taken],rfl⟩))

/-- An unlocked vault runs the body locked, and unlocks. -/
theorem with_lock_free {α : Type} {x : Contract (Outside W) α} {s : Nest W} (free : s.own.locked = false) :
    with_lock x s = (x >>= fun result => do
      save (fun v => { v with locked := false })
      pure result) { s with own := { s.own with locked := true } } := by
  rw [with_lock,bind_of_ok (load_ok.mpr rfl),bind_of_ok (require_ok.mpr ⟨free,rfl⟩),bind_of_ok (save_ok.mpr rfl)]

theorem with_lock_same {α : Type} {x y : Contract (Outside W) α} (locked : Locked x y) : with_lock x = with_lock y := by
  funext s
  cases taken : s.own.locked with
  | true => rw [with_lock_taken taken,with_lock_taken taken]
  | false =>
    obtain ⟨same,_⟩ := locked { s with own := { s.own with locked := true } } rfl
    rw [with_lock_free taken,with_lock_free taken]
    simp only [bind,same]

section Operations
variable {clients other : Clients (Nest W)} {env : Env} {user token : Address} {amount : Int}

theorem opened_still : Still (position_or_new env user : Contract W Position) := .bind .read fun _ => .pure

theorem enforce_still : Still (enforce_min_position amount : Contract W Unit) :=
  fun _ _ done => by rw [(enforce_min_position_ok.mp done).2]

theorem store_or_remove_locked {p : Position} :
    Locked (W := W) (store_or_remove_position user p) (store_or_remove_position user p) :=
  .ite (save_locked fun _ => rfl) (save_locked fun _ => rfl)

theorem deposit_same (alike : Shielded clients other) :
    deposit clients env user token amount = deposit other env user token amount := by
  refine bind_congr fun _ => bind_congr fun _ => bind_congr fun _ => bind_congr fun _ => with_lock_same ?_
  refine .look opened_still fun stored => .bind (.ite (.still accrue_still) (.still .pure)) fun position => ?_
  refine .bind (busy (receive_agree alike)) fun _ => .look .need fun shares => .look enforce_still fun _ => ?_
  refine .look .read fun total => .look .need fun updated => ?_
  exact .bind (save_locked fun _ => rfl) fun _ => .bind (save_locked fun _ => rfl) fun _ => .still .pure

theorem withdraw_same (alike : Shielded clients other) :
    withdraw clients env user token amount = withdraw other env user token amount := by
  refine bind_congr fun _ => bind_congr fun _ => bind_congr fun _ => bind_congr fun _ => with_lock_same ?_
  refine .look stored_still fun stored => .look accrue_still fun position => .look .require fun _ => ?_
  refine .look .need fun shares => .look enforce_still fun _ => .bind (busy (require_healthy_agree alike)) fun _ => ?_
  refine .bind (busy (send_agree alike)) fun _ => .look .read fun total => .look .need fun updated => ?_
  exact .bind (save_locked fun _ => rfl) fun _ => .bind store_or_remove_locked fun _ => .still .pure

theorem borrow_same (alike : Shielded clients other) :
    borrow clients env user amount = borrow other env user amount := by
  refine bind_congr fun _ => bind_congr fun _ => bind_congr fun _ => bind_congr fun borrows => with_lock_same ?_
  refine .look primary_still fun first => .look opened_still fun stored => ?_
  refine .look accrue_still fun position => .look .need fun debt => ?_
  refine .bind (busy (max_borrow_agree alike)) fun allowed => .look .require fun _ => ?_
  refine .bind (busy (lend_agree alike)) fun _ => .look .read fun total => .look .need fun updated => ?_
  refine .bind (busy (health_factor_agree alike)) fun factor => .bind (save_locked fun _ => rfl) fun _ => ?_
  exact .bind (save_locked fun _ => rfl) fun _ => .still .pure

theorem repay_same (alike : Shielded clients other) :
    repay clients env user amount = repay other env user amount := by
  refine bind_congr fun _ => bind_congr fun _ => bind_congr fun borrows => with_lock_same ?_
  refine .look stored_still fun stored => .look accrue_still fun position => ?_
  refine .bind (busy (receive_some_agree alike)) fun _ => .look .need fun debt => ?_
  refine .look .read fun total => .look .need fun updated => .bind (save_locked fun _ => rfl) fun _ => ?_
  exact .bind store_or_remove_locked fun _ => .still .pure

theorem liquidate_same {liquidator : Address} (alike : Shielded clients other) :
    liquidate clients env liquidator user amount = liquidate other env liquidator user amount := by
  refine bind_congr fun _ => bind_congr fun _ => bind_congr fun _ => bind_congr fun _ => bind_congr fun first => ?_
  refine bind_congr fun borrows => with_lock_same ?_
  refine .look .read fun config => .look stored_still fun stored => .look accrue_still fun position => ?_
  refine .bind (busy (health_factor_agree alike)) fun factor => .look .require fun _ => .look .require fun _ => ?_
  refine .bind (busy (receive_agree alike)) fun _ => .look floor_still fun bonus => ?_
  refine .look .need fun value => .bind (busy (oracle_price_agree alike)) fun price => ?_
  refine .look floor_still fun assets => ?_
  refine .bind (busy (alike.shares_for_assets _ _)) fun seized => .look .require fun _ => ?_
  refine .look .require fun _ => .bind (busy (send_agree alike)) fun _ => .look .need fun shares => ?_
  refine .look .need fun debt => .look .read fun deposits => .look .read fun borrowed => .look .need fun _ => ?_
  refine .look .need fun _ => .bind (save_locked fun _ => rfl) fun _ => .bind (save_locked fun _ => rfl) fun _ => ?_
  exact .bind store_or_remove_locked fun _ => .still .pure

/-- An operation calls other contracts only while it has the lock, whether it returns or
    fails: it does the same with contracts that do the same then. -/
theorem operation_same {entry : Entry} (alike : Shielded clients other) :
    call clients env entry = call other env entry := by
  cases entry with
  | deposit user token amount => exact deposit_same alike
  | withdraw user token amount => exact withdraw_same alike
  | borrow user amount => exact borrow_same alike
  | repay user amount => exact repay_same alike
  | liquidate liquidator user repay_amount => exact liquidate_same alike
  | _ => rfl

/-- A program that returns only where the vault is not locked. -/
def Frees {α : Type} (x : Contract W α) : Prop := ∀ s r, x s = .ok r → s.own.locked = false

theorem Frees.look {α β : Type} {x : Contract W α} {f : α → Contract W β} (still : Still x) (later : ∀ a, Frees (f a)) :
    Frees (x >>= f) := by
  intro s r done
  obtain ⟨q,ran,rest⟩ := bind_ok.mp done
  have free := later q.1 q.2 r rest
  rwa [still s q ran] at free

theorem with_lock_frees {α : Type} {x : Contract W α} : Frees (with_lock x) := fun _ _ done => (with_lock_ok.mp done).1

/-- While the vault is locked no operation goes through, whatever contracts it calls. -/
theorem locked_refuses {clients : Clients (World HelixVault W)} {entry : Entry} {s : World HelixVault W}
    {r : Option VaultEvent × World HelixVault W} (operation : entry.locks = true) (locked : s.own.locked = true) :
    call clients env entry s ≠ .ok r := by
  have frees : Frees (call clients env entry) := by
    cases entry with
    | deposit user token amount =>
      exact .look .require fun _ => .look .require fun _ => .look (.bind .read fun _ => .require) fun _ =>
        .look (.bind .read fun _ => .require) fun _ => with_lock_frees
    | withdraw user token amount =>
      exact .look .require fun _ => .look .require fun _ => .look (.bind .read fun _ => .require) fun _ =>
        .look (.bind .read fun _ => .require) fun _ => with_lock_frees
    | borrow user amount =>
      exact .look .require fun _ => .look .require fun _ => .look (.bind .read fun _ => .require) fun _ =>
        .look .read fun _ => with_lock_frees
    | repay user amount =>
      exact .look .require fun _ => .look .require fun _ => .look .read fun _ => with_lock_frees
    | liquidate liquidator user repay_amount =>
      exact .look .require fun _ => .look .require fun _ => .look (.bind .read fun _ => .require) fun _ =>
        .look (.bind .read fun _ => .require) fun _ => .look primary_still fun _ => .look .read fun _ => with_lock_frees
    | _ => cases operation
  intro done
  rw [frees s r done] at locked
  cases locked

/-- What an operation leaves that returns: its posting, and an unlocked vault. -/
structure Lands (env : Env) (s : Nest W) (entry : Entry) (event : Option VaultEvent) (t : Nest W) : Prop where
  free : s.own.locked = false
  freed : t.own.locked = false
  posts : Posts env.timestamp s.own entry event t.own.book
  through : Through s t

section Landings
variable (env) {s t : Nest W} {entry : Entry} {event : Option VaultEvent} {q : Position} {shares debt : Int}

theorem lands_posted (free : s.own.locked = false) (kept : LockKeeps (taken s) t)
    (posts : Posts env.timestamp s.own entry event (s.own.posted user q shares debt).book) :
    Lands env s entry event ⟨t.own.posted user q shares debt,t.rest⟩ := by
  obtain ⟨_,same,through⟩ := kept.busy rfl
  have book : t.own.book = s.own.book := same
  rw [← HelixVault.posted_congr book] at posts
  exact ⟨free,rfl,posts,through⟩

theorem lands_settled (free : s.own.locked = false) (kept : LockKeeps (taken s) t)
    (posts : Posts env.timestamp s.own entry event (s.own.settled user q shares debt).book) :
    Lands env s entry event ⟨t.own.settled user q shares debt,t.rest⟩ := by
  obtain ⟨_,same,through⟩ := kept.busy rfl
  have book : t.own.book = s.own.book := same
  rw [← HelixVault.settled_congr book] at posts
  exact ⟨free,rfl,posts,through⟩

end Landings

variable {s : Nest W} {r : Option VaultEvent × Nest W}

theorem deposit_lands (alike : Shielded clients other) (done : deposit clients env user token amount s = .ok r) :
    Lands env s (.deposit user token amount) r.1 r.2 := by
  obtain ⟨asked,_,_,_,t,p,drawn,_,position,_,_,rfl⟩ := deposit_ran done
  obtain ⟨_,kept⟩ := (receive_agree alike _ rfl).2 _ drawn
  exact lands_posted env asked.unlocked kept (.deposit user token amount p asked.positive position)

theorem withdraw_lands (alike : Shielded clients other) (done : withdraw clients env user token amount s = .ok r) :
    Lands env s (.withdraw user token amount) r.1 r.2 := by
  obtain ⟨asked,_,_,_,_,enough,_,t,u,p,position,_,checked,paid,_,rfl⟩ := withdraw_ran done
  obtain ⟨locked,first⟩ := (require_healthy_agree alike _ rfl).2 _ checked
  obtain ⟨_,second⟩ := (send_agree alike _ locked).2 _ paid
  have kept : LockKeeps (taken s) u := IsTrans.trans _ _ _ first second
  exact lands_settled env asked.unlocked kept (.withdraw user token amount p enough position)

theorem borrow_lands (alike : Shielded clients other) (done : borrow clients env user amount s = .ok r) :
    Lands env s (.borrow user amount) r.1 r.2 := by
  obtain ⟨asked,_,_,_,first,allowed,factor,t,u,w,p,_,position,valued,_,paid,_,rated,rfl⟩ := borrow_ran done
  obtain ⟨locked,before⟩ := (max_borrow_agree alike _ rfl).2 _ valued
  obtain ⟨locked',between⟩ := (lend_agree alike _ locked).2 _ paid
  obtain ⟨_,after⟩ := (health_factor_agree alike _ locked').2 _ rated
  have kept : LockKeeps (taken s) w := IsTrans.trans _ _ _ (IsTrans.trans _ _ _ before between) after
  have lands := lands_posted env asked.unlocked kept (.borrow user amount factor p asked.positive position)
  -- the total was read before the health factor, and is still the same
  have book : w.own.book = u.own.book := (after.busy locked').2.1
  have total : u.own.total_borrows = w.own.total_borrows := (congrArg Book.total_borrows book).symm
  rw [HelixVault.posted,add_zero,← total] at lands
  exact lands

theorem repay_lands (alike : Shielded clients other) (done : repay clients env user amount s = .ok r) :
    Lands env s (.repay user amount) r.1 r.2 := by
  obtain ⟨asked,_,_,actual,t,p,capped,drawn,_,position,_,rfl⟩ := repay_ran done
  obtain ⟨_,kept⟩ := (receive_some_agree alike _ rfl).2 _ drawn
  exact lands_settled env asked.unlocked kept (.repay user amount actual p capped position)

theorem liquidate_lands {liquidator : Address} (alike : Shielded clients other)
    (done : liquidate clients env liquidator user amount s = .ok r) :
    Lands env s (.liquidate liquidator user amount) r.1 r.2 := by
  obtain ⟨asked,_,_,_,_,first,factor,actual,bonus,price,seized,a,b,c,d,t,p,_,rated,_,capped,_,drawn,_,_,_,quoted,_,
    converted,_,enough,paid,_,_,position,_,_,rfl⟩ := liquidate_ran done
  obtain ⟨locked,kept⟩ := (health_factor_agree alike _ rfl).2 _ rated
  obtain ⟨locked,received⟩ := (receive_agree alike _ locked).2 _ drawn
  obtain ⟨locked,priced⟩ := (oracle_price_agree alike _ locked).2 _ quoted
  obtain ⟨locked,told⟩ := (alike.shares_for_assets _ _ _ locked).2 _ converted
  obtain ⟨_,gone⟩ := (send_agree alike _ locked).2 _ paid
  have before : LockKeeps (taken s) c := IsTrans.trans _ _ _ (IsTrans.trans _ _ _ kept received) priced
  have whole : LockKeeps (taken s) t := IsTrans.trans _ _ _ (IsTrans.trans _ _ _ before told) gone
  exact lands_settled env asked.unlocked whole
    (.liquidate liquidator user amount actual bonus seized p capped enough position)

theorem lands_of_call {entry : Entry} (alike : Shielded clients other) (operation : entry.locks = true)
    (done : call clients env entry s = .ok r) : Lands env s entry r.1 r.2 := by
  cases entry with
  | deposit user token amount => exact deposit_lands alike done
  | withdraw user token amount => exact withdraw_lands alike done
  | borrow user amount => exact borrow_lands alike done
  | repay user amount => exact repay_lands alike done
  | liquidate liquidator user repay_amount => exact liquidate_lands alike done
  | _ => cases operation

/-- Contracts that never answer. -/
def silent : Clients W where
  balance _ _ _ := none
  transfer _ _ _ _ _ := none
  transfer_from _ _ _ _ _ _ := none
  assets_for_shares _ _ _ := none
  shares_for_assets _ _ _ := none
  lastprice _ _ _ := none
  decimals _ _ _ := none

/-- The other entry points call no contracts. -/
theorem configured_of_call {entry : Entry} (quiet : entry.locks = false) (done : call clients env entry s = .ok r) :
    Configured env s.own entry r.1 r.2.own ∧ r.2.rest = s.rest := by
  have alone : call silent.apart env entry s = .ok r := by
    rw [← done]
    cases entry with
    | deposit | withdraw | borrow | repay | liquidate => cases quiet
    | _ => rfl
  have effect : Effect silent env s entry r.1 r.2 := effect_of_call alone
  obtain ⟨event,t⟩ := r
  cases effect with
  | deposit | withdraw | borrow | repay | liquidate => cases quiet
  | configured _ _ v configured => exact ⟨configured,rfl⟩

end Operations

/-! ### What nested calls keep -/

section Keeping
variable {clients : Clients (Nest W)} {s t : Nest W}

/-- One call from outside keeps the lock, whatever contracts it meets that do. -/
theorem enters_keeps (does : clients.Does LockKeeps) (enters : Enters clients s t) : LockKeeps s t := by
  cases enters with
  | called env entry event t ran =>
    cases operation : entry.locks with
    | true =>
      have lands := lands_of_call does.shielded operation ran
      exact ⟨fun locked => absurd ran (locked_refuses operation locked),fun _ => lands.freed⟩
    | false =>
      obtain ⟨configured,rest⟩ := configured_of_call operation ran
      obtain ⟨_,_,book,locked,_⟩ := configured.idle
      refine ⟨fun taken => ⟨locked.trans taken,book,[entry],?_,?_⟩,fun free => locked.trans free⟩
      · rw [noted,rest]
      · simpa using operation
  | health env user factor t ran => exact ((get_health_factor_agree does.self s trivial).2 _ ran).2
  | snapshot env user snapshot t ran => exact ((get_position_snapshot_agree does.self s trivial).2 _ ran).2

theorem moves_keeps (moves : Moves s t) : LockKeeps s t := by
  obtain ⟨own,through⟩ := moves
  refine ⟨fun locked => ⟨by rw [own,locked],by rw [own],[],by rw [through,List.append_nil],by simp⟩,fun free => ?_⟩
  rw [own,free]

/-- So does everything that contracts may do before they answer. -/
theorem nested_keeps (depth : Nat) : ∀ {s t : Nest W}, Nested depth s t → LockKeeps s t := by
  induction depth with
  | zero => exact fun moves => moves_keeps moves
  | succ depth ih =>
    intro s t nested
    induction nested with
    | refl => exact refl s
    | tail _ step kept =>
      refine IsTrans.trans _ _ _ kept ?_
      rcases step with moves | ⟨clients,does,enters⟩
      · exact moves_keeps moves
      · exact enters_keeps (does.mono fun _ _ => ih) enters

end Keeping

/-! ### On the chain -/

/-- What happens on the chain: a call to the vault or a question to it, next to
    contracts that may come back, or anything else outside it. -/
inductive Attempt (W : Type) where
  | vault (clients : Clients (Nest W)) (entry : Entry)
  | health (clients : Clients (Nest W)) (user : Address)
  | snapshot (clients : Clients (Nest W)) (user : Address)
  | outside (move : W → W)

/-- A question to a vault that may not be initialized yet. -/
def asking {α : Type} (code : Contract (Outside W) α) : Invoke (State (Outside W)) VaultError (Option VaultEvent) := fun s =>
  match s.own with
  | none => .error (.error .NotInitialized)
  | some v =>
    match code ⟨v,s.rest⟩ with
    | .ok (_, t) => .ok (none, ⟨some t.own,t.rest⟩)
    | .error e => .error e

def attempt (env : Env) : Attempt W → Invoke (State (Outside W)) VaultError (Option VaultEvent)
  | .vault clients entry => invoke clients env entry
  | .health clients user => asking (get_health_factor clients env user)
  | .snapshot clients user => asking (get_position_snapshot clients env user)
  | .outside move => do
    write (fun s => { s with rest := { s.rest with others := move s.rest.others } })
    pure none

/-- The contracts that an attempt meets do what they may do before they answer, at
    some depth. -/
def Attempt.Nests : Attempt W → Prop
  | .vault clients _ | .health clients _ | .snapshot clients _ => ∃ depth, clients.Does (Nested depth)
  | .outside _ => True

/-- The chain on which contracts may come back to the vault. -/
abbrev meets (vault : Address) :
    Chain (State (Outside W)) → Origin × Attempt W → Except (Failure VaultError) (Option VaultEvent) ×
      Chain (State (Outside W)) :=
  deliver vault attempt

/-- A transition of that chain. -/
abbrev Met (W : Type) : Type := Delivery (State (Outside W)) VaultError (Attempt W) (Option VaultEvent)

/-- A vault that is not locked. -/
def Ready (s : State (Outside W)) : Prop := ∀ v, s.own = some v → v.locked = false

section Chains
variable {vault : Address} {r : Met W}

/-- What the lock keeps leaves the vault ready. -/
theorem LockKeeps.ready {s : State (Outside W)} {v : HelixVault} {t : Nest W} (kept : LockKeeps ⟨v,s.rest⟩ t)
    (ready : Ready s) (own : s.own = some v) : Ready ⟨some t.own,t.rest⟩ := by
  rintro v' ⟨⟩
  exact kept.free (ready v own)

theorem asking_ready {α : Type} {code : Contract (Outside W) α} {s t : State (Outside W)} {event : Option VaultEvent}
    (keeps : ∀ s r, code s = .ok r → LockKeeps s r.2) (ready : Ready s) (done : asking code s = .ok (event, t)) :
    Ready t := by
  unfold asking at done
  cases own : s.own with
  | none =>
    rw [own] at done
    cases done
  | some v =>
    simp only [own] at done
    cases ran : code ⟨v,s.rest⟩ with
    | error e =>
      rw [ran] at done
      cases done
    | ok q =>
      rw [ran] at done
      cases done
      exact (keeps _ _ ran).ready ready own

/-- An attempt that returns leaves the vault ready. -/
theorem attempt_ready {env : Env} {a : Attempt W} {s t : State (Outside W)} {event : Option VaultEvent}
    (nests : a.Nests) (ready : Ready s) (done : attempt env a s = .ok (event, t)) : Ready t := by
  cases a with
  | vault clients entry =>
    obtain ⟨depth,does⟩ := nests
    rcases invoke_ran done with ⟨v,u,own,ran,rfl⟩ | ⟨_,_,admin,oracle,borrow_token,config,_,_,_,made⟩
    · have kept : LockKeeps ⟨v,s.rest⟩ (noted entry u) :=
        enters_keeps (does.mono fun _ _ => nested_keeps depth) (.called env entry event u ran)
      exact kept.ready ready own
    · intro v own
      rw [made] at own
      cases own
      rfl
  | health clients user =>
    obtain ⟨depth,does⟩ := nests
    have keeps := does.mono fun _ _ => nested_keeps depth
    exact asking_ready (fun s r ran => ((get_health_factor_agree keeps.self s trivial).2 r ran).2) ready done
  | snapshot clients user =>
    obtain ⟨depth,does⟩ := nests
    have keeps := does.mono fun _ _ => nested_keeps depth
    exact asking_ready (fun s r ran => ((get_position_snapshot_agree keeps.self s trivial).2 r ran).2) ready done
  | outside move =>
    simp only [attempt,bind_ok,write_ok,pure_ok,exists_eq_left,Prod.mk.injEq] at done
    obtain ⟨_,rfl⟩ := done
    exact ready

/-- The vault is ready between attempts, whether they return or fail. -/
theorem met_ready (makes : Makes (meets vault) r) (nests : r.input.2.Nests) (ready : Ready r.before.state) :
    Ready r.after.state := by
  rcases Delivery.cases makes with ⟨event,_,ran⟩ | ⟨e,_,same⟩
  · exact attempt_ready nests ready ran
  · rw [same]
    exact ready

/-- An operation does on the chain what it does with contracts that answer only while
    the vault is locked. -/
theorem met_same {clients : Clients (Nest W)} {entry : Entry} (makes : Makes (meets vault) r)
    (nests : r.input.2.Nests) (input : r.input.2 = .vault clients entry) :
    meets vault r.before (r.input.1,.vault clients.whileLocked entry) = (r.output, r.after) := by
  rw [input] at nests
  obtain ⟨depth,does⟩ := nests
  have keeps := does.mono fun _ _ => nested_keeps depth
  have same : ∀ env s, invoke clients.whileLocked env entry s = invoke clients env entry s := by
    intro env s
    have calls : call clients env entry = call clients.whileLocked env entry := operation_same keeps.shielded
    obtain ⟨own,rest⟩ := s
    cases own with
    | none => cases entry <;> rfl
    | some v => simp only [invoke,calls]
  have made : meets vault r.before (r.input.1,.vault clients entry) = (r.output, r.after) := by
    rw [← input]
    exact makes
  rw [← made]
  simp only [deliver,attempt,same]

/-- An operation that returns leaves its own posting, and no operation has got through
    meanwhile. -/
theorem met_posts {clients : Clients (Nest W)} {entry : Entry} {event : Option VaultEvent} (makes : Makes (meets vault) r)
    (nests : r.input.2.Nests) (input : r.input.2 = .vault clients entry) (operation : entry.locks = true)
    (out : r.output = .ok event) : ∃ v v', r.before.state.own = some v ∧ r.after.state.own = some v' ∧
      Posts r.clock.timestamp v entry event v'.book ∧ ∃ later,
        r.after.state.rest.through = r.before.state.rest.through ++ later ∧ ∀ nested ∈ later, nested.locks = false := by
  have ran := Delivery.returned makes out
  rw [input] at nests ran
  obtain ⟨depth,does⟩ := nests
  have keeps := does.mono fun _ _ => nested_keeps depth
  rcases invoke_ran ran with ⟨v,u,own,done,left⟩ | ⟨_,_,admin,oracle,borrow_token,config,made,_⟩
  · have lands := lands_of_call keeps.shielded operation done
    rw [left]
    exact ⟨v,u.own,own,rfl,lands.posts,lands.through⟩
  · rw [made] at operation
    cases operation

end Chains

end Nested

/-- On a chain whose contracts may come back to the vault before they answer, to any
    depth: the vault is never locked between top-level calls, whether they return or
    fail. An operation that takes the lock calls other contracts only while it has it;
    no such operation goes through on a locked vault, which stays locked with the same
    book whatever those contracts do; and so an operation that returns leaves in the
    book what it computes itself, and none has got through meanwhile. -/
theorem reentrancy_guard {W : Type} (vault : Address) (clock : Clock) (w : W) (calls : List (Origin × Attempt W))
    (nests : ∀ call ∈ calls, call.2.Nests) :
    (∀ v, (run (meets vault) ⟨clock,⟨none,⟨w,[]⟩⟩⟩ calls).state.own = some v → v.locked = false) ∧
    (∀ r ∈ trace (meets vault) ⟨clock,⟨none,⟨w,[]⟩⟩⟩ calls, (∀ v, r.before.state.own = some v → v.locked = false) ∧
      ∀ clients entry, r.input.2 = .vault clients entry → entry.locks = true →
        meets vault r.before (r.input.1,.vault clients.whileLocked entry) = (r.output, r.after) ∧
        ∀ event, r.output = .ok event → ∃ v v', r.before.state.own = some v ∧ r.after.state.own = some v' ∧
          Posts (Delivery.clock r).timestamp v entry event v'.book ∧ ∃ later,
            r.after.state.rest.through = r.before.state.rest.through ++ later ∧ ∀ nested ∈ later, nested.locks = false) ∧
    (∀ (clients : Clients (Nest W)) env entry (s : Nest W) r, entry.locks = true → s.own.locked = true →
      call clients env entry s ≠ .ok r) ∧
    (∀ depth (s t : Nest W), Nested depth s t → s.own.locked = true → t.own.locked = true ∧ t.own.book = s.own.book) := by
  have start : Ready (⟨none,⟨w,[]⟩⟩ : State (Outside W)) := nofun
  have nested : ∀ r ∈ trace (meets vault) ⟨clock,⟨none,⟨w,[]⟩⟩⟩ calls, r.input.2.Nests :=
    fun r member => nests r.input (trace_input member)
  refine ⟨?_,?_,fun clients env entry s r operation locked => locked_refuses operation locked,?_⟩
  · exact run_invariant (meets vault) (fun c => Ready c.state) calls start
      (fun r member makes held => met_ready makes (nested r member) held)
  · intro r member
    have ready := trace_invariant (meets vault) (fun c => Ready c.state) calls start
      (fun r member makes held => met_ready makes (nested r member) held) r member
    refine ⟨ready,fun clients entry input operation => ?_⟩
    have makes := trace_makes member
    exact ⟨met_same makes (nested r member) input,
      fun event out => met_posts makes (nested r member) input operation out⟩
  · intro depth s t nested locked
    obtain ⟨locked',same,_⟩ := (nested_keeps depth nested).busy locked
    exact ⟨locked',same⟩

namespace Small

/-- A call to a contract that leaves the vault alone. -/
def beyond {α : Type} (f : Purse → Option (α × Purse)) (s : Nest Purse) : Option (α × Nest Purse) :=
  (f s.rest.others).map (fun r => (r.1,{ s with rest := { s.rest with others := r.2 } }))

def bystanders : Clients (Nest Purse) where
  balance env id := beyond (clients.balance env id)
  transfer env owner recipient amount := beyond (clients.transfer env owner recipient amount)
  transfer_from env spender owner recipient amount := beyond (clients.transfer_from env spender owner recipient amount)
  assets_for_shares env shares := beyond (clients.assets_for_shares env shares)
  shares_for_assets env assets := beyond (clients.shares_for_assets env assets)
  lastprice env asset := beyond (clients.lastprice env asset)
  decimals env asset := beyond (clients.decimals env asset)

/-- A token calls the vault back, and does not mind whether it fails. -/
def callsBack (env : Env) (entry : Entry) (s : Nest Purse) : Nest Purse :=
  match call bystanders (env.calling vault) entry s with
  | .ok (_, t) => noted entry t
  | .error _ => s

/-- Tokens that deposit for themselves and pause the vault before they move anything for
    a spender. -/
def hostile : Clients (Nest Purse) :=
  { bystanders with
    transfer_from := fun env spender owner recipient amount s =>
      beyond (clients.transfer_from env spender owner recipient amount)
        (callsBack env (.pause_by env.current_contract_address)
          (callsBack env (.deposit env.current_contract_address env.current_contract_address 1000) s)) }

/-- The token may pause the vault, and a user deposits. -/
def hostileDeposit : List (Origin × Attempt Purse) :=
  [(.signedBy admin,.vault bystanders (.initialise admin oracle borrow_token config)),
    (.signedBy admin,.vault bystanders (.add_supported_asset tokenA)),
    (.signedBy admin,.vault bystanders (.grant_role tokenA PAUSER_ROLE)),
    (.signedBy userA,.vault hostile (.deposit userA tokenA 1000000))]

/-- What that leaves. -/
def paused : State (Outside Purse) := (run (meets vault) ⟨⟨0,0⟩,⟨none,⟨purse,[]⟩⟩⟩ hostileDeposit).state

theorem beyond_moves {α : Type} {f : Purse → Option (α × Purse)} (s : Nest Purse) (a : α) (t : Nest Purse)
    (done : beyond f s = some (a, t)) : Moves s t := by
  obtain ⟨r,_,made⟩ := Option.map_eq_some_iff.mp done
  cases made
  exact ⟨rfl,rfl⟩

theorem bystanders_move : bystanders.Does Moves where
  balance env id := beyond_moves (f := clients.balance env id)
  transfer env owner recipient amount := beyond_moves (f := clients.transfer env owner recipient amount)
  transfer_from env spender owner recipient amount :=
    beyond_moves (f := clients.transfer_from env spender owner recipient amount)
  assets_for_shares env shares := beyond_moves (f := clients.assets_for_shares env shares)
  shares_for_assets env assets := beyond_moves (f := clients.shares_for_assets env assets)
  lastprice env asset := beyond_moves (f := clients.lastprice env asset)
  decimals env asset := beyond_moves (f := clients.decimals env asset)

theorem callsBack_nested (env : Env) (entry : Entry) (s : Nest Purse) : Nested 1 s (callsBack env entry s) := by
  unfold callsBack
  split
  · next event t ran => exact .single (.inr ⟨bystanders,bystanders_move,.called _ entry event t ran⟩)
  · exact .refl

theorem bystanders_nested : bystanders.Does (Nested 1) := bystanders_move.mono fun _ _ moves => .single (.inl moves)

theorem hostile_nested : hostile.Does (Nested 1) :=
  { bystanders_nested with
    transfer_from := by
      intro env spender owner recipient amount s answer t done
      have calls := (callsBack_nested env (.deposit env.current_contract_address env.current_contract_address 1000) s).trans
        (callsBack_nested env (.pause_by env.current_contract_address) _)
      exact calls.tail (.inl (beyond_moves _ _ _ done)) }

end Small

/-- The token pauses the vault during the deposit, but its own deposit does not get
    through. -/
theorem reentrancy_guard_hostile :
    Small.paused.rest.through = [.pause_by Small.tokenA] ∧
    Small.paused.own.map (fun v => (v.paused,v.total_deposits)) = some (true, 1000000) ∧
    ∀ v, Small.paused.own = some v → v.locked = false := by
  have nests : ∀ call ∈ Small.hostileDeposit, call.2.Nests := by
    simp only [Small.hostileDeposit,List.forall_mem_cons,Attempt.Nests]
    exact ⟨⟨1,Small.bystanders_nested⟩,⟨1,Small.bystanders_nested⟩,⟨1,Small.bystanders_nested⟩,⟨1,Small.hostile_nested⟩,
      nofun⟩
  have guarded := reentrancy_guard Small.vault ⟨0,0⟩ Small.purse Small.hostileDeposit nests
  exact ⟨by decide +kernel,by decide +kernel,guarded.1⟩

end Helix.Vault
