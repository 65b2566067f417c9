import Helix.VaultCalls

/-!
The books of a vault. As far as its accounts go, a vault is a book of positions
with two totals, and a call either leaves the book alone or charges one position
and posts some shares and some debt to it (`Book.post`). The vault on a chain
refines that (`books_of_turn`), and its books stay well formed
(`WellFormed`, `serve_wellFormed`).
-/
namespace Helix.Vault
open Invoke

/-! ### Books and postings -/

/-- What a call posts to the position of a user. -/
structure Posting where
  user : Address
  shares : Int
  debt : Int

structure Book where
  positions : Store Address Position
  total_deposits : Int
  total_borrows : Int

/-- What holds of a stored position. -/
structure SoundPosition (now : Nat) (p : Position) : Prop where
  shares_nonneg : 0 ≤ p.deposited_shares
  debt_nonneg : 0 ≤ p.borrowed_amount
  nonempty : 0 < p.deposited_shares ∨ 0 < p.borrowed_amount
  current : p.last_update ≤ now

namespace Book

def empty : Book := ⟨.empty,0,0⟩

section Accounts
variable (b : Book) (user : Address)

def shares : Int := b.positions.weight (fun p => p.deposited_shares) user
def debt : Int := b.positions.weight (fun p => p.borrowed_amount) user
/-- The sum of all debts. -/
def debts : Int := b.positions.total (fun p => p.borrowed_amount)

variable (now : Nat) (interest : Int) (p : Posting)

/-- The position that a posting leaves. -/
def left : Position := ⟨b.shares p.user + p.shares,b.debt p.user + interest + p.debt,now⟩

/-- Charge the interest, post, and forget a position with nothing left. -/
def post : Book where
  positions := if (b.left now interest p).deposited_shares = 0 ∧ (b.left now interest p).borrowed_amount = 0
    then b.positions.remove p.user else b.positions.set p.user (b.left now interest p)
  total_deposits := b.total_deposits + p.shares
  total_borrows := b.total_borrows + p.debt

/-- The posting takes no more than there is. -/
structure Covers : Prop where
  shares : 0 ≤ b.shares p.user + p.shares
  debt : 0 ≤ b.debt p.user + interest + p.debt

/-- What holds of a book at a time. -/
structure WellFormed : Prop where
  positions : ∀ user p, b.positions.get user = some p → SoundPosition now p
  deposits : b.total_deposits = b.positions.total (fun p => p.deposited_shares)

end Accounts

section Rules
variable {b : Book} {now before : Nat} {interest : Int} {p : Posting}

theorem left_empty
    (gone : (b.left now interest p).deposited_shares = 0 ∧ (b.left now interest p).borrowed_amount = 0) :
    b.left now interest p = ⟨0,0,now⟩ := by
  show (⟨_,_,_⟩ : Position) = ⟨0,0,now⟩
  rw [Position.mk.injEq]
  exact ⟨gone.1,gone.2,rfl⟩

/-- A posting changes a measure at its own position only. -/
theorem post_weight (f : Position → Int) (nothing : f ⟨0,0,now⟩ = 0) (user : Address) :
    (b.post now interest p).positions.weight f user =
      if user = p.user then f (b.left now interest p) else b.positions.weight f user := by
  unfold post
  by_cases gone : (b.left now interest p).deposited_shares = 0 ∧ (b.left now interest p).borrowed_amount = 0
  · have none : f (b.left now interest p) = 0 := by
      rw [left_empty gone]
      exact nothing
    simp only [if_pos gone,Store.weight_remove,none]
  · simp only [if_neg gone,Store.weight_set]

theorem post_total (f : Position → Int) (nothing : f ⟨0,0,now⟩ = 0) :
    (b.post now interest p).positions.total f =
      b.positions.total f + (f (b.left now interest p) - b.positions.weight f p.user) := by
  have value : (b.post now interest p).positions.weight f p.user = _ := post_weight f nothing p.user
  rw [if_pos rfl] at value
  rw [← value]
  unfold post
  by_cases gone : (b.left now interest p).deposited_shares = 0 ∧ (b.left now interest p).borrowed_amount = 0
  · simp only [if_pos gone,Store.total_remove,Store.weight_remove,if_true]
    omega
  · simp only [if_neg gone,Store.total_set,Store.weight_set,if_true]
    omega

theorem post_shares (user : Address) :
    (b.post now interest p).shares user = b.shares user + if user = p.user then p.shares else 0 := by
  rw [shares,post_weight _ rfl]
  split
  · rename_i same
    rw [same]
    rfl
  · rw [add_zero]
    rfl

theorem post_debt (user : Address) :
    (b.post now interest p).debt user = b.debt user + if user = p.user then interest + p.debt else 0 := by
  rw [debt,post_weight _ rfl]
  split
  · rename_i same
    rw [same]
    exact add_assoc _ _ _
  · rw [add_zero]
    rfl

theorem post_debts : (b.post now interest p).debts = b.debts + (interest + p.debt) := by
  rw [debts,post_total _ rfl]
  show b.debts + (b.debt p.user + interest + p.debt - b.debt p.user) = _
  omega

/-- Positions other than the posted one stay as they are. -/
theorem post_other {user : Address} (other : user ≠ p.user) :
    (b.post now interest p).positions.get user = b.positions.get user := by
  unfold post
  split
  · exact Store.get_remove_other _ other
  · exact Store.get_set_other _ _ other

theorem WellFormed.empty (now : Nat) : WellFormed Book.empty now where
  positions user p found := by cases found
  deposits := rfl

theorem WellFormed.later (sound : b.WellFormed before) (later : before ≤ now) : b.WellFormed now where
  positions user p found := { sound.positions user p found with
    current := (sound.positions user p found).current.trans later }
  deposits := sound.deposits

theorem WellFormed.shares_nonneg (sound : b.WellFormed before) (user : Address) : 0 ≤ b.shares user := by
  unfold shares Store.weight
  cases found : b.positions.get user with
  | none => exact le_rfl
  | some p => exact (sound.positions user p found).shares_nonneg

theorem WellFormed.debt_nonneg (sound : b.WellFormed before) (user : Address) : 0 ≤ b.debt user := by
  unfold debt Store.weight
  cases found : b.positions.get user with
  | none => exact le_rfl
  | some p => exact (sound.positions user p found).debt_nonneg

/-- A posting that the position covers keeps the book well formed. -/
theorem WellFormed.post (sound : b.WellFormed before) (later : before ≤ now) (covers : b.Covers interest p) :
    (b.post now interest p).WellFormed now where
  positions := by
    intro user q found
    by_cases same : user = p.user
    · subst same
      unfold Book.post at found
      split at found
      · rw [Store.get_remove_same] at found
        cases found
      · rename_i some
        rw [Store.get_set_same] at found
        cases found
        have shares : 0 ≤ (b.left now interest p).deposited_shares := covers.shares
        have debt : 0 ≤ (b.left now interest p).borrowed_amount := covers.debt
        exact ⟨shares,debt,by omega,le_rfl⟩
    · rw [post_other same] at found
      exact (sound.later later).positions user q found
  deposits := by
    rw [post_total _ rfl,← sound.deposits]
    show b.total_deposits + p.shares = b.total_deposits + (b.shares p.user + p.shares - b.shares p.user)
    omega

end Rules
end Book

/-! ### The book of a vault -/

namespace HelixVault
variable (v : HelixVault) (now : Nat) (user : Address)

def book : Book := ⟨v.positions,v.total_deposits,v.total_borrows⟩

theorem charged_shares : (v.charged now user).deposited_shares = v.book.shares user := by
  unfold charged opened Book.shares Store.weight book
  cases v.positions.get user <;> rfl

theorem opened_debt : (v.opened now user).borrowed_amount = v.book.debt user := by
  unfold opened Book.debt Store.weight book
  cases v.positions.get user <;> rfl

theorem charged_debt : (v.charged now user).borrowed_amount = v.book.debt user + v.interestOn now user := by
  rw [← v.opened_debt now user]
  rfl

theorem interestOn_nonneg : 0 ≤ v.interestOn now user := Position.interest_nonneg _ _ _

variable {v} {before : Nat} {q : Position} {shares debt : Int}

theorem charged_shares_nonneg (sound : v.book.WellFormed before) : 0 ≤ (v.charged now user).deposited_shares := by
  rw [v.charged_shares]
  exact sound.shares_nonneg user

theorem charged_debt_nonneg (sound : v.book.WellFormed before) : 0 ≤ (v.charged now user).borrowed_amount := by
  rw [v.charged_debt]
  exact Int.add_nonneg (sound.debt_nonneg user) (v.interestOn_nonneg now user)

variable {now user}

/-- The charged position with a posting on it is the one the book asks for. -/
theorem left_eq (deposited : q.deposited_shares = (v.charged now user).deposited_shares + shares)
    (owed : q.borrowed_amount = (v.charged now user).borrowed_amount + debt) (updated : q.last_update = now) :
    v.book.left now (v.interestOn now user) ⟨user,shares,debt⟩ = q := by
  rw [charged_shares] at deposited
  rw [charged_debt] at owed
  obtain ⟨_,_,_⟩ := q
  simp only at deposited owed updated
  rw [deposited,owed,updated]
  rfl

theorem settled_book (left : v.book.left now (v.interestOn now user) ⟨user,shares,debt⟩ = q) :
    (v.settled user q shares debt).book = v.book.post now (v.interestOn now user) ⟨user,shares,debt⟩ := by
  rw [Book.post,left]
  rfl

theorem posted_book (left : v.book.left now (v.interestOn now user) ⟨user,shares,debt⟩ = q)
    (some : ¬ (q.deposited_shares = 0 ∧ q.borrowed_amount = 0)) :
    (v.posted user q shares debt).book = v.book.post now (v.interestOn now user) ⟨user,shares,debt⟩ := by
  rw [Book.post,left]
  simp only [if_neg some]
  rfl

/-- What a call writes depends on nothing of the vault but its book. -/
theorem posted_congr {u : HelixVault} (same : u.book = v.book) :
    (u.posted user q shares debt).book = (v.posted user q shares debt).book := by
  obtain ⟨positions,deposits,borrows⟩ := Book.mk.inj same
  simp only [posted,book,positions,deposits,borrows]

theorem settled_congr {u : HelixVault} (same : u.book = v.book) :
    (u.settled user q shares debt).book = (v.settled user q shares debt).book := by
  obtain ⟨positions,deposits,borrows⟩ := Book.mk.inj same
  simp only [settled,book,positions,deposits,borrows]

end HelixVault

/-- The account an entry point touches. -/
def Entry.account : Entry → Option Address
  | .deposit user _ _ | .withdraw user _ _ | .borrow user _ | .repay user _ | .liquidate _ user _ => some user
  | _ => none

/-- The posting of an entry point, as its event tells it. -/
def VaultEvent.posting : VaultEvent → Option Posting
  | .deposit user _ amount _ => some ⟨user,amount,0⟩
  | .withdraw user _ amount _ => some ⟨user,-amount,0⟩
  | .borrow user amount _ => some ⟨user,0,amount⟩
  | .repay user actual_repay _ => some ⟨user,0,-actual_repay⟩
  | .liquidation _ user actual_repay shares_to_seize _ => some ⟨user,-shares_to_seize,-actual_repay⟩
  | .pause _ | .unpause _ | .config_update _ => none

theorem capped_le (amount cap : Int) : capped amount cap ≤ cap := by
  unfold capped
  split <;> omega

theorem capped_nonneg {amount cap : Int} (amount_nonneg : 0 ≤ amount) (cap_nonneg : 0 ≤ cap) :
    0 ≤ capped amount cap := by
  unfold capped
  split <;> assumption

theorem Configured.idle {env : Env} {v v' : HelixVault} {entry : Entry} {event : Option VaultEvent}
    (configured : Configured env v entry event v') : event.bind VaultEvent.posting = none ∧ entry.account = none ∧
      v'.book = v.book ∧ v'.locked = v.locked ∧ v'.borrow_token = v.borrow_token := by
  cases configured <;> exact ⟨rfl,rfl,rfl,rfl,rfl⟩

section Refinement
variable {W : Type} {clients : Clients W} {env : Env} {s s' : World HelixVault W} {entry : Entry}
  {event : Option VaultEvent}

/-- What a call does to the book of the vault: one posting to the account it
    touches, or nothing. -/
inductive Booked (now : Nat) (v : HelixVault) (entry : Entry) (event : Option VaultEvent) (v' : HelixVault) : Prop
  | posted (p : Posting) : event.bind VaultEvent.posting = some p → entry.account = some p.user →
      v'.book = v.book.post now (v.interestOn now p.user) p → v.book.Covers (v.interestOn now p.user) p →
      Booked now v entry event v'
  | idle : event.bind VaultEvent.posting = none → entry.account = none → v'.book = v.book →
      Booked now v entry event v'

/-- What a call writes to the book of the vault: the position with its interest, moved
    by what is asked for. -/
inductive Posts (now : Nat) (v : HelixVault) : Entry → Option VaultEvent → Book → Prop
  | deposit (user token : Address) (amount : Int) (p : Position) : 0 < amount →
      p = { v.charged now user with deposited_shares := (v.charged now user).deposited_shares + amount } →
      Posts now v (.deposit user token amount) (some (.deposit user token amount p)) (v.posted user p amount 0).book
  | withdraw (user token : Address) (amount : Int) (p : Position) : amount ≤ (v.charged now user).deposited_shares →
      p = { v.charged now user with deposited_shares := (v.charged now user).deposited_shares - amount } →
      Posts now v (.withdraw user token amount) (some (.withdraw user token amount p)) (v.settled user p (-amount) 0).book
  | borrow (user : Address) (amount factor : Int) (p : Position) : 0 < amount →
      p = { v.charged now user with borrowed_amount := (v.charged now user).borrowed_amount + amount } →
      Posts now v (.borrow user amount) (some (.borrow user amount factor)) (v.posted user p 0 amount).book
  | repay (user : Address) (amount actual : Int) (p : Position) :
      actual = capped amount (v.charged now user).borrowed_amount →
      p = { v.charged now user with borrowed_amount := (v.charged now user).borrowed_amount - actual } →
      Posts now v (.repay user amount) (some (.repay user actual p.borrowed_amount)) (v.settled user p 0 (-actual)).book
  | liquidate (liquidator user : Address) (repay_amount actual bonus seized : Int) (p : Position) :
      actual = capped repay_amount ((v.charged now user).borrowed_amount.tdiv 2) →
      seized ≤ (v.charged now user).deposited_shares →
      p = { v.charged now user with
        deposited_shares := (v.charged now user).deposited_shares - seized,
        borrowed_amount := (v.charged now user).borrowed_amount - actual } →
      Posts now v (.liquidate liquidator user repay_amount) (some (.liquidation liquidator user actual seized bonus))
        (v.settled user p (-seized) (-actual)).book
  | idle (entry : Entry) (event : Option VaultEvent) : event.bind VaultEvent.posting = none → entry.account = none →
      Posts now v entry event v.book

/-- A position that is left with nothing negative comes from a posting that the book
    covers. -/
theorem Booked.of_settled {now : Nat} {v v' : HelixVault} {user : Address} {q : Position} {shares debt : Int}
    (posting : event.bind VaultEvent.posting = some ⟨user,shares,debt⟩) (account : entry.account = some user)
    (left : v.book.left now (v.interestOn now user) ⟨user,shares,debt⟩ = q) (deposited : 0 ≤ q.deposited_shares)
    (owed : 0 ≤ q.borrowed_amount) (book : v'.book = (v.settled user q shares debt).book) : Booked now v entry event v' := by
  refine .posted ⟨user,shares,debt⟩ posting account (book.trans (HelixVault.settled_book left)) ⟨?_,?_⟩
  · rwa [← left] at deposited
  · rwa [← left] at owed

/-- The same for a position that is stored in any case. -/
theorem Booked.of_posted {now : Nat} {v v' : HelixVault} {user : Address} {q : Position} {shares debt : Int}
    (posting : event.bind VaultEvent.posting = some ⟨user,shares,debt⟩) (account : entry.account = some user)
    (left : v.book.left now (v.interestOn now user) ⟨user,shares,debt⟩ = q) (deposited : 0 ≤ q.deposited_shares)
    (owed : 0 ≤ q.borrowed_amount) (some : 0 < q.deposited_shares ∨ 0 < q.borrowed_amount)
    (book : v'.book = (v.posted user q shares debt).book) : Booked now v entry event v' := by
  have stored : ¬ (q.deposited_shares = 0 ∧ q.borrowed_amount = 0) := by omega
  refine .of_settled posting account left deposited owed ?_
  rw [book,HelixVault.posted_book left stored,HelixVault.settled_book left]

/-- Every successful call is one posting or none. -/
theorem booked_of_posts {now before : Nat} {v v' : HelixVault} (sound : v.book.WellFormed before)
    (posts : Posts now v entry event v'.book) : Booked now v entry event v' := by
  have shares_nonneg := fun user => HelixVault.charged_shares_nonneg now user sound
  have debt_nonneg := fun user => HelixVault.charged_debt_nonneg now user sound
  generalize book : v'.book = b at posts
  cases posts with
  | deposit user token amount p positive position =>
    have shares := shares_nonneg user
    have left : v.book.left now (v.interestOn now user) ⟨user,amount,0⟩ = p :=
      HelixVault.left_eq (by rw [position]) (by rw [position,add_zero]) (by rw [position]; rfl)
    refine .of_posted rfl rfl left ?_ ?_ (.inl ?_) book
    · rw [position]
      exact Int.add_nonneg shares positive.le
    · rw [position]
      exact debt_nonneg user
    · rw [position]
      exact Int.add_pos_of_nonneg_of_pos shares positive
  | withdraw user token amount p enough position =>
    have left : v.book.left now (v.interestOn now user) ⟨user,-amount,0⟩ = p :=
      HelixVault.left_eq (by rw [position]; rfl) (by rw [position,add_zero]) (by rw [position]; rfl)
    refine .of_settled rfl rfl left ?_ ?_ book
    · rw [position]
      exact Int.sub_nonneg.mpr enough
    · rw [position]
      exact debt_nonneg user
  | borrow user amount factor p positive position =>
    have debt := debt_nonneg user
    have left : v.book.left now (v.interestOn now user) ⟨user,0,amount⟩ = p :=
      HelixVault.left_eq (by rw [position,add_zero]) (by rw [position]) (by rw [position]; rfl)
    refine .of_posted rfl rfl left ?_ ?_ (.inr ?_) book
    · rw [position]
      exact shares_nonneg user
    · rw [position]
      exact Int.add_nonneg debt positive.le
    · rw [position]
      exact Int.add_pos_of_nonneg_of_pos debt positive
  | repay user amount actual p cap position =>
    have within := capped_le amount (v.charged now user).borrowed_amount
    rw [← cap] at within
    have left : v.book.left now (v.interestOn now user) ⟨user,0,-actual⟩ = p :=
      HelixVault.left_eq (by rw [position,add_zero]) (by rw [position]; rfl) (by rw [position]; rfl)
    refine .of_settled rfl rfl left ?_ ?_ book
    · rw [position]
      exact shares_nonneg user
    · rw [position]
      exact Int.sub_nonneg.mpr within
  | liquidate liquidator user repay_amount actual bonus seized p cap enough position =>
    have debt := debt_nonneg user
    have within := capped_le repay_amount ((v.charged now user).borrowed_amount.tdiv 2)
    rw [← cap,Int.tdiv_eq_ediv_of_nonneg debt] at within
    have left : v.book.left now (v.interestOn now user) ⟨user,-seized,-actual⟩ = p :=
      HelixVault.left_eq (by rw [position]; rfl) (by rw [position]; rfl) (by rw [position]; rfl)
    refine .of_settled rfl rfl left ?_ ?_ book
    · rw [position]
      exact Int.sub_nonneg.mpr enough
    · rw [position]
      exact Int.sub_nonneg.mpr (by omega)
  | idle entry event quiet untouched => exact .idle quiet untouched book

theorem booked_of_effect {before : Nat} (sound : s.own.book.WellFormed before)
    (effect : Effect clients env s entry event s') : Booked env.timestamp s.own entry event s'.own := by
  apply booked_of_posts sound
  cases effect with
  | deposit user token amount p w deposits => exact .deposit user token amount p deposits.asked.positive deposits.position
  | withdraw user token amount p w withdraws => exact .withdraw user token amount p withdraws.enough withdraws.position
  | borrow user amount factor p w borrows => exact .borrow user amount factor p borrows.asked.positive borrows.position
  | repay user amount actual p w repays => exact .repay user amount actual p repays.capped repays.position
  | liquidate liquidator user repay_amount actual bonus seized p w liquidates =>
    exact .liquidate liquidator user repay_amount actual bonus seized p liquidates.capped liquidates.enough
      liquidates.position
  | configured entry event v configured =>
    obtain ⟨quiet,untouched,book,_⟩ := configured.idle
    have idle : Posts env.timestamp s.own entry event s.own.book := .idle entry event quiet untouched
    rwa [← book] at idle

/-- A vault that serves calls is not busy between them. -/
theorem unlocked_of_effect (unlocked : s.own.locked = false) (effect : Effect clients env s entry event s') :
    s'.own.locked = false := by
  cases effect with
  | configured entry event v configured =>
    obtain ⟨_,_,_,locked,_⟩ := configured.idle
    exact locked.trans unlocked
  | _ => rfl

theorem borrow_token_of_effect (effect : Effect clients env s entry event s') :
    s'.own.borrow_token = s.own.borrow_token := by
  cases effect with
  | configured entry event v configured =>
    obtain ⟨_,_,_,_,same⟩ := configured.idle
    exact same
  | _ => rfl

/-- The oracle of a vault is the one it was initialized with. -/
theorem oracle_of_effect (effect : Effect clients env s entry event s') :
    s'.own.oracle_address = s.own.oracle_address := by
  cases effect with
  | configured entry event v configured => cases configured <;> rfl
  | _ => rfl

/-- Only `update_config` sets another configuration. -/
theorem config_of_effect (effect : Effect clients env s entry event s')
    (kept : ∀ new_config, entry ≠ .update_config new_config) : s'.own.pool_config = s.own.pool_config := by
  cases effect with
  | configured entry event v configured =>
    cases configured with
    | update_config new_config _ _ => exact absurd rfl (kept new_config)
    | _ => rfl
  | _ => rfl

/-- An asset becomes supported, and stops being so, only by the calls for that. -/
theorem supported_moved (effect : Effect clients env s entry event s') (asset : Address) :
    (asset ∈ s'.own.supported_assets → asset ∈ s.own.supported_assets ∨ entry = .add_supported_asset asset) ∧
      (asset ∈ s.own.supported_assets → entry ≠ .remove_supported_asset asset → asset ∈ s'.own.supported_assets) := by
  cases effect with
  | configured entry event v configured =>
    cases configured with
    | add_supported_asset added authorised =>
      simp only
      split
      · exact ⟨.inl,fun member _ => member⟩
      · constructor
        · intro member
          rcases List.mem_append.mp member with old | new
          · exact .inl old
          · exact .inr (by rw [List.mem_singleton.mp new])
        · intro member _
          exact List.mem_append_left _ member
    | remove_supported_asset removed authorised =>
      constructor
      · intro member
        exact .inl (List.mem_of_mem_filter member)
      · intro member other
        have different : asset ≠ removed := by
          rintro rfl
          exact other rfl
        exact List.mem_filter.mpr ⟨member,decide_eq_true different⟩
    | _ => exact ⟨.inl,fun member _ => member⟩
  | _ => exact ⟨.inl,fun member _ => member⟩

theorem deposit_supported {user token : Address} {amount : Int}
    (effect : Effect clients env s (.deposit user token amount) event s') : token ∈ s.own.supported_assets := by
  cases effect with
  | deposit _ _ _ p w deposits => exact deposits.supported
  | configured _ _ v configured => cases configured

/-- A call that is no deposit does not raise the total deposits. -/
theorem deposits_not_raised (effect : Effect clients env s entry event s')
    (other : ∀ user token amount, entry ≠ .deposit user token amount) :
    s'.own.total_deposits ≤ s.own.total_deposits := by
  cases effect with
  | deposit user token amount p w deposits => exact absurd rfl (other user token amount)
  | withdraw user token amount p w withdraws =>
    have positive := withdraws.asked.positive
    simp only [HelixVault.settled]
    omega
  | borrow user amount factor p w borrows => simp [HelixVault.posted]
  | repay user amount actual p w repays => simp [HelixVault.settled]
  | liquidate liquidator user repay_amount actual bonus seized p w liquidates =>
    obtain ⟨_,_,_,_,_,_,_,_,seizes⟩ := liquidates.steps
    have positive := seizes.positive
    simp only [HelixVault.settled]
    omega
  | configured entry event v configured =>
    obtain ⟨_,_,same,_⟩ := configured.idle
    exact (congrArg Book.total_deposits same).le

/-- An address that does not authorise the call and has no position is not the
    one whose position is touched. -/
theorem account_other (effect : Effect clients env s entry event s') {other : Address}
    (stranger : ¬ env.Authorised other) (none : s.own.positions.get other = none) : entry.account ≠ some other := by
  intro same
  cases effect with
  | deposit user token amount p w deposits => cases same; exact stranger deposits.asked.authorised
  | withdraw user token amount p w withdraws => cases same; exact stranger withdraws.asked.authorised
  | borrow user amount factor p w borrows => cases same; exact stranger borrows.asked.authorised
  | repay user amount actual p w repays => cases same; exact stranger repays.asked.authorised
  | liquidate liquidator user repay_amount actual bonus seized p w liquidates =>
    cases same
    have stored := liquidates.stored
    rw [none] at stored
    cases stored
  | configured entry event v configured =>
    obtain ⟨_,untouched,_⟩ := configured.idle
    rw [untouched] at same
    cases same

end Refinement

/-! ### What a call does outside the vault -/

section Moves
variable {W : Type} {clients : Clients W} {R : W → W → Prop}

/-- The contracts that the vault calls move what is outside it only as `R` allows. -/
structure Clients.Within (clients : Clients W) (R : W → W → Prop) : Prop where
  balance : ∀ env id w answer w', clients.balance env id w = some (answer, w') → R w w'
  transfer : ∀ env owner recipient amount w answer w', clients.transfer env owner recipient amount w = some (answer, w') → R w w'
  transfer_from : ∀ env spender owner recipient amount w answer w',
    clients.transfer_from env spender owner recipient amount w = some (answer, w') → R w w'
  assets_for_shares : ∀ env shares w answer w', clients.assets_for_shares env shares w = some (answer, w') → R w w'
  shares_for_assets : ∀ env assets w answer w', clients.shares_for_assets env assets w = some (answer, w') → R w w'
  lastprice : ∀ env asset w answer w', clients.lastprice env asset w = some (answer, w') → R w w'
  decimals : ∀ env asset w answer w', clients.decimals env asset w = some (answer, w') → R w w'

theorem Clients.Within.asking (within : clients.Within R) (callee : Env) : clients.Asking callee R :=
  ⟨within.assets_for_shares callee,within.lastprice,within.decimals⟩

variable [IsTrans W R] {env : Env}

theorem Received.kept (within : clients.Within R) {token owner : Address} {amount : Int} {w w' : W}
    (received : Received clients env token owner amount w w') : R w w' :=
  received.within (within.balance _) (within.transfer_from _)

theorem Sent.kept (within : clients.Within R) {token recipient : Address} {amount : Int} {w w' : W}
    (sent : Sent clients env token recipient amount w w') : R w w' :=
  sent.within (within.balance _) (within.transfer _)

/-- So does a call to the vault. -/
theorem rest_of_effect [Std.Refl R] {s s' : World HelixVault W} {entry : Entry} {event : Option VaultEvent}
    (within : clients.Within R) (effect : Effect clients env s entry event s') : R s.rest s'.rest := by
  cases effect with
  | deposit user token amount p w deposits => exact deposits.received.kept within
  | withdraw user token amount p w withdraws =>
    obtain ⟨mid,healthy,sent⟩ := withdraws.sent
    exact IsTrans.trans _ _ _ (healthy.within (within.asking _)) (sent.kept within)
  | borrow user amount factor p w borrows =>
    obtain ⟨token,_,first,second,_,⟨_,values,_⟩,_,lent,health⟩ := borrows.covered
    exact IsTrans.trans _ _ _ (values.within (within.asking _))
      (IsTrans.trans _ _ _ (lent.sent.kept within) (health.within (within.asking _)))
  | repay user amount actual p w repays =>
    have received := repays.received
    split at received
    · exact received.kept within
    · rw [received]
      exact Std.Refl.refl _
  | liquidate liquidator user repay_amount actual bonus seized p w liquidates =>
    obtain ⟨token,_,first,second,_,health,_,received,seizes⟩ := liquidates.steps
    obtain ⟨_,third,fourth,quotes,_,converted,sent⟩ := seizes.taken
    have paid := IsTrans.trans _ _ _ (health.within (within.asking _)) (received.kept within)
    have seized := IsTrans.trans _ _ _ (within.shares_for_assets _ _ _ _ _ converted) (sent.kept within)
    exact IsTrans.trans _ _ _ paid (IsTrans.trans _ _ _ (quotes.within (within.asking _)) seized)
  | configured entry event v configured => exact Std.Refl.refl _

end Moves

end Helix.Vault
