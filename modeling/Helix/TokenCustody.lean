import Mathlib.Logic.Relation
import Helix.TokenSupply

/-!
What others can do to the shares of a contract. A holder that the token knows as
its vault, and that gave nobody an allowance, loses no share by any call that it
does not authorise (`Guarded.bystander`), however many there are
(`Guarded.bystanders`); its own transfers move exactly what they say
(`Guarded.transfer`, `Guarded.transfer_from`).
-/
namespace Helix.Token
open Invoke

/-- The shares of a holder that only its own calls to the token can take. -/
structure Guarded (holder : Address) (t : HelixToken) : Prop where
  sound : Sound t
  vault : t.vault_contract = holder
  allowances : ∀ spender, t.allowances holder spender = none

/-- A call to the token by somebody else: the holder neither makes nor signs it,
    and the bridge burns only what its owner lets it burn. -/
def Bystander (holder : Address) (s s' : Option HelixToken) : Prop :=
  ∃ env entry, ¬ env.Authorised holder ∧ (∀ owner shares, entry = .bridge_burn owner shares → env.Authorised owner) ∧
    invoke env entry s = .ok ((), s')

/-- Any number of such calls. -/
abbrev Bystanders (holder : Address) : Option HelixToken → Option HelixToken → Prop :=
  Relation.ReflTransGen (Bystander holder)

section Balances
variable (t : HelixToken) (owner recipient a : Address) (amount : Int)

theorem balance_moved : (t.moved owner recipient amount).balance a =
    t.balance a - (if a = owner then amount else 0) + if a = recipient then amount else 0 := by
  unfold HelixToken.moved
  simp only [HelixToken.balance_withBalance]
  by_cases received : a = recipient
  · subst received
    by_cases paid : a = owner
    · subst paid
      simp
    · simp [paid]
  · by_cases paid : a = owner
    · subst paid
      simp [received]
    · simp [received,paid]

theorem balance_minted :
    (t.minted recipient amount).balance a = t.balance a + if a = recipient then amount else 0 := by
  show (t.withBalance recipient (t.balance recipient + amount)).balance a = _
  rw [HelixToken.balance_withBalance]
  by_cases received : a = recipient
  · subst received
    simp
  · simp [received]

theorem balance_burned : (t.burned owner amount).balance a = t.balance a - if a = owner then amount else 0 := by
  show (t.withBalance owner (t.balance owner - amount)).balance a = _
  rw [HelixToken.balance_withBalance]
  by_cases paid : a = owner
  · subst paid
    simp
  · simp [paid]

theorem balance_redeemed : (t.redeemed owner amount).balance a = t.balance a - if a = owner then amount else 0 :=
  balance_burned t owner a amount

end Balances

namespace Guarded
variable {holder : Address} {t u : HelixToken} {env : Env} {entry : Entry}

theorem fresh (admin vault bridge : Address) : Guarded vault (fresh admin vault bridge) :=
  ⟨Sound.fresh admin vault bridge,rfl,fun _ => rfl⟩

/-- An allowance of somebody else leaves the holder without any. -/
theorem approved (guarded : Guarded holder t) {owner spender : Address} (other : holder ≠ owner) (amount : Int)
    (expiration : Nat) (third : Address) : (t.approved env owner spender amount expiration).allowances holder third =
      none := by
  simp [HelixToken.approved,HelixToken.withAllowance,other,guarded.allowances third]

/-- Nothing can be spent from an allowance of the holder, and spending from
    another leaves it without any. -/
theorem spent (guarded : Guarded holder t) {owner spender : Address} {amount : Int}
    (spent : t.Spent env owner spender amount u) :
    (holder = owner → amount = 0) ∧ ∀ third, u.allowances holder third = none := by
  cases spent with
  | nothing zero => exact ⟨fun _ => zero,guarded.allowances⟩
  | part allowance some covers =>
    have different : holder ≠ owner := by
      rintro rfl
      have stored := covers.stored
      rw [HelixToken.stored_allowance,guarded.allowances] at stored
      cases stored
    exact ⟨fun same => absurd same different,guarded.approved different _ _⟩

/-- No call that the holder does not authorise takes a share from it or weakens
    its guard. -/
theorem effect (guarded : Guarded holder t) (stranger : ¬ env.Authorised holder)
    (consent : ∀ owner shares, entry = .bridge_burn owner shares → env.Authorised owner)
    (effect : Effect env t entry u) : Guarded holder u ∧ t.balance holder ≤ u.balance holder := by
  have sound := guarded.sound.effect effect
  have others : ∀ owner, env.Authorised owner → holder ≠ owner := by
    rintro owner authorised rfl
    exact stranger authorised
  cases effect with
  | vault_mint recipient shares nonneg authorised fits => exact absurd guarded.vault.symm (others _ authorised)
  | vault_burn owner shares nonneg authorised enough => exact absurd guarded.vault.symm (others _ authorised)
  | bridge_mint recipient shares nonneg authorised fits =>
    refine ⟨⟨sound,guarded.vault,guarded.allowances⟩,?_⟩
    rw [balance_minted]
    split <;> omega
  | bridge_burn owner shares nonneg authorised enough =>
    refine ⟨⟨sound,guarded.vault,guarded.allowances⟩,?_⟩
    rw [balance_burned,if_neg (others owner (consent owner shares rfl))]
    omega
  | update_exchange_rate assets positive authorised => exact ⟨⟨sound,guarded.vault,guarded.allowances⟩,le_rfl⟩
  | set_admin new_admin authorised => exact ⟨⟨sound,guarded.vault,guarded.allowances⟩,le_rfl⟩
  | approve owner spender amount expiration nonneg authorised current =>
    exact ⟨⟨sound,guarded.vault,guarded.approved (others owner authorised) _ _⟩,le_rfl⟩
  | transfer owner recipient amount nonneg authorised enough =>
    refine ⟨⟨sound,guarded.vault,guarded.allowances⟩,?_⟩
    rw [balance_moved,if_neg (others owner authorised)]
    split <;> omega
  | transfer_from spender owner recipient amount u nonneg authorised spent enough =>
    obtain ⟨nothing,allowances⟩ := guarded.spent spent
    refine ⟨⟨sound,spent.vault.trans guarded.vault,allowances⟩,?_⟩
    rw [balance_moved,spent.balance]
    by_cases own : holder = owner
    · rw [nothing own]
      simp
    · rw [if_neg own]
      split <;> omega
  | burn owner amount nonneg authorised enough =>
    refine ⟨⟨sound,guarded.vault,guarded.allowances⟩,?_⟩
    rw [balance_redeemed,if_neg (others owner authorised)]
    omega
  | burn_from spender owner amount u nonneg authorised spent enough =>
    obtain ⟨nothing,allowances⟩ := guarded.spent spent
    refine ⟨⟨sound,spent.vault.trans guarded.vault,allowances⟩,?_⟩
    rw [balance_redeemed,spent.balance]
    by_cases own : holder = owner
    · rw [nothing own]
      simp
    · rw [if_neg own]
      omega

theorem bystander (guarded : Guarded holder t) {s' : Option HelixToken} (call : Bystander holder (some t) s') :
    ∃ u, s' = some u ∧ Guarded holder u ∧ t.balance holder ≤ u.balance holder := by
  obtain ⟨env,entry,stranger,consent,ran⟩ := call
  obtain ⟨u,after,effect⟩ := effect_of_invoke rfl ran
  exact ⟨u,after,guarded.effect stranger consent effect⟩

theorem bystanders (guarded : Guarded holder t) {s' : Option HelixToken} (calls : Bystanders holder (some t) s') :
    ∃ u, s' = some u ∧ Guarded holder u ∧ t.balance holder ≤ u.balance holder := by
  induction calls with
  | refl => exact ⟨t,rfl,guarded,le_rfl⟩
  | tail _ last ih =>
    obtain ⟨u,rfl,guarded_u,more⟩ := ih
    obtain ⟨u',same,guarded_u',more'⟩ := guarded_u.bystander last
    exact ⟨u',same,guarded_u',more.trans more'⟩

/-- A transfer, whoever makes it, moves the guarded shares as it says. -/
theorem transfer (guarded : Guarded holder t) {owner recipient : Address} {amount : Int}
    (effect : Effect env t (.transfer owner recipient amount) u) : Guarded holder u := by
  have sound := guarded.sound.effect effect
  cases effect
  exact ⟨sound,guarded.vault,guarded.allowances⟩

theorem transfer_from (guarded : Guarded holder t) {spender owner recipient : Address} {amount : Int}
    (effect : Effect env t (.transfer_from spender owner recipient amount) u) : Guarded holder u := by
  have sound := guarded.sound.effect effect
  cases effect with
  | transfer_from _ _ _ _ u nonneg authorised spent enough =>
    exact ⟨sound,spent.vault.trans guarded.vault,(guarded.spent spent).2⟩

end Guarded

/-- Where the books are sound, an owner can transfer whatever it has to somebody
    else: what the recipient then has is part of the supply and cannot overflow. -/
theorem transfer_succeeds {t : HelixToken} (sound : Sound t) (env : Env) {owner recipient : Address} {amount : Int}
    (different : owner ≠ recipient) (nonneg : 0 ≤ amount) (authorised : env.Authorised owner)
    (enough : amount ≤ t.balance owner) :
    invoke env (.transfer owner recipient amount) (some t) = .ok ((), some (t.moved owner recipient amount)) := by
  have owned := sound.balances_nonneg owner
  have received := sound.balances_nonneg recipient
  have both := sound.two_balances_le different
  have supply := sound.supply_fits
  have paid_fits : Fits (t.balance owner - amount) := fits_zero.between ⟨by decide,le_rfl⟩ (by omega) (by omega)
  have other : (t.withBalance owner (t.balance owner - amount)).balance recipient = t.balance recipient := by
    rw [HelixToken.balance_withBalance,if_neg different.symm]
  have received_fits : Fits (t.balance recipient + amount) :=
    fits_zero.between ⟨by decide,le_rfl⟩ (by omega) (by omega)
  have ran : call env (.transfer owner recipient amount) t = .ok ((), t.moved owner recipient amount) := by
    simp only [call,transfer,bind_ok,validate_amount_ok,auth_ok,spend_balance_ok,receive_balance_ok]
    exact ⟨_,⟨nonneg,rfl⟩,_,⟨authorised,rfl⟩,_,⟨enough,paid_fits,rfl⟩,by rw [other]; omega,by rwa [other],rfl⟩
  simp only [invoke,ran]

/-- Where the books are sound, the bridge can burn whatever an owner has. -/
theorem bridge_burn_succeeds {t : HelixToken} (sound : Sound t) (env : Env) {owner : Address} {shares : Int}
    (nonneg : 0 ≤ shares) (authorised : env.Authorised t.bridge_handler) (enough : shares ≤ t.balance owner) :
    invoke env (.bridge_burn owner shares) (some t) = .ok ((), some (t.burned owner shares)) := by
  have owned := sound.balance_le owner
  have supply := sound.supply_fits
  have left_fits : Fits (t.balance owner - shares) := fits_zero.between ⟨by decide,le_rfl⟩ (by omega) (by omega)
  have supply_fits : Fits (t.total_shares - shares) := fits_zero.between ⟨by decide,le_rfl⟩ (by omega) (by omega)
  have ran : call env (.bridge_burn owner shares) t = .ok ((), t.burned owner shares) := by
    simp only [call,bridge_burn,bind_ok,read_ok,auth_ok,validate_amount_ok,burn_shares_ok]
    exact ⟨_,⟨nonneg,rfl⟩,_,rfl,_,⟨authorised,rfl⟩,enough,left_fits,supply_fits,rfl⟩
  simp only [invoke,ran]

end Helix.Token
