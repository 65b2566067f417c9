import Helix.Token

/-!
The supply of the share token over its whole life: no balance is negative, the
supply is the sum of the balances, and the total assets are never negative
(`supply_invariant`). Each way a call can move the token keeps all three
(`Sound.minted`, `Sound.burned`, `Sound.moved`, `Sound.redeemed`).
-/
namespace Helix.Token
open Invoke

namespace HelixToken

theorem balances_weight (t : HelixToken) (a : Address) : t.balances.weight id a = t.balance a := by
  simp [Store.weight,balance]

theorem withBalance_total (t : HelixToken) (a : Address) (x : Int) :
    (t.withBalance a x).balances.total id = t.balances.total id - t.balance a + x := by
  unfold withBalance
  by_cases zero : x = 0
  · simp [zero,Store.total_remove,balances_weight]
  · simp [zero,Store.total_set,balances_weight]

end HelixToken

/-- What holds of every token. -/
structure Sound (t : HelixToken) : Prop where
  balances_nonneg : ∀ a, 0 ≤ t.balance a
  supply : t.total_shares = t.balances.total id
  supply_fits : t.total_shares ≤ i128Max
  assets_nonneg : 0 ≤ t.total_assets

namespace Sound
variable {t u : HelixToken}

theorem weight_nonneg (sound : Sound t) (a : Address) : 0 ≤ t.balances.weight id a := by
  rw [t.balances_weight]
  exact sound.balances_nonneg a

/-- No balance exceeds the supply. -/
theorem balance_le (sound : Sound t) (a : Address) : t.balance a ≤ t.total_shares := by
  rw [sound.supply,← t.balances_weight]
  exact Store.weight_le_total sound.weight_nonneg a

theorem shares_nonneg (sound : Sound t) : 0 ≤ t.total_shares :=
  (sound.balances_nonneg (.account (BytesN.fill 32 0))).trans (sound.balance_le _)

/-- Two balances together do not exceed the supply. -/
theorem two_balances_le (sound : Sound t) {a b : Address} (different : a ≠ b) :
    t.balance a + t.balance b ≤ t.total_shares := by
  rw [sound.supply,← t.balances_weight,← t.balances_weight]
  exact Store.two_weights_le_total sound.weight_nonneg different

theorem withBalance_nonneg (sound : Sound t) {a : Address} {x : Int} (nonneg : 0 ≤ x) (b : Address) :
    0 ≤ (t.withBalance a x).balance b := by
  rw [HelixToken.balance_withBalance]
  split
  · exact nonneg
  · exact sound.balances_nonneg b

theorem fresh (admin vault bridge : Address) : Sound (fresh admin vault bridge) where
  balances_nonneg a := by simp [HelixToken.balance,Token.fresh]
  supply := by simp [Token.fresh]
  supply_fits := by simp [Token.fresh]; decide
  assets_nonneg := by simp [Token.fresh]

/-- What the invariant reads is the balances and the two totals. -/
theorem congr (sound : Sound t) (balances : u.balances = t.balances) (shares : u.total_shares = t.total_shares)
    (assets : u.total_assets = t.total_assets) : Sound u where
  balances_nonneg a := by simpa [HelixToken.balance,balances] using sound.balances_nonneg a
  supply := by rw [balances,shares]; exact sound.supply
  supply_fits := by rw [shares]; exact sound.supply_fits
  assets_nonneg := by rw [assets]; exact sound.assets_nonneg

theorem minted (sound : Sound t) (recipient : Address) {shares : Int} (nonneg : 0 ≤ shares)
    (fits : Fits (t.total_shares + shares)) : Sound (t.minted recipient shares) where
  balances_nonneg := sound.withBalance_nonneg (by have := sound.balances_nonneg recipient; omega)
  supply := by
    show t.total_shares + shares = (t.withBalance recipient (t.balance recipient + shares)).balances.total id
    rw [HelixToken.withBalance_total,sound.supply]
    omega
  supply_fits := fits.2
  assets_nonneg := sound.assets_nonneg

theorem burned (sound : Sound t) {owner : Address} {shares : Int} (nonneg : 0 ≤ shares)
    (enough : shares ≤ t.balance owner) : Sound (t.burned owner shares) where
  balances_nonneg := sound.withBalance_nonneg (by omega)
  supply := by
    show t.total_shares - shares = (t.withBalance owner (t.balance owner - shares)).balances.total id
    rw [HelixToken.withBalance_total,sound.supply]
    omega
  supply_fits := by
    show t.total_shares - shares ≤ i128Max
    have := sound.supply_fits
    omega
  assets_nonneg := sound.assets_nonneg

theorem moved (sound : Sound t) {owner : Address} (recipient : Address) {amount : Int} (nonneg : 0 ≤ amount)
    (enough : amount ≤ t.balance owner) : Sound (t.moved owner recipient amount) where
  balances_nonneg a := by
    have paid := sound.withBalance_nonneg (a := owner) (x := t.balance owner - amount) (by omega)
    unfold HelixToken.moved
    simp only [HelixToken.balance_withBalance (t.withBalance owner (t.balance owner - amount))]
    split
    · have := paid recipient
      omega
    · exact paid a
  supply := by
    show t.total_shares = (t.moved owner recipient amount).balances.total id
    simp only [HelixToken.moved,HelixToken.withBalance_total]
    rw [sound.supply]
    omega
  supply_fits := sound.supply_fits
  assets_nonneg := sound.assets_nonneg

end Sound

/-- Rounding up a share of at most the whole gives at most the whole. -/
theorem ceilQuotient_le {shares total assets : Int} (nonneg : 0 ≤ shares) (within : shares ≤ total)
    (positive : 0 < total) (assets_nonneg : 0 ≤ assets) : HelixToken.ceilQuotient (shares * assets) total ≤ assets := by
  have product_nonneg : 0 ≤ shares * assets := Int.mul_nonneg nonneg assets_nonneg
  have product_le : shares * assets ≤ total * assets := Int.mul_le_mul_of_nonneg_right within assets_nonneg
  have division := Int.mul_tdiv_add_tmod (shares * assets) total
  have remainder_nonneg := Int.tmod_nonneg total product_nonneg
  unfold HelixToken.ceilQuotient
  split
  · rename_i exact
    rw [exact,add_zero] at division
    exact le_of_mul_le_mul_left (by rw [division]; exact product_le) positive
  · rename_i inexact
    -- Below the whole by a positive remainder, so the quotient is below the assets.
    have below : (shares * assets).tdiv total < assets :=
      lt_of_mul_lt_mul_left (by omega : total * (shares * assets).tdiv total < total * assets) positive.le
    omega

theorem Sound.redeemed {t : HelixToken} (sound : Sound t) {owner : Address} {shares : Int} (nonneg : 0 ≤ shares)
    (enough : shares ≤ t.balance owner) : Sound (t.redeemed owner shares) := by
  have less := sound.burned nonneg enough
  refine ⟨less.balances_nonneg,less.supply,less.supply_fits,?_⟩
  show 0 ≤ t.total_assets - if shares = 0 then 0 else HelixToken.ceilQuotient (shares * t.total_assets) t.total_shares
  have assets_nonneg := sound.assets_nonneg
  split
  · omega
  · have within := sound.balance_le owner
    have removed := ceilQuotient_le nonneg (enough.trans within) (by omega) assets_nonneg
    omega

/-- Every successful call keeps the invariant. -/
theorem Sound.effect {env : Env} {t u : HelixToken} {entry : Entry} (sound : Sound t) (effect : Effect env t entry u) :
    Sound u := by
  cases effect with
  | vault_mint recipient shares nonneg _ fits => exact sound.minted recipient nonneg fits
  | bridge_mint recipient shares nonneg _ fits => exact sound.minted recipient nonneg fits
  | vault_burn owner shares nonneg _ enough => exact sound.burned nonneg enough
  | bridge_burn owner shares nonneg _ enough => exact sound.burned nonneg enough
  | update_exchange_rate assets positive _ =>
    exact ⟨sound.balances_nonneg,sound.supply,sound.supply_fits,positive.le⟩
  | set_admin new_admin _ => exact sound.congr rfl rfl rfl
  | approve owner spender amount expiration nonneg _ _ => exact sound.congr rfl rfl rfl
  | transfer owner recipient amount nonneg _ enough => exact sound.moved recipient nonneg enough
  | transfer_from spender owner recipient amount u nonneg _ spent enough =>
    have kept := sound.congr spent.balances spent.shares spent.assets
    exact kept.moved recipient nonneg (by rwa [spent.balance])
  | burn owner amount nonneg _ enough => exact sound.redeemed nonneg enough
  | burn_from spender owner amount u nonneg _ spent enough =>
    have kept := sound.congr spent.balances spent.shares spent.assets
    exact kept.redeemed nonneg (by rwa [spent.balance])

/-- A call to a token that may not be initialized yet keeps the invariant. -/
theorem sound_invoke {env : Env} {entry : Entry} {s s' : Option HelixToken} {r : Unit}
    (sound : ∀ t, s = some t → Sound t) (done : invoke env entry s = .ok (r, s')) : ∀ t, s' = some t → Sound t := by
  rcases invoke_cases done with ⟨t,u,found,left,effect⟩ | ⟨_,admin,vault,bridge,_,left⟩
  · rintro t' same
    rw [left] at same
    cases same
    exact (sound t found).effect effect
  · rintro t' same
    rw [left] at same
    cases same
    exact Sound.fresh admin vault bridge

/-- What holds of every token that calls reach. -/
theorem reached_sound {self : Address} {clock : Clock} {calls : List (Origin × Entry)} {t : HelixToken}
    (reached : (run (deliver self invoke) ⟨clock,none⟩ calls).state = some t) : Sound t := by
  have sound : ∀ t, (run (deliver self invoke) ⟨clock,none⟩ calls).state = some t → Sound t := by
    apply deliver_invariant (fun s => ∀ t, s = some t → Sound t)
    · intro env entry s result s' held ran
      exact sound_invoke held ran
    · rintro t ⟨⟩
  exact sound t reached

/-- In every state that calls to a token reach, whoever makes them and however
    many fail, no balance is negative, the supply is the sum of the balances and
    the total assets are not negative. -/
theorem supply_invariant (self : Address) (clock : Clock) (calls : List (Origin × Entry)) (t : HelixToken)
    (reached : (run (deliver self invoke) ⟨clock,none⟩ calls).state = some t) :
    (∀ a, 0 ≤ t.balance a) ∧ t.total_shares = t.balances.total id ∧ 0 ≤ t.total_assets := by
  have sound := reached_sound reached
  exact ⟨sound.balances_nonneg,sound.supply,sound.assets_nonneg⟩

/-- A token that is given two totals, minted, sent to oneself, partly burned
    twice and asked for more than is there. -/
def shortLife (admin bridge user : Address) : List (Origin × Entry) :=
  [(.signedBy admin,.initialise admin admin bridge),(.signedBy bridge,.bridge_mint user 10),
    (.signedBy bridge,.update_exchange_rate 21),(.signedBy user,.transfer user user 4),(.signedBy user,.burn user 3),
    (.signedBy admin,.vault_burn user 2),(.signedBy user,.burn user 6)]

theorem supply_invariant_shortLife :
    let admin := Address.account (BytesN.fill 32 0)
    let calls := shortLife admin (.account (BytesN.fill 32 1)) (.account (BytesN.fill 32 2))
    ∃ t, (run (deliver admin invoke) ⟨⟨0,0⟩,none⟩ calls).state = some t ∧ t.total_shares = 5 ∧ t.total_assets = 14 ∧
      (∀ a, 0 ≤ t.balance a) ∧ t.total_shares = t.balances.total id ∧ 0 ≤ t.total_assets :=
  ⟨_,rfl,rfl,rfl,supply_invariant (.account (BytesN.fill 32 0)) ⟨0,0⟩
    (shortLife (.account (BytesN.fill 32 0)) (.account (BytesN.fill 32 1)) (.account (BytesN.fill 32 2))) _ rfl⟩

end Helix.Token
