import Helix.TokenConversions

/-!
What a public burn does to the rate. It takes the burned shares out of the supply
and their assets, rounded up, out of the total assets. What is left is what the
shares that are left came to, the rate has not risen, and what any of them come to
has fallen by at most one (`burn_keeps_rate`).
-/
namespace Helix.Token
open Invoke

/-- A public burn, and how many shares it burns. -/
def Entry.burns : Entry → Option Int
  | .burn _ amount => some amount
  | .burn_from _ _ amount => some amount
  | _ => none

/-- Rounding away from zero is rounding up. -/
theorem ceilQuotient_eq {n d : Int} (nonneg : 0 ≤ n) (positive : 0 < d) : HelixToken.ceilQuotient n d = -(-n / d) := by
  unfold HelixToken.ceilQuotient
  rw [Int.tmod_eq_emod_of_nonneg nonneg,Int.tdiv_eq_ediv_of_nonneg nonneg,Int.neg_ediv,Int.sign_eq_one_of_pos positive]
  by_cases exact : n % d = 0
  · rw [if_pos exact,if_pos (Int.dvd_of_emod_eq_zero exact)]
    omega
  · rw [if_neg exact,if_neg (fun divides => exact (Int.emod_eq_zero_of_dvd divides))]
    omega

section Burns
variable {t u : HelixToken} {env : Env} {entry : Entry} {amount : Int}

/-- What a public burn leaves of the totals. -/
structure Redeems (t : HelixToken) (amount : Int) (u : HelixToken) : Prop where
  nonneg : 0 ≤ amount
  within : amount ≤ t.total_shares
  shares : u.total_shares = t.total_shares - amount
  assets : u.total_assets = if amount = 0 then t.total_assets else (t.total_shares - amount) * t.total_assets / t.total_shares

theorem Sound.redeems (sound : Sound t) {owner : Address} (nonneg : 0 ≤ amount) (enough : amount ≤ t.balance owner) :
    Redeems t amount (t.redeemed owner amount) := by
  have within := enough.trans (sound.balance_le owner)
  refine ⟨nonneg,within,rfl,?_⟩
  show t.total_assets - (if amount = 0 then 0 else HelixToken.ceilQuotient (amount * t.total_assets) t.total_shares) = _
  by_cases none : amount = 0
  · rw [if_pos none,if_pos none,sub_zero]
  · have supplied : 0 < t.total_shares := by omega
    rw [if_neg none,if_neg none,ceilQuotient_eq (Int.mul_nonneg nonneg sound.assets_nonneg) supplied,
      Proportion.rest_eq supplied]

theorem Sound.burns (sound : Sound t) (burns : entry.burns = some amount) (effect : Effect env t entry u) :
    Redeems t amount u := by
  cases effect <;> simp only [Entry.burns,reduceCtorEq,Option.some.injEq] at burns
  case burn owner burned nonneg _ enough =>
    subst burns
    exact sound.redeems nonneg enough
  case burn_from spender owner burned left nonneg _ spent enough =>
    subst burns
    have kept := sound.congr spent.balances spent.shares spent.assets
    obtain ⟨_,within,shares,assets⟩ := kept.redeems nonneg (by rwa [spent.balance])
    rw [spent.shares] at within shares assets
    rw [spent.assets] at assets
    exact ⟨nonneg,within,shares,assets⟩

/-- A burn of part of the supply leaves what the rest came to. -/
theorem Redeems.part (redeems : Redeems t amount u) (part : amount < t.total_shares) :
    u.total_assets = (t.total_shares - amount) * t.total_assets / t.total_shares := by
  have supplied : 0 < t.total_shares := lt_of_le_of_lt redeems.nonneg part
  rw [redeems.assets]
  split
  · rename_i none
    rw [none,sub_zero,Int.mul_ediv_cancel_left _ supplied.ne']
  · rfl

/-- A burn of the whole supply leaves neither shares nor assets, if there was any. -/
theorem Redeems.whole (redeems : Redeems t amount u) (whole : amount = t.total_shares) :
    u.total_shares = 0 ∧ u.total_assets = if t.total_shares = 0 then t.total_assets else 0 := by
  refine ⟨by rw [redeems.shares,whole,sub_self],?_⟩
  rw [redeems.assets,whole,sub_self,zero_mul,Int.zero_ediv]

end Burns

/-- Every successful public burn, in every state that calls to a token reach. One of
    part of the supply leaves exactly what the rest of the supply came to, a rate
    that is no higher, and for each part of the rest what it came to or one less.
    One of the whole supply leaves no assets, and one of an empty supply all. -/
theorem burn_keeps_rate (self : Address) (clock : Clock) (calls : List (Origin × Entry)) (origin : Origin) (entry : Entry)
    (amount : Int) (burns : entry.burns = some amount) (t u : HelixToken) :
    let r : Delivery (Option HelixToken) TokenError Entry Unit :=
      transition (deliver self invoke) (run (deliver self invoke) ⟨clock,none⟩ calls) (origin,entry)
    r.output = .ok () → r.before.state = some t → r.after.state = some u →
      (amount < t.total_shares →
        u.total_assets = (t.total_shares - amount) * t.total_assets / t.total_shares ∧
        u.total_assets * t.total_shares ≤ t.total_assets * u.total_shares ∧
        ∀ x assets assets', 0 ≤ x → x ≤ t.total_shares - amount → t.worth x = some assets → u.worth x = some assets' →
          assets' ≤ assets ∧ assets - 1 ≤ assets') ∧
      (amount = t.total_shares →
        u.total_shares = 0 ∧ u.total_assets = if t.total_shares = 0 then t.total_assets else 0) := by
  intro r out found left
  have sound : Sound t := reached_sound found
  have ran := Delivery.returned (transition_makes _ _ : Makes (deliver self invoke) r) out
  obtain ⟨u',left',effect⟩ := effect_of_invoke found ran
  cases left.symm.trans left'
  have redeems := sound.burns burns effect
  refine ⟨?_,redeems.whole⟩
  intro part
  have supplied : 0 < t.total_shares := lt_of_le_of_lt redeems.nonneg part
  have assets_left := redeems.part part
  refine ⟨assets_left,?_,?_⟩
  · rw [assets_left,redeems.shares]
    exact Proportion.rate_le supplied
  · intro x assets assets' nonneg within told told'
    rw [(sound.worth_eq told).2,((sound.effect effect).worth_eq told').2,assets_left,redeems.shares]
    exact Proportion.rest_within nonneg within supplied (by omega)

namespace Small

/-- A token with total assets of ten and some shares, of which the holder burns some. -/
def burning (minted burned : Int) : Delivery (Option HelixToken) TokenError Entry Unit :=
  transition (deliver admin invoke) (run (deliver admin invoke) ⟨⟨0,0⟩,none⟩
    [(.signedBy admin,.initialise admin admin bridge),(.signedBy bridge,.bridge_mint userA minted),
      (.signedBy bridge,.update_exchange_rate 10)]) (.signedBy userA,.burn userA burned)

end Small

/-- Seven shares that come to ten: when three of them are burned, five are left, and
    the four that are left came to five. -/
theorem burn_keeps_rate_three :
    ∃ t u, (Small.burning 7 3).before.state = some t ∧ (Small.burning 7 3).after.state = some u ∧
      u.total_assets = (t.total_shares - 3) * t.total_assets / t.total_shares ∧
      u.total_assets * t.total_shares ≤ t.total_assets * u.total_shares ∧ t.worth 4 = some 5 ∧ u.worth 4 = some 5 := by
  obtain ⟨t,found,before⟩ := Option.map_eq_some_iff.mp (show (Small.burning 7 3).before.state.map (fun t =>
    (t.total_shares,t.worth 4)) = some (7,some 5) by decide +kernel)
  obtain ⟨u,left,after⟩ := Option.map_eq_some_iff.mp (show (Small.burning 7 3).after.state.map (fun u => u.worth 4) =
    some (some 5) by decide +kernel)
  simp only [Prod.mk.injEq] at before
  have kept := (burn_keeps_rate Small.admin ⟨0,0⟩ _ (.signedBy Small.userA) (.burn Small.userA 3) 3 rfl t u
    (by decide +kernel) found left).1 (by omega)
  exact ⟨t,u,found,left,kept.1,kept.2.1,before.2,after⟩

/-- Burning no shares of an empty supply leaves the total assets that were set before
    any share was minted. -/
theorem empty_burn_leaves_assets :
    (Small.burning 0 0).output = .ok () ∧
      (Small.burning 0 0).before.state.map (fun t => t.total_shares) = some 0 ∧
      (Small.burning 0 0).after.state.map (fun u => (u.total_shares,u.total_assets)) = some (0, 10) := by
  decide +kernel

end Helix.Token
