import Helix.Proportion
import Helix.TokenSupply

/-!
The conversions of the share token. Shares come to their part of the total assets,
and assets to their part of the supply, rounded down. So all holders together come
to no more than the total assets, nobody gains by converting back and forth, and
parts come to no more apart than together (`claims_covered`).
-/
namespace Helix.Token
open Invoke

/-- What a token answers for some shares. -/
def HelixToken.worth (t : HelixToken) (shares : Int) : Option Int := (answer (assets_for_shares shares) t).map Prod.fst

theorem assets_for_shares_ok {shares : Int} {t : HelixToken} {r : Int × HelixToken} (supplied : t.total_shares ≠ 0) :
    assets_for_shares shares t = .ok r ↔
      0 ≤ shares ∧ (shares ≠ 0 → Fits (shares * t.total_assets)) ∧
        r = ((shares * t.total_assets).tdiv t.total_shares, t) := by
  by_cases none : shares = 0
  · simp [assets_for_shares,none]
  · simp [assets_for_shares,none,supplied,checked_mul,and_assoc]

theorem Sound.worth_some {t : HelixToken} (sound : Sound t) (supplied : 0 < t.total_shares) {shares assets : Int} :
    t.worth shares = some assets ↔
      0 ≤ shares ∧ Fits (shares * t.total_assets) ∧ assets = shares * t.total_assets / t.total_shares := by
  have told : t.worth shares = some assets ↔ 0 ≤ shares ∧ (shares ≠ 0 → Fits (shares * t.total_assets)) ∧
      assets = (shares * t.total_assets).tdiv t.total_shares := by
    simp only [HelixToken.worth,Option.map_eq_some_iff,answer_some,assets_for_shares_ok supplied.ne',Prod.exists,
      Prod.mk.injEq]
    constructor
    · rintro ⟨_,_,⟨nonneg,fits,rfl,_⟩,rfl⟩
      exact ⟨nonneg,fits,rfl⟩
    · rintro ⟨nonneg,fits,rfl⟩
      exact ⟨_,t,⟨nonneg,fits,rfl,rfl⟩,rfl⟩
  rw [told]
  apply and_congr_right
  intro nonneg
  rw [Int.tdiv_eq_ediv_of_nonneg (Int.mul_nonneg nonneg sound.assets_nonneg)]
  apply and_congr_left
  rintro -
  by_cases none : shares = 0
  · simp [none,fits_zero]
  · simp [none]

/-- The shares that come to some assets. -/
def HelixToken.sharesFor (t : HelixToken) (assets : Int) : Int := (assets * t.total_shares).tdiv t.total_assets

theorem shares_for_assets_ok {assets : Int} {t : HelixToken} {r : Int × HelixToken} (valued : t.total_assets ≠ 0) :
    shares_for_assets assets t = .ok r ↔
      0 ≤ assets ∧ (assets ≠ 0 → Fits (assets * t.total_shares)) ∧ r = (t.sharesFor assets, t) := by
  by_cases none : assets = 0
  · simp [shares_for_assets,none,HelixToken.sharesFor]
  · simp [shares_for_assets,none,valued,checked_mul,HelixToken.sharesFor,and_assoc]

/-- What a token answers for some assets. -/
def HelixToken.buys (t : HelixToken) (assets : Int) : Option Int := (answer (shares_for_assets assets) t).map Prod.fst

/-- What the balances of all holders come to; one that is too large to convert
    counts for nothing. -/
def HelixToken.claims (t : HelixToken) : Int := t.balances.total (fun balance => (t.worth balance).getD 0)

section Conversions
variable {t : HelixToken} {shares assets : Int}

theorem assets_for_shares_none {r : Int × HelixToken} (none : t.total_shares = 0) :
    assets_for_shares shares t = .ok r ↔ 0 ≤ shares ∧ r = (0, t) := by
  simp [assets_for_shares,none]

theorem shares_for_assets_none {r : Int × HelixToken} (none : t.total_assets = 0) :
    shares_for_assets assets t = .ok r ↔ 0 ≤ assets ∧ r = (0, t) := by
  simp [shares_for_assets,none]

/-- The assets that are told for shares; without a supply, a quotient by zero is zero. -/
theorem Sound.worth_eq (sound : Sound t) (told : t.worth shares = some assets) :
    0 ≤ shares ∧ assets = shares * t.total_assets / t.total_shares := by
  rcases sound.shares_nonneg.eq_or_lt with none | supplied
  · simp only [HelixToken.worth,Option.map_eq_some_iff,answer_some,assets_for_shares_none none.symm,Prod.exists,
      Prod.mk.injEq] at told
    obtain ⟨_,_,⟨nonneg,rfl,_⟩,rfl⟩ := told
    exact ⟨nonneg,by rw [← none,Int.ediv_zero]⟩
  · obtain ⟨nonneg,_,same⟩ := (sound.worth_some supplied).mp told
    exact ⟨nonneg,same⟩

/-- The shares that are told for assets. -/
theorem Sound.buys_eq (sound : Sound t) (told : t.buys assets = some shares) :
    0 ≤ assets ∧ shares = assets * t.total_shares / t.total_assets := by
  rcases sound.assets_nonneg.eq_or_lt with none | valued
  · simp only [HelixToken.buys,Option.map_eq_some_iff,answer_some,shares_for_assets_none none.symm,Prod.exists,
      Prod.mk.injEq] at told
    obtain ⟨_,_,⟨nonneg,rfl,_⟩,rfl⟩ := told
    exact ⟨nonneg,by rw [← none,Int.ediv_zero]⟩
  · simp only [HelixToken.buys,Option.map_eq_some_iff,answer_some,shares_for_assets_ok valued.ne',Prod.exists,
      Prod.mk.injEq,HelixToken.sharesFor] at told
    obtain ⟨_,_,⟨nonneg,_,rfl,_⟩,rfl⟩ := told
    exact ⟨nonneg,Int.tdiv_eq_ediv_of_nonneg (Int.mul_nonneg nonneg sound.shares_nonneg)⟩

theorem Sound.claims_le (sound : Sound t) : t.claims ≤ t.total_assets := by
  have each : ∀ a ∈ t.balances.keys, t.balances.weight (fun balance => (t.worth balance).getD 0) a ≤
      t.balances.weight id a * t.total_assets / t.total_shares := by
    intro a member
    obtain ⟨balance,held⟩ := Option.isSome_iff_exists.mp ((t.balances.mem_keys a).mp member)
    have nonneg : 0 ≤ balance := by
      have weight := sound.weight_nonneg a
      rwa [Store.weight_of_get held] at weight
    rw [Store.weight_of_get held,Store.weight_of_get held]
    cases told : t.worth balance with
    | none =>
      exact Int.ediv_nonneg (Int.mul_nonneg nonneg sound.assets_nonneg) sound.shares_nonneg
    | some assets => exact (sound.worth_eq told).2.le
  calc t.claims ≤ ∑ a ∈ t.balances.keys, t.balances.weight id a * t.total_assets / t.total_shares :=
        Finset.sum_le_sum each
    _ ≤ (∑ a ∈ t.balances.keys, t.balances.weight id a) * t.total_assets / t.total_shares :=
        Proportion.sum_le _ _ sound.shares_nonneg
    _ = t.total_shares * t.total_assets / t.total_shares := by rw [show ∑ a ∈ t.balances.keys, _ = _ from sound.supply.symm]
    _ ≤ t.total_assets := by
        rcases sound.shares_nonneg.eq_or_lt with none | supplied
        · rw [← none,Int.ediv_zero]
          exact sound.assets_nonneg
        · rw [Int.mul_ediv_cancel_left _ supplied.ne']

end Conversions

/-- In every state that calls to a token reach: the balances of all holders come to
    no more than the total assets; whatever the conversions tell, going from shares
    to assets and back, or from assets to shares and back, gains nothing; and parts
    come to no more apart than together, and to at most one less. -/
theorem claims_covered (self : Address) (clock : Clock) (calls : List (Origin × Entry)) (t : HelixToken)
    (reached : (run (deliver self invoke) ⟨clock,none⟩ calls).state = some t) :
    t.claims ≤ t.total_assets ∧
      (∀ shares assets back, t.worth shares = some assets → t.buys assets = some back → back ≤ shares) ∧
      (∀ assets shares back, t.buys assets = some shares → t.worth shares = some back → back ≤ assets) ∧
      ∀ shares shares' assets assets' both, t.worth shares = some assets → t.worth shares' = some assets' →
        t.worth (shares + shares') = some both → assets + assets' ≤ both ∧ both ≤ assets + assets' + 1 := by
  have sound := reached_sound reached
  refine ⟨sound.claims_le,?_,?_,?_⟩
  · intro shares assets back told bought
    obtain ⟨nonneg,rfl⟩ := sound.worth_eq told
    rw [(sound.buys_eq bought).2]
    exact Proportion.back_le sound.assets_nonneg sound.shares_nonneg nonneg
  · intro assets shares back bought told
    obtain ⟨nonneg,rfl⟩ := sound.buys_eq bought
    rw [(sound.worth_eq told).2]
    exact Proportion.back_le sound.shares_nonneg sound.assets_nonneg nonneg
  · intro shares shares' assets assets' both told told' together
    rw [(sound.worth_eq told).2,(sound.worth_eq told').2,(sound.worth_eq together).2]
    exact ⟨Proportion.add_le sound.shares_nonneg,Proportion.le_add_one sound.shares_nonneg⟩

namespace Small

def admin : Address := .account (BytesN.fill 32 1)
def bridge : Address := .account (BytesN.fill 32 2)
def userA : Address := .account (BytesN.fill 32 3)
def userB : Address := .account (BytesN.fill 32 4)

end Small

/-- Five shares of fourteen assets: two and three of them come to five and eight. -/
theorem claims_covered_shortLife :
    let admin := Address.account (BytesN.fill 32 0)
    let calls := shortLife admin (.account (BytesN.fill 32 1)) (.account (BytesN.fill 32 2))
    ∃ t, (run (deliver admin invoke) ⟨⟨0,0⟩,none⟩ calls).state = some t ∧ t.claims ≤ t.total_assets ∧
      t.worth 2 = some 5 ∧ t.worth 3 = some 8 ∧ t.worth 5 = some 14 ∧ t.buys 5 = some 1 := by
  intro admin calls
  obtain ⟨t,reached,worths⟩ : ∃ t, (run (deliver admin invoke) ⟨⟨0,0⟩,none⟩ calls).state = some t ∧
      (t.worth 2,t.worth 3,t.worth 5,t.buys 5) = (some 5,some 8,some 14,some 1) := ⟨_,rfl,by decide +kernel⟩
  simp only [Prod.mk.injEq] at worths
  exact ⟨t,reached,(claims_covered admin ⟨0,0⟩ calls t reached).1,worths⟩

end Helix.Token
