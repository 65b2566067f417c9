import Mathlib.Tactic.LinearCombination
import Helix.TokenConversions
import Helix.VaultHealth

/-!
What the mints and burns of the vault and the bridge do to everybody else. They
move the supply of the share token and leave its total assets, so the rate moves
with them. What the shares of others come to changes by at most one exactly where
little enough is moved (`flow_neutral_iff`), and then no vault position loses more
health than one asset is worth.
-/
namespace Helix

/-- A quotient falls by at most one under a larger denominator exactly as long as
    what is lost, in parts of both, is within one and the remainder. -/
theorem ediv_le_add_one_iff {n d e : Int} (positive : 0 < d) (positive' : 0 < e) :
    n / d ≤ n / e + 1 ↔ n * (e - d) ≤ e * (d + n % d) := by
  have split : d * (n / d) = n - n % d := by
    have := Int.mul_ediv_add_emod n d
    omega
  have scaled : d * ((n / d - 1) * e) = n * e - e * (d + n % d) := by linear_combination e * split
  have whole : n * (e - d) = n * e - d * n := by rw [mul_sub,mul_comm n d]
  rw [← sub_le_iff_le_add,Int.le_ediv_iff_mul_le positive',← Int.mul_le_mul_left positive,scaled,whole]
  omega

/-- A larger denominator gives a smaller quotient. -/
theorem ediv_antitone {n d e : Int} (nonneg : 0 ≤ n) (positive : 0 < d) (larger : d ≤ e) : n / e ≤ n / d := by
  have positive' : 0 < e := positive.trans_le larger
  have quotient : 0 ≤ n / e := Int.ediv_nonneg nonneg positive'.le
  rw [Int.le_ediv_iff_mul_le positive]
  exact (Int.mul_le_mul_of_nonneg_left larger quotient).trans (Int.ediv_mul_le n positive'.ne')

namespace Token
open Invoke

/-- Some shares come to as much under both tokens, give or take one, or are too
    many for both to tell. -/
inductive Steady (t u : HelixToken) (shares : Int) : Prop
  | within (assets assets' : Int) : t.worth shares = some assets → u.worth shares = some assets' →
      assets ≤ assets' + 1 → assets' ≤ assets + 1 → Steady t u shares
  | refused : t.worth shares = none → u.worth shares = none → Steady t u shares

/-- A mint or a burn of the vault or the bridge: whose balance it moves, and by how
    much. -/
def Entry.flow : Entry → Option (Address × Int)
  | .vault_mint recipient shares => some (recipient, shares)
  | .bridge_mint recipient shares => some (recipient, shares)
  | .vault_burn owner shares => some (owner, -shares)
  | .bridge_burn owner shares => some (owner, -shares)
  | _ => none

/-- Next to the supply the change is too small to move more than one of what some
    shares come to. -/
def Slight (t : HelixToken) (change shares : Int) : Prop :=
  Fits (shares * t.total_assets) →
    let least := min t.total_shares (t.total_shares + change)
    let most := max t.total_shares (t.total_shares + change)
    shares * t.total_assets * (most - least) ≤ most * (least + shares * t.total_assets % least)

/-- A flow moves the supply and leaves the total assets. -/
theorem flow_effect {env : Env} {entry : Entry} {t u : HelixToken} {party : Address} {change : Int}
    (flow : entry.flow = some (party, change)) (effect : Effect env t entry u) :
    u.total_shares = t.total_shares + change ∧ u.total_assets = t.total_assets := by
  cases effect <;> simp only [Entry.flow,reduceCtorEq,Option.some.injEq,Prod.mk.injEq] at flow
  all_goals
    obtain ⟨_,rfl⟩ := flow
    exact ⟨rfl,rfl⟩

section Rates
variable {t u : HelixToken} {change shares : Int}

/-- What shares come to moves by at most one exactly under a slight change. -/
theorem steady_iff_slight (sound : Sound t) (sound' : Sound u) (supplied : 0 < t.total_shares)
    (left : 0 < u.total_shares) (moved : u.total_shares = t.total_shares + change)
    (kept : u.total_assets = t.total_assets) (nonneg : 0 ≤ shares) : Steady t u shares ↔ Slight t change shares := by
  unfold Slight
  by_cases fits : Fits (shares * t.total_assets)
  · have scaled : 0 ≤ shares * t.total_assets := Int.mul_nonneg nonneg sound.assets_nonneg
    have told := (sound.worth_some supplied).mpr ⟨nonneg,fits,rfl⟩
    have told' := (sound'.worth_some left).mpr ⟨nonneg,by rwa [kept],rfl⟩
    have close : Steady t u shares ↔
        shares * t.total_assets / t.total_shares ≤ shares * t.total_assets / u.total_shares + 1 ∧
          shares * t.total_assets / u.total_shares ≤ shares * t.total_assets / t.total_shares + 1 := by
      rw [kept] at told'
      constructor
      · rintro (⟨assets,assets',before,after,low,high⟩ | ⟨none,_⟩)
        · rw [told] at before
          rw [told'] at after
          cases before
          cases after
          exact ⟨low,high⟩
        · rw [told] at none
          cases none
      · rintro ⟨low,high⟩
        exact .within _ _ told told' low high
    rw [close]
    simp only [fits,true_imp_iff,← moved]
    -- The quotient by the larger supply is the smaller one, so only the other side counts.
    rcases le_total t.total_shares u.total_shares with grows | shrinks
    · rw [min_eq_left grows,max_eq_right grows,← ediv_le_add_one_iff supplied left]
      have falls := ediv_antitone scaled supplied grows
      omega
    · rw [min_eq_right shrinks,max_eq_left shrinks,← ediv_le_add_one_iff left supplied]
      have falls := ediv_antitone scaled left shrinks
      omega
  · simp only [fits,false_imp_iff,iff_true]
    refine .refused ?_ ?_
    · rw [Option.eq_none_iff_forall_ne_some]
      intro assets told
      exact fits ((sound.worth_some supplied).mp told).2.1
    · rw [Option.eq_none_iff_forall_ne_some]
      intro assets told
      have fits' := ((sound'.worth_some left).mp told).2.1
      rw [kept] at fits'
      exact fits fits'

end Rates
end Token

/-! ### The health of vault positions -/

namespace Vault

/-- The health factor of a position whose shares come to some assets at some price. -/
def Position.factorAt (p : Position) (liq_threshold : Nat) (assets price : Int) : Int :=
  if p.borrowed_amount = 0 then i128Max
  else ((assets * price).tdiv PRICE_SCALAR * liq_threshold).tdiv p.borrowed_amount

section Factors
variable {W : Type} {clients : Clients W} {env : Env} {oracle token : Address} {liq_threshold : Nat} {p : Position}
  {factor assets price : Int} {w w' : W}

/-- What is told of the shares of a position is what its health factor counts. -/
theorem Health.factorAt (health : Health clients env oracle token liq_threshold p factor w w')
    (tells : Tells clients env oracle token p.deposited_shares assets price w)
    (nothing : p.deposited_shares = 0 → assets = 0) : factor = p.factorAt liq_threshold assets price := by
  unfold Position.factorAt
  cases health with
  | debtless _ none => rw [if_pos none]
  | ratio value _ _ owes values _ =>
    rw [if_neg owes]
    by_cases none : p.deposited_shares = 0
    · rw [none] at values
      rw [nothing none]
      cases values with
      | nothing => simp
      | shares _ _ _ _ _ _ some => exact absurd rfl some
    · rw [tells.worth values none]

theorem factorAt_mono {assets' : Int} (priced : 0 < price) (owes : 0 ≤ p.borrowed_amount) (less : assets ≤ assets') :
    p.factorAt liq_threshold assets price ≤ p.factorAt liq_threshold assets' price := by
  unfold Position.factorAt
  split
  · exact le_rfl
  · have value : (assets * price).tdiv PRICE_SCALAR ≤ (assets' * price).tdiv PRICE_SCALAR :=
      Int.tdiv_le_tdiv (by decide) (Int.mul_le_mul_of_nonneg_right less priced.le)
    exact Int.tdiv_le_tdiv (by omega) (Int.mul_le_mul_of_nonneg_right value (Int.natCast_nonneg _))

/-- A debt whose health factor is told is not negative. -/
theorem Health.owes (health : Health clients env oracle token liq_threshold p factor w w') : 0 ≤ p.borrowed_amount := by
  cases health with
  | debtless _ none => exact none.ge
  | ratio _ _ _ _ _ owes _ => exact owes.le

end Factors

/-- In any vault whose first collateral token tells of some shares what two share
    tokens do, and whose oracle quotes one price, the health factor of a position
    with these shares is under the second token at least what it is under the first
    for one asset less. -/
def HealthKept (t u : Token.HelixToken) (shares : Int) : Prop :=
  ∀ (W : Type) (clients : Clients W) (env : Env) (v : HelixVault) (user token : Address) (p : Position)
    (assets assets' price : Int) (w w' : W) (r r' : Int × World HelixVault W),
    v.supported_assets.head? = some token → v.positions.get user = some p → p.deposited_shares = shares →
    t.worth shares = some assets → u.worth shares = some assets' →
    Tells clients env v.oracle_address token shares assets price w →
    Tells clients env v.oracle_address token shares assets' price w' →
    get_health_factor clients.apart env user ⟨v,w⟩ = .ok r → get_health_factor clients.apart env user ⟨v,w'⟩ = .ok r' →
    let q := p.accrued env.timestamp v.pool_config.interest_rate
    r.1 = q.factorAt v.pool_config.liq_threshold assets price ∧
      q.factorAt v.pool_config.liq_threshold (assets - 1) price ≤ r'.1

end Vault

namespace Token
open Invoke

section Rates
variable {t u : HelixToken} {change shares : Int}

theorem Steady.healthKept (sound : Sound t) (sound' : Sound u) (supplied : 0 < t.total_shares)
    (left : 0 < u.total_shares) (steady : Steady t u shares) : Vault.HealthKept t u shares := by
  intro W clients env v user token p assets assets' price w w' r r' primary stored same told told' tells tells' read
    read' q
  subst same
  obtain ⟨first,found,_,head,held,_,health,_⟩ := Vault.get_health_factor_ok.mp read
  obtain ⟨first',found',_,head',held',_,health',_⟩ := Vault.get_health_factor_ok.mp read'
  rw [primary] at head head'
  rw [stored] at held held'
  cases head
  cases head'
  cases held
  cases held'
  have nothing : p.deposited_shares = 0 → assets = 0 := by
    intro none
    obtain ⟨_,_,rfl⟩ := (sound.worth_some supplied).mp told
    simp [none]
  have nothing' : p.deposited_shares = 0 → assets' = 0 := by
    intro none
    obtain ⟨_,_,rfl⟩ := (sound'.worth_some left).mp told'
    simp [none]
  refine ⟨health.factorAt tells nothing,?_⟩
  obtain ⟨mid,after,_,quotes⟩ := tells
  have close : assets - 1 ≤ assets' := by
    cases steady with
    | within found found' before after low _ =>
      rw [told] at before
      rw [told'] at after
      cases before
      cases after
      omega
    | refused none _ =>
      rw [told] at none
      cases none
  calc q.factorAt v.pool_config.liq_threshold (assets - 1) price
      ≤ q.factorAt v.pool_config.liq_threshold assets' price := Vault.factorAt_mono quotes.positive health.owes close
    _ = r'.1 := (health'.factorAt tells' nothing').symm

end Rates

/-- Each mint and burn of the vault and the bridge, in every state that calls to a
    token reach: what the shares of other holders come to stays, give or take one,
    exactly if the change is slight for all of them; and where it is slight, a vault
    position with as many shares loses no more health than one asset is worth. -/
theorem flow_neutral_iff (self : Address) (clock : Clock) (calls : List (Origin × Entry)) (origin : Origin)
    (entry : Entry) (party : Address) (change : Int) (flow : entry.flow = some (party, change)) (t u : HelixToken) :
    let r : Delivery (Option HelixToken) TokenError Entry Unit :=
      transition (deliver self invoke) (run (deliver self invoke) ⟨clock,none⟩ calls) (origin,entry)
    r.output = .ok () → r.before.state = some t → r.after.state = some u → 0 < t.total_shares → 0 < u.total_shares →
      ((∀ holder x, holder ≠ party → 0 ≤ x → x ≤ t.balance holder → Steady t u x) ↔
        ∀ holder x, holder ≠ party → 0 ≤ x → x ≤ t.balance holder → Slight t change x) ∧
      ∀ x, 0 ≤ x → Slight t change x → Vault.HealthKept t u x := by
  intro r out found left supplied supplied'
  have sound : Sound t := reached_sound found
  have ran := Delivery.returned (transition_makes _ _ : Makes (deliver self invoke) r) out
  obtain ⟨u',left',effect⟩ := effect_of_invoke found ran
  cases left.symm.trans left'
  obtain ⟨moved,kept⟩ := flow_effect flow effect
  have sound' := sound.effect effect
  have steady : ∀ x, 0 ≤ x → (Steady t u x ↔ Slight t change x) := fun x nonneg =>
    steady_iff_slight sound sound' supplied supplied' moved kept nonneg
  refine ⟨?_,?_⟩
  · constructor
    · intro neutral holder x other nonneg held
      exact (steady x nonneg).mp (neutral holder x other nonneg held)
    · intro slight holder x other nonneg held
      exact (steady x nonneg).mpr (slight holder x other nonneg held)
  · intro x nonneg slight
    exact ((steady x nonneg).mpr slight).healthKept sound sound' supplied supplied'

namespace Small

/-- Ten shares that come to ten. -/
def opening : List (Origin × Entry) :=
  [(.signedBy admin,.initialise admin admin bridge),(.signedBy bridge,.bridge_mint userA 10),
    (.signedBy bridge,.update_exchange_rate 10)]

/-- The bridge mints some shares to another user. -/
def minting (shares : Int) : Delivery (Option HelixToken) TokenError Entry Unit :=
  transition (deliver admin invoke) (run (deliver admin invoke) ⟨⟨0,0⟩,none⟩ opening)
    (.signedBy bridge,.bridge_mint userB shares)

end Small

/-- A mint of one share next to ten: what the others hold comes to nine tenths and
    more of what it did. -/
theorem flow_neutral_minted :
    ∃ t u, (Small.minting 1).before.state = some t ∧ (Small.minting 1).after.state = some u ∧
      ∀ holder x, holder ≠ Small.userB → 0 ≤ x → x ≤ t.balance holder → Steady t u x := by
  have totals : (Small.minting 1).before.state.map (fun t => (t.total_shares,t.total_assets)) = some (10,10) := by
    decide +kernel
  have totals' : (Small.minting 1).after.state.map (fun u => u.total_shares) = some 11 := by decide +kernel
  obtain ⟨t,found,before⟩ := Option.map_eq_some_iff.mp totals
  obtain ⟨u,left,supply'⟩ := Option.map_eq_some_iff.mp totals'
  simp only [Prod.mk.injEq] at before
  obtain ⟨supply,assets⟩ := before
  refine ⟨t,u,found,left,?_⟩
  apply (flow_neutral_iff Small.admin ⟨0,0⟩ Small.opening (.signedBy Small.bridge) (.bridge_mint Small.userB 1)
    Small.userB 1 rfl t u (by decide +kernel) found left (by omega) (by omega)).1.mpr
  intro holder x _ nonneg held fits
  have within := (reached_sound found).balance_le holder
  rw [supply,assets]
  simp only [show min (10 : Int) (10 + 1) = 10 by decide,show max (10 : Int) (10 + 1) = 11 by decide]
  omega

/-- Ten shares more, and those of the first user come to five instead of ten. -/
theorem flow_dilutes :
    ∃ t u, (Small.minting 10).output = .ok () ∧ (Small.minting 10).before.state = some t ∧
      (Small.minting 10).after.state = some u ∧ 0 < t.total_shares ∧ 0 < u.total_shares ∧
      ¬ ∀ holder x, holder ≠ Small.userB → 0 ≤ x → x ≤ t.balance holder → Steady t u x := by
  have facts : (Small.minting 10).before.state.map (fun t => (t.total_shares,t.balance Small.userA,t.worth 10)) =
      some (10,10,some 10) := by decide +kernel
  have facts' : (Small.minting 10).after.state.map (fun u => (u.total_shares,u.worth 10)) = some (20,some 5) := by
    decide +kernel
  obtain ⟨t,found,before⟩ := Option.map_eq_some_iff.mp facts
  obtain ⟨u,left,after⟩ := Option.map_eq_some_iff.mp facts'
  simp only [Prod.mk.injEq] at before after
  obtain ⟨supply,held,told⟩ := before
  obtain ⟨supply',told'⟩ := after
  refine ⟨t,u,by decide +kernel,found,left,by omega,by omega,?_⟩
  intro neutral
  cases neutral Small.userA 10 (by decide) (by decide) held.ge with
  | within assets assets' came comes low _ =>
    rw [told] at came
    rw [told'] at comes
    cases came
    cases comes
    omega
  | refused none _ =>
    rw [told] at none
    cases none

end Token
end Helix
