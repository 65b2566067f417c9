import Mathlib.Logic.Relation
import Helix.OracleAnchor
import Helix.SafeMode
import Helix.VaultAuthority
import Helix.VaultHealth

/-!
The vault on an oracle one of whose sources tells the truth. The adaptor may be
called by anybody, between the calls to the vault and during them; as long as its
updates hear one true quote each, what it stores stays near the truth
(`Moored`, `Tends.moored`), and so is every price at which the vault lends or
liquidates (`loans_honest`): a loan is covered at a price hardly higher, and a
position that is sound at a price hardly lower is never liquidated.
-/
namespace Helix

namespace Oracle
open Invoke

/-! ### An adaptor that stays near the truth -/

section Moorings
variable (asset : Address) (threshold : Nat) (low high : Int)

/-- A sum of prices that are near two bounds, on average. -/
structure Averaged (state : TWAPData) : Prop where
  some : 0 < state.num_samples
  between : ∃ least most, Near threshold low high least ∧ Near threshold low high most ∧
    state.num_samples * least ≤ state.cumulative_price ∧ state.cumulative_price ≤ state.num_samples * most

/-- All that the adaptor stores of an asset is near two bounds. -/
structure Moored (v : HelixOracleAdaptor) : Prop where
  cached : ∀ entry, v.cached_price asset = some entry → Near threshold low high entry.value.price
  window : ∀ entry, v.twap_state asset = some entry → Averaged threshold low high entry.value

/-- A call to the adaptor: any, where an update of the asset hears a quote between the
    bounds and can count it. -/
inductive Tends : Option HelixOracleAdaptor → Option HelixOracleAdaptor → Prop
  | call (W : Type) (peers : Peers W) (env : Env) (entry : Entry) (event : Option OracleEvent) (s s' : State W) :
      invoke peers env entry s = .ok (event, s') →
      (entry = .update_price asset → Vouched peers asset threshold low high env s ∧
        ∀ v lease, s.own = some v → v.twap_state asset = some lease → lease.value.num_samples < u32Max) →
      Tends s.own s'.own

/-- Calls to the adaptor, one after another. -/
abbrev Tended : Option HelixOracleAdaptor → Option HelixOracleAdaptor → Prop :=
  Relation.ReflTransGen (Tends asset threshold low high)

variable {asset threshold low high}

/-- The average of prices near the bounds is near them. -/
theorem Averaged.near {state : TWAPData} (averaged : Averaged threshold low high state) :
    Near threshold low high (state.cumulative_price.tdiv state.num_samples) := by
  obtain ⟨least,most,near,near',above,below⟩ := averaged.between
  have positive : (0 : Int) < state.num_samples := Int.natCast_pos.mpr averaged.some
  have larger := Int.tdiv_le_tdiv positive above
  have smaller := Int.tdiv_le_tdiv positive below
  rw [Int.mul_tdiv_cancel_left _ positive.ne'] at larger smaller
  exact near.between near' larger smaller

/-- One more price near the bounds. -/
theorem Averaged.next {now window : Nat} {state state' : TWAPData} {price : Int}
    (averaged : state.num_samples ≠ 0 → Averaged threshold low high state) (room : state.num_samples < u32Max)
    (near : Near threshold low high price) (next : Next now window state price state') :
    Averaged threshold low high state' := by
  cases next with
  | reset => exact ⟨Nat.one_pos,price,price,near,near,by simp,by simp⟩
  | sample joins fits =>
    obtain ⟨some,least,most,nearLeast,nearMost,above,below⟩ := averaged (fun none => joins (.inl none))
    rw [if_pos room]
    refine ⟨Nat.succ_pos _,min least price,max most price,?_,?_,?_,?_⟩
    · rcases min_choice least price with same | same <;> rw [same] <;> assumption
    · rcases max_choice most price with same | same <;> rw [same] <;> assumption
    · have old : (state.num_samples : Int) * min least price ≤ state.num_samples * least :=
        Int.mul_le_mul_of_nonneg_left (min_le_left _ _) (Int.natCast_nonneg _)
      have new : min least price ≤ price := min_le_right _ _
      push_cast
      rw [add_mul,one_mul]
      omega
    · have old : (state.num_samples : Int) * most ≤ state.num_samples * max most price :=
        Int.mul_le_mul_of_nonneg_left (le_max_left _ _) (Int.natCast_nonneg _)
      have new : price ≤ max most price := le_max_right _ _
      push_cast
      rw [add_mul,one_mul]
      omega

theorem Moored.fresh (admin primary secondary vault : Address) :
    Moored asset threshold low high (fresh admin primary secondary vault) where
  cached entry found := by cases found
  window entry found := by cases found

/-- What a moored adaptor shows is near the bounds. -/
theorem Moored.shown {W : Type} {env : Env} {v : HelixOracleAdaptor} {w : W} {r : (Int × Nat) × World HelixOracleAdaptor W}
    (moored : Moored asset threshold low high v) (told : (lastprice env asset : Contract W _) ⟨v,w⟩ = .ok r) :
    Near threshold low high r.1.1 := by
  obtain ⟨cached,found,_,rfl⟩ := lastprice_ok.mp told
  obtain ⟨entry,stored,told,_⟩ := Lease.read_some found
  have last := moored.cached entry stored
  rw [told] at last
  cases summed : Lease.read env.sequence (v.twap_state asset) with
  | none => exact last
  | some state =>
    obtain ⟨lease,held,same,_⟩ := Lease.read_some summed
    have averaged := moored.window lease held
    rw [same] at averaged
    show Near threshold low high (average cached (some state)).1
    rw [average,if_pos averaged.some]
    exact averaged.near

/-- A recorded price near the bounds keeps it so. -/
theorem Moored.recorded {env : Env} {v : HelixOracleAdaptor} {price : PriceData} {state : TWAPData}
    (moored : Moored asset threshold low high v)
    (room : ∀ lease, v.twap_state asset = some lease → lease.value.num_samples < u32Max)
    (near : Near threshold low high price.price)
    (next : Next env.timestamp v.twap_window (v.twap env asset) price.price state) :
    Moored asset threshold low high (v.recorded env asset price state) where
  cached entry found := by
    simp only [HelixOracleAdaptor.recorded,if_true,Option.some.injEq] at found
    subst found
    rwa [renewed_value]
  window entry found := by
    simp only [HelixOracleAdaptor.recorded,if_true,Option.some.injEq] at found
    subst found
    rw [renewed_value]
    cases summed : Lease.read env.sequence (v.twap_state asset) with
    | none =>
      have empty : (v.twap env asset).num_samples = 0 := by rw [HelixOracleAdaptor.twap,summed]; rfl
      exact .next (fun some => absurd empty some) (by rw [empty]; decide) near next
    | some sum =>
      obtain ⟨lease,held,same,_⟩ := Lease.read_some summed
      have seen : v.twap env asset = lease.value := by rw [HelixOracleAdaptor.twap,summed,Option.getD_some,same]
      rw [seen] at next
      exact .next (fun _ => moored.window lease held) (room lease held) near next

/-- A recorded price of another asset is none of this one. -/
theorem Moored.recorded_other {env : Env} {v : HelixOracleAdaptor} {other : Address} {price : PriceData} {state : TWAPData}
    (moored : Moored asset threshold low high v) (different : asset ≠ other) :
    Moored asset threshold low high (v.recorded env other price state) where
  cached entry found := by
    simp only [HelixOracleAdaptor.recorded,if_neg different] at found
    exact moored.cached entry found
  window entry found := by
    simp only [HelixOracleAdaptor.recorded,if_neg different] at found
    exact moored.window entry found

/-- A call to the adaptor leaves it near the truth. -/
theorem moored_of_effect {W : Type} {peers : Peers W} {env : Env} {s t : World HelixOracleAdaptor W} {entry : Entry}
    {event : Option OracleEvent} (natural : 0 ≤ low) (moored : Moored asset threshold low high s.own)
    (honest : entry = .update_price asset → Vouched peers asset threshold low high env ⟨some s.own,s.rest⟩ ∧
      ∀ lease, s.own.twap_state asset = some lease → lease.value.num_samples < u32Max)
    (effect : Effect peers env s entry event t) : Moored asset threshold low high t.own := by
  cases effect with
  | safe_mode => exact moored
  | update_price updated target primary secondary price state w surveyed agreed next =>
    by_cases same : asset = updated
    · subst same
      obtain ⟨vouched,room⟩ := honest rfl
      obtain ⟨first,second,hears,rfl,rfl⟩ := surveyed.hears
      exact moored.recorded room (vouched.near natural rfl hears agreed) next
    · exact moored.recorded_other same
  | set_safe_mode => exact moored
  | configure => exact ⟨moored.cached,moored.window⟩

theorem Tends.moored {a a' : Option HelixOracleAdaptor} (natural : 0 ≤ low) (tends : Tends asset threshold low high a a')
    (moored : ∀ v, a = some v → Moored asset threshold low high v) : ∀ v, a' = some v → Moored asset threshold low high v := by
  cases tends with
  | call W peers env entry event s s' done honest =>
    rcases invoke_cases done with ⟨v,v',found,left,effect⟩ | ⟨_,admin,primary,secondary,vault,_,_,rfl⟩
    · intro u own
      rw [left] at own
      cases own
      have heard : entry = .update_price asset → Vouched peers asset threshold low high env ⟨some v,s.rest⟩ ∧
          ∀ lease, v.twap_state asset = some lease → lease.value.num_samples < u32Max := by
        intro updates
        obtain ⟨vouched,room⟩ := honest updates
        rw [← found]
        exact ⟨vouched,fun lease => room v lease found⟩
      exact moored_of_effect natural (moored v found) heard effect
    · rintro u ⟨⟩
      exact .fresh admin primary secondary vault

theorem Tended.moored {a a' : Option HelixOracleAdaptor} (natural : 0 ≤ low) (tended : Tended asset threshold low high a a')
    (moored : ∀ v, a = some v → Moored asset threshold low high v) :
    ∀ v, a' = some v → Moored asset threshold low high v := by
  induction tended with
  | refl => exact moored
  | tail _ call ih => exact call.moored natural ih

end Moorings

end Oracle

/-! ### The vault on such an adaptor -/

namespace HonestPrices
open Invoke
open SafeMode (Beside Neighbours)
open Oracle (HelixOracleAdaptor Near Moored Tended)
open Vault (HelixVault Quotes Values Borrows Liquidates Served serve served PRICE_SCALAR BPS_DENOMINATOR)

/-! ### Prices that the vault is told -/

section Answers
variable {O : Type} {asset : Address} {threshold : Nat} {low high : Int}

variable (asset threshold low high) in
/-- The adaptor is called by others, and its updates of the asset hear a quote between
    the bounds. -/
def Sails (w w' : Beside O) : Prop := Tended asset threshold low high w.adaptor w'.adaptor

variable (asset threshold low high) in
/-- What the adaptor stores of the asset, if there is one, is near the bounds. -/
def Anchors (w : Beside O) : Prop := ∀ v, w.adaptor = some v → Moored asset threshold low high v

instance : Std.Refl (Sails (O := O) asset threshold low high) := ⟨fun _ => .refl⟩
instance : IsTrans (Beside O) (Sails asset threshold low high) := ⟨fun _ _ _ first second => first.trans second⟩

theorem Sails.anchors {w w' : Beside O} (natural : 0 ≤ low) (sails : Sails asset threshold low high w w')
    (anchors : Anchors asset threshold low high w) : Anchors asset threshold low high w' :=
  Oracle.Tended.moored natural sails anchors

theorem ask_some {α : Type} {question : Oracle.Contract O α} {w w' : Beside O} {x : α}
    (asked : w.ask question = some (x, w')) :
    ∃ v t, w.adaptor = some v ∧ question ⟨v,w.others⟩ = .ok (x, t) ∧ w' = ⟨some t.own,t.rest⟩ := by
  obtain ⟨v,found,told⟩ := Option.bind_eq_some_iff.mp asked
  obtain ⟨r,answered,same⟩ := Option.map_eq_some_iff.mp told
  cases same
  exact ⟨v,r.2,found,answer_some.mp answered,rfl⟩

/-- A question leaves the adaptor as it is. -/
theorem ask_keeps {α : Type} {question : Oracle.Contract O α} {w w' : Beside O} {x : α}
    (reads : ∀ s r, question s = .ok r → r.2.own = s.own) (asked : w.ask question = some (x, w')) :
    Sails asset threshold low high w w' := by
  obtain ⟨v,t,found,told,rfl⟩ := ask_some asked
  have same : t.own = v := reads _ _ told
  show Tended asset threshold low high w.adaptor (some t.own)
  rw [same,found]

variable {n : Neighbours O} {adaptor : Address}

/-- Asking the adaptor is no more than what others do to it. -/
theorem within_oracleAt (within : n.clients.Within (Sails asset threshold low high)) :
    (n.oracleAt adaptor).Within (Sails asset threshold low high) where
  balance := within.balance
  transfer := within.transfer
  transfer_from := within.transfer_from
  assets_for_shares := within.assets_for_shares
  shares_for_assets := within.shares_for_assets
  lastprice env priced w answer w' told := by
    simp only [Neighbours.oracleAt] at told
    split at told
    · refine ask_keeps ?_ told
      intro s r shown
      obtain ⟨_,_,_,rfl⟩ := Oracle.lastprice_ok.mp shown
      rfl
    · exact within.lastprice env priced w answer w' told
  decimals env priced w answer w' told := by
    simp only [Neighbours.oracleAt] at told
    split at told
    · refine ask_keeps ?_ told
      intro s r shown
      obtain ⟨_,_,same⟩ := Oracle.decimals_ok.mp shown
      rw [same]
    · exact within.decimals env priced w answer w' told

variable {env : Env} {w w' : Beside O} (natural : 0 ≤ low) (within : n.clients.Within (Sails asset threshold low high))
  (anchors : Anchors asset threshold low high w)
include natural within anchors

/-- A quote of the adaptor is near the bounds. -/
theorem near_of_quotes {price : Int} (quotes : Quotes (n.oracleAt adaptor) env adaptor asset price w w') :
    Near threshold low high price := by
  obtain ⟨mid,timestamp,decimals,told,_⟩ := quotes.answers
  have sailed := (within_oracleAt within).decimals _ _ _ _ _ decimals
  have here : (env.calling adaptor).current_contract_address = adaptor := rfl
  simp only [Neighbours.oracleAt,if_pos here] at told
  obtain ⟨v,t,found,shown,_⟩ := ask_some told
  exact Moored.shown (sailed.anchors natural anchors v found) shown

/-- What shares are worth, at a price near the bounds. -/
theorem worth_of_values {shares value : Int} (held : shares ≠ 0)
    (values : Values (n.oracleAt adaptor) env adaptor asset shares value w w') : ∃ assets price mid,
      n.clients.assets_for_shares (env.calling asset) shares w = some (assets, mid) ∧ 0 < price ∧
        Near threshold low high price ∧ value = (assets * price).tdiv PRICE_SCALAR := by
  cases values with
  | nothing => exact absurd rfl held
  | shares shares assets price _ mid _ _ converted quotes _ =>
    have sailed := within.assets_for_shares _ _ _ _ _ converted
    exact ⟨assets,price,mid,converted,quotes.positive,near_of_quotes natural within (sailed.anchors natural anchors) quotes,
      rfl⟩

end Answers

/-! ### What such prices allow -/

section Bounds
variable {threshold : Nat} {low high price assets value debt : Int}

/-- A debt that may be lent on assets at a price near the bounds is covered by them
    at a price hardly above the higher one. -/
theorem lent_bound {max_ltv : Nat} (near : Near threshold low high price) (priced : 0 < price)
    (worth : value = (assets * price).tdiv PRICE_SCALAR) (owes : 0 < debt)
    (allowed : debt ≤ (value * max_ltv).tdiv BPS_DENOMINATOR) :
    20000 * PRICE_SCALAR * BPS_DENOMINATOR * debt ≤ (20001 + threshold) * high * assets * max_ltv := by
  obtain ⟨lent,nonneg⟩ := Vault.lent_of_allowed owes allowed
  have owned : 0 ≤ (max_ltv : Int) := Int.natCast_nonneg _
  have positive : 0 < value := by
    refine nonneg.lt_of_ne ?_
    rintro rfl
    omega
  have total : 0 < assets * price := pos_of_tdiv (by decide) (worth ▸ positive)
  have sum : value * PRICE_SCALAR ≤ assets * price := by
    rw [worth,Int.tdiv_eq_ediv_of_nonneg total.le]
    exact Int.ediv_mul_le _ (by decide)
  have some : 0 ≤ assets := ((pos_iff_pos_of_mul_pos total).mpr priced).le
  calc 20000 * PRICE_SCALAR * BPS_DENOMINATOR * debt
      = 20000 * PRICE_SCALAR * (debt * 10000) := by rw [show BPS_DENOMINATOR = 10000 from rfl]; ring
    _ ≤ 20000 * PRICE_SCALAR * (value * max_ltv) := Int.mul_le_mul_of_nonneg_left lent (by decide)
    _ = 20000 * (value * PRICE_SCALAR) * max_ltv := by ring
    _ ≤ 20000 * (assets * price) * max_ltv :=
        Int.mul_le_mul_of_nonneg_right (Int.mul_le_mul_of_nonneg_left sum (by decide)) owned
    _ = 20000 * price * assets * max_ltv := by ring
    _ ≤ (20001 + threshold) * high * assets * max_ltv :=
        Int.mul_le_mul_of_nonneg_right (Int.mul_le_mul_of_nonneg_right near.below some) owned

/-- Assets that do not carry a debt at a price near the bounds are worth hardly more
    than the debt at a price hardly below the lower one. -/
theorem liquidated_bound {liq_threshold : Nat} (near : Near threshold low high price) (priced : 0 < price) (some : 0 ≤ assets)
    (worth : value = (assets * price).tdiv PRICE_SCALAR) (owes : 0 < debt)
    (unhealthy : (value * liq_threshold).tdiv debt ≤ BPS_DENOMINATOR) :
    (19999 - threshold) * low * assets * liq_threshold ≤
      20000 * PRICE_SCALAR * ((BPS_DENOMINATOR + 1) * debt + liq_threshold) + 10000 * assets * liq_threshold := by
  have owned : 0 ≤ (liq_threshold : Int) := Int.natCast_nonneg _
  have total : 0 ≤ assets * price := Int.mul_nonneg some priced.le
  rw [Int.tdiv_eq_ediv_of_nonneg total] at worth
  have sum : assets * price ≤ (value + 1) * PRICE_SCALAR := by
    rw [worth]
    exact (Int.lt_ediv_add_one_mul_self _ (by decide)).le
  have nonneg : 0 ≤ value := by
    rw [worth]
    exact Int.ediv_nonneg total (by decide)
  have carried : value * liq_threshold ≤ (BPS_DENOMINATOR + 1) * debt := by
    rw [Int.tdiv_eq_ediv_of_nonneg (Int.mul_nonneg nonneg owned)] at unhealthy
    exact (Int.lt_mul_of_ediv_lt owes (Int.lt_add_one_of_le unhealthy)).le
  calc (19999 - threshold) * low * assets * liq_threshold
      ≤ (20000 * price + 10000) * assets * liq_threshold :=
        Int.mul_le_mul_of_nonneg_right (Int.mul_le_mul_of_nonneg_right near.above some) owned
    _ = 20000 * (assets * price) * liq_threshold + 10000 * assets * liq_threshold := by ring
    _ ≤ 20000 * ((value + 1) * PRICE_SCALAR) * liq_threshold + 10000 * assets * liq_threshold := by
        gcongr
    _ = 20000 * PRICE_SCALAR * (value * liq_threshold + liq_threshold) + 10000 * assets * liq_threshold := by ring
    _ ≤ 20000 * PRICE_SCALAR * ((BPS_DENOMINATOR + 1) * debt + liq_threshold) + 10000 * assets * liq_threshold := by
        have scale : 0 ≤ 20000 * PRICE_SCALAR := by decide
        gcongr

end Bounds

/-! ### Loans and liquidations -/

section Calls
variable {O : Type} (n : Neighbours O) (asset : Address) (threshold : Nat) (low high : Int)

/-- Some shares cover a debt at a price hardly above the higher bound. -/
def Covers (env : Env) (v : HelixVault) (shares debt : Int) (w : Beside O) : Prop :=
  ∃ assets mid, n.clients.assets_for_shares (env.calling asset) shares w = some (assets, mid) ∧
    20000 * PRICE_SCALAR * BPS_DENOMINATOR * debt ≤ (20001 + threshold) * high * assets * v.pool_config.max_ltv

/-- Some shares carry hardly more than a debt at a price hardly below the lower bound. -/
def Strained (env : Env) (v : HelixVault) (shares debt : Int) (w : Beside O) : Prop :=
  ∃ assets mid, n.clients.assets_for_shares (env.calling asset) shares w = some (assets, mid) ∧ (0 ≤ assets →
    (19999 - threshold) * low * assets * v.pool_config.liq_threshold ≤
      20000 * PRICE_SCALAR * ((BPS_DENOMINATOR + 1) * debt + v.pool_config.liq_threshold) +
        10000 * assets * v.pool_config.liq_threshold)

variable {n asset threshold low high} {adaptor : Address} {env : Env} {s : World HelixVault (Beside O)} (natural : 0 ≤ low)
  (within : n.clients.Within (Sails asset threshold low high)) (anchors : Anchors asset threshold low high s.rest)
  (oracle : s.own.oracle_address = adaptor) (primary : s.own.supported_assets.head? = some asset)
include natural within anchors oracle primary

/-- A loan is covered. -/
theorem covers_of_borrows {now : Nat} (sound : s.own.book.WellFormed now) {user : Address} {amount factor : Int}
    {p : Vault.Position} {w : Beside O} (borrows : Borrows (n.oracleAt adaptor) env s user amount factor p w) :
    Covers n asset threshold high env s.own (s.own.charged env.timestamp user).deposited_shares
      ((s.own.charged env.timestamp user).borrowed_amount + amount) s.rest := by
  obtain ⟨token,allowed,first,second,head,⟨value,values,_,limit⟩,lent,_,_⟩ := borrows.covered
  rw [primary] at head
  cases head
  rw [borrows.position,oracle] at values
  rw [borrows.position,limit] at lent
  change (s.own.charged env.timestamp user).borrowed_amount + amount ≤ _ at lent
  have owed := HelixVault.charged_debt_nonneg env.timestamp user sound
  have owes : 0 < (s.own.charged env.timestamp user).borrowed_amount + amount :=
    Int.add_pos_of_nonneg_of_pos owed borrows.asked.positive
  have held : (s.own.charged env.timestamp user).deposited_shares ≠ 0 := by
    intro none
    rw [none] at values
    cases values with
    | nothing =>
      rw [zero_mul,Int.zero_tdiv] at lent
      omega
    | shares _ _ _ _ _ _ some => exact some rfl
  obtain ⟨assets,price,mid,converted,priced,near,worth⟩ := worth_of_values natural within anchors held values
  exact ⟨assets,mid,converted,lent_bound near priced worth owes lent⟩

/-- Who is liquidated was strained. -/
theorem strained_of_liquidates {liquidator user : Address} {repay_amount actual bonus seized : Int} {p : Vault.Position}
    {w : Beside O} (liquidates : Liquidates (n.oracleAt adaptor) env s liquidator user repay_amount actual bonus seized p w) :
    Strained n asset threshold low env s.own (s.own.charged env.timestamp user).deposited_shares
      (s.own.charged env.timestamp user).borrowed_amount s.rest := by
  obtain ⟨token,factor,first,second,head,health,unhealthy,_,seizes⟩ := liquidates.steps
  rw [primary] at head
  cases head
  rw [oracle] at health
  have held : (s.own.charged env.timestamp user).deposited_shares ≠ 0 :=
    (seizes.positive.trans_le liquidates.enough).ne'
  cases health with
  | debtless none => exact absurd unhealthy (by decide)
  | ratio value _ _ some values owes fits =>
    obtain ⟨assets,price,mid,converted,priced,near,worth⟩ := worth_of_values natural within anchors held values
    exact ⟨assets,mid,converted,fun nonneg => liquidated_bound near priced nonneg worth owes unhealthy⟩

end Calls

/-! ### Runs -/

section Runs
variable {O : Type} {n : Neighbours O} {vault adaptor asset : Address} {threshold : Nat} {low high : Int}

variable (adaptor asset threshold low high) in
/-- A vault that asks an adaptor near the truth. -/
structure Tied (c : Chain (Vault.State (Beside O))) : Prop where
  sound : (Vault.book c).WellFormed c.clock.timestamp
  anchors : Anchors asset threshold low high c.state.rest
  oracle : ∀ v, c.state.own = some v → v.oracle_address = adaptor

/-- What happens on the chain keeps it so. -/
theorem Tied.kept {r : Served (Beside O)} (natural : 0 ≤ low) (within : n.clients.Within (Sails asset threshold low high))
    (outside : ∀ move, r.input.2 = .outside move →
      Sails asset threshold low high r.before.state.rest r.after.state.rest)
    (founded : ∀ admin oracle borrow_token config, served r = some (.initialise admin oracle borrow_token config) →
      oracle = adaptor)
    (makes : Makes (serve (n.oracleAt adaptor) vault) r) (tied : Tied adaptor asset threshold low high r.before) :
    Tied adaptor asset threshold low high r.after := by
  have sound := Vault.wellFormed_kept makes tied.sound
  cases Vault.turn_of_makes makes with
  | called entry event v v' input out own left effect =>
    have sails : Sails asset threshold low high r.before.state.rest r.after.state.rest :=
      Vault.rest_of_effect (within_oracleAt within) effect
    refine ⟨sound,sails.anchors natural tied.anchors,?_⟩
    rw [left]
    rintro u ⟨⟩
    exact (Vault.oracle_of_effect effect).trans (tied.oracle v own)
  | initialised admin oracle token config input out missing left rest valid =>
    refine ⟨sound,by rw [rest]; exact tied.anchors,?_⟩
    rw [left]
    rintro u ⟨⟩
    exact founded admin oracle token config (Vault.served_some.mpr ⟨input,_,out⟩)
  | moved move input out own rest =>
    refine ⟨sound,(outside move input).anchors natural tied.anchors,?_⟩
    rw [own]
    exact tied.oracle
  | failed e out same =>
    refine ⟨sound,?_,?_⟩
    · rw [same]
      exact tied.anchors
    · rw [same]
      exact tied.oracle

/-- What a call to such a vault does, with the shares and the debt of a user up to
    then. -/
theorem Tied.called {r : Served (Beside O)} (natural : 0 ≤ low) (within : n.clients.Within (Sails asset threshold low high))
    (makes : Makes (serve (n.oracleAt adaptor) vault) r) (tied : Tied adaptor asset threshold low high r.before)
    {v : HelixVault} (found : r.before.state.own = some v) (primary : v.supported_assets.head? = some asset) :
    (∀ user amount, served r = some (.borrow user amount) →
      Covers n asset threshold high (r.env vault) v (v.charged r.clock.timestamp user).deposited_shares
        ((v.charged r.clock.timestamp user).borrowed_amount + amount) r.before.state.rest) ∧
    ∀ liquidator user repay_amount, served r = some (.liquidate liquidator user repay_amount) →
      Strained n asset threshold low (r.env vault) v (v.charged r.clock.timestamp user).deposited_shares
        (v.charged r.clock.timestamp user).borrowed_amount r.before.state.rest := by
  have sound := tied.sound
  rw [Vault.book_of_own found] at sound
  constructor
  · intro user amount entered
    obtain ⟨input,event,out⟩ := Vault.served_some.mp entered
    obtain ⟨u,t,own,_,effect⟩ := Vault.called_of_makes makes input out (by simp)
    rw [found] at own
    cases own
    cases effect with
    | borrow _ _ factor p w borrows =>
      exact covers_of_borrows natural within tied.anchors (tied.oracle v found) primary sound borrows
    | configured entry event v configured => cases configured
  · intro liquidator user repay_amount entered
    obtain ⟨input,event,out⟩ := Vault.served_some.mp entered
    obtain ⟨u,t,own,_,effect⟩ := Vault.called_of_makes makes input out (by simp)
    rw [found] at own
    cases own
    cases effect with
    | liquidate _ _ _ actual bonus seized p w liquidates =>
      exact strained_of_liquidates natural within tied.anchors (tied.oracle v found) primary liquidates
    | configured entry event v configured => cases configured

end Runs

/-- In every run of a vault on the adaptor, in which everything that others do to the
    adaptor are calls whose updates of an asset hear a quote between two bounds from
    one of the sources at least, whatever the other one answers: a loan that is
    granted on the asset is covered at a price hardly above the higher bound, and
    nobody is liquidated whose shares carry the debt at a price hardly below the
    lower one. -/
theorem loans_honest {O : Type} (n : Neighbours O) (vault adaptor asset : Address) (threshold : Nat) (low high : Int)
    (natural : 0 ≤ low) (within : n.clients.Within (Sails asset threshold low high)) (clock : Clock) (o : O)
    (calls : List (Origin × Vault.Action (Beside O))) :
    let past := trace (serve (n.oracleAt adaptor) vault) (Vault.undeployed clock ⟨none,o⟩) calls
    (∀ r ∈ past, ∀ move, r.input.2 = .outside move → Sails asset threshold low high r.before.state.rest r.after.state.rest) →
    (∀ r ∈ past, ∀ admin oracle borrow_token config, served r = some (.initialise admin oracle borrow_token config) →
      oracle = adaptor) →
    ∀ r ∈ past, ∀ v, r.before.state.own = some v → v.supported_assets.head? = some asset →
      (∀ user amount, served r = some (.borrow user amount) →
        Covers n asset threshold high (Delivery.env vault r) v (v.charged (Delivery.clock r).timestamp user).deposited_shares
          ((v.charged (Delivery.clock r).timestamp user).borrowed_amount + amount) r.before.state.rest) ∧
      ∀ liquidator user repay_amount, served r = some (.liquidate liquidator user repay_amount) →
        Strained n asset threshold low (Delivery.env vault r) v (v.charged (Delivery.clock r).timestamp user).deposited_shares
          (v.charged (Delivery.clock r).timestamp user).borrowed_amount r.before.state.rest := by
  intro past outside founded r member v found primary
  have started : Tied adaptor asset threshold low high (Vault.undeployed clock (⟨none,o⟩ : Beside O)) :=
    ⟨Vault.Book.WellFormed.empty _,(by rintro v ⟨⟩),by rintro v ⟨⟩⟩
  have tied := trace_invariant (serve (n.oracleAt adaptor) vault) (Tied adaptor asset threshold low high) calls started
    (fun q inside makes held => held.kept natural within (outside q inside) (founded q inside) makes) r member
  exact tied.called natural within (trace_makes member) found primary

/-! ### A small chain with an adaptor -/

namespace Small
open Vault.Small (admin userA vault borrow_token tokenA config Purse)
open SafeMode.Small (adaptor primary_oracle secondary_oracle)

/-- Contracts that leave the adaptor alone. -/
def beside {O α : Type} (f : O → Option (α × O)) (w : Beside O) : Option (α × Beside O) :=
  (f w.others).map (fun r => (r.1,{ w with others := r.2 }))

def aside {O : Type} (clients : Vault.Clients O) : Vault.Clients (Beside O) where
  balance env id := beside (clients.balance env id)
  transfer env owner recipient amount := beside (clients.transfer env owner recipient amount)
  transfer_from env spender owner recipient amount := beside (clients.transfer_from env spender owner recipient amount)
  assets_for_shares env shares := beside (clients.assets_for_shares env shares)
  shares_for_assets env assets := beside (clients.shares_for_assets env assets)
  lastprice env asset := beside (clients.lastprice env asset)
  decimals env asset := beside (clients.decimals env asset)

section Aside
variable {O : Type} {asset : Address} {threshold : Nat} {low high : Int}

theorem sails_beside {α : Type} {f : O → Option (α × O)} {w w' : Beside O} {x : α}
    (done : beside f w = some (x, w')) : Sails asset threshold low high w w' := by
  obtain ⟨r,_,same⟩ := Option.map_eq_some_iff.mp done
  cases same
  exact .refl

theorem aside_within (clients : Vault.Clients O) : (aside clients).Within (Sails asset threshold low high) where
  balance _ _ _ _ _ done := sails_beside done
  transfer _ _ _ _ _ _ _ done := sails_beside done
  transfer_from _ _ _ _ _ _ _ _ done := sails_beside done
  assets_for_shares _ _ _ _ _ done := sails_beside done
  shares_for_assets _ _ _ _ _ done := sails_beside done
  lastprice _ _ _ _ _ done := sails_beside done
  decimals _ _ _ _ _ done := sails_beside done

end Aside

/-- The primary source tells one, the other one four percent more. -/
def neighbours : Neighbours Purse :=
  ⟨aside Vault.Small.clients,SafeMode.Small.sources 10400000,SafeMode.Small.sources 10400000⟩

/-- Somebody calls the adaptor; a call that fails changes nothing. -/
def called (entry : Oracle.Entry) (w : Beside Purse) : Beside Purse :=
  match Oracle.invoke neighbours.quoted ((Origin.signedBy admin).env ⟨0,0⟩ adaptor) entry ⟨w.adaptor,w.others⟩ with
  | .ok (_, t) => ⟨t.own,t.rest⟩
  | .error _ => w

def callsAdaptor (entry : Oracle.Entry) : Origin × Vault.Action (Beside Purse) := (.signedBy admin,.outside (called entry))

/-- A user borrows on the blend of the two prices. -/
def lending : List (Origin × Vault.Action (Beside Purse)) :=
  [Vault.Small.calls admin (.initialise admin adaptor borrow_token config),
    Vault.Small.calls admin (.add_supported_asset tokenA),
    callsAdaptor (.initialise admin primary_oracle secondary_oracle vault),callsAdaptor (.update_price tokenA),
    Vault.Small.calls userA (.deposit userA tokenA 1000000),Vault.Small.calls userA (.borrow userA 700000)]

abbrev step := serve (neighbours.oracleAt adaptor) vault
abbrev start : Chain (Vault.State (Beside Purse)) := Vault.undeployed ⟨0,0⟩ ⟨none,Vault.Small.purse⟩

/-- What the adaptor holds before a call of the chain. -/
theorem watched : ∀ r ∈ trace step start lending, r.before.state.rest.adaptor.map (fun v =>
    (v.primary_oracle,v.deviation_threshold,(v.twap_state tokenA).map (fun lease => lease.value.num_samples))) ∈
      [none,some (primary_oracle, 500, none),some (primary_oracle, 500, some 1)] := by decide +kernel

/-- An update of the adaptor hears the primary source. -/
theorem sails_called {entry : Oracle.Entry} {w : Beside Purse} (watched : w.adaptor.map (fun v =>
      (v.primary_oracle,v.deviation_threshold,(v.twap_state tokenA).map (fun lease => lease.value.num_samples))) ∈
        [none,some (primary_oracle, 500, none),some (primary_oracle, 500, some 1)]) :
    Sails tokenA 500 10000000 10000000 w (called entry w) := by
  unfold called
  split
  · rename_i event t ran
    refine .single (.call _ _ _ entry event _ t ran ?_)
    rintro rfl
    cases own : w.adaptor with
    | none =>
      rw [own] at ran
      cases ran
    | some v =>
      rw [own] at watched
      simp only [Option.map_some,List.mem_cons,List.not_mem_nil,reduceCtorEq,Option.some.injEq,Prod.mk.injEq,false_or,
        or_false] at watched
      obtain ⟨primary,narrow,counted⟩ : v.primary_oracle = primary_oracle ∧ v.deviation_threshold = 500 ∧
          ∀ lease, v.twap_state tokenA = some lease → lease.value.num_samples < Oracle.u32Max := by
        rcases watched with ⟨primary,narrow,none⟩ | ⟨primary,narrow,one⟩
        · refine ⟨primary,narrow,?_⟩
          intro lease found
          rw [found] at none
          cases none
        · refine ⟨primary,narrow,?_⟩
          intro lease found
          rw [found,Option.map_some,Option.some.injEq] at one
          rw [one]
          decide
      have heard : Oracle.usable neighbours.quoted ((Origin.signedBy admin).env ⟨0,0⟩ adaptor) v.staleness_threshold
          v.primary_oracle tokenA w.others = (some ⟨7,10000000,0⟩, w.others) := by
        rw [primary]
        have kept : (some (⟨7,10000000,0⟩ : Oracle.Quote)).filter (fun q =>
            decide (q.Usable ((Origin.signedBy admin).env ⟨0,0⟩ adaptor) v.staleness_threshold)) = some ⟨7,10000000,0⟩ :=
          Option.filter_eq_some_iff.mpr ⟨rfl,decide_eq_true ⟨by decide,Nat.zero_le _⟩⟩
        exact Prod.ext kept rfl
      refine ⟨Oracle.vouched_of_primary rfl narrow.le rfl heard le_rfl le_rfl,?_⟩
      rintro u lease ⟨⟩
      exact counted lease
  · exact Std.Refl.refl w

theorem lending_outside : ∀ r ∈ trace step start lending, ∀ move, r.input.2 = .outside move →
    Sails tokenA 500 10000000 10000000 r.before.state.rest r.after.state.rest := by
  intro r member move input
  have adaptors : ∃ entry, r.input = callsAdaptor entry := by
    have listed := trace_input member
    simp only [lending,List.mem_cons,List.not_mem_nil,or_false] at listed
    rcases listed with same | same | same | same | same | same
    · rw [same] at input
      cases input
    · rw [same] at input
      cases input
    · exact ⟨_,same⟩
    · exact ⟨_,same⟩
    · rw [same] at input
      cases input
    · rw [same] at input
      cases input
  obtain ⟨entry,same⟩ := adaptors
  cases Vault.turn_of_makes (trace_makes member) with
  | moved move' moved out own rest =>
    rw [same] at moved
    cases moved
    rw [rest]
    exact sails_called (watched r member)
  | called entry' event v v' entered =>
    rw [input] at entered
    cases entered
  | initialised admin oracle token config entered =>
    rw [input] at entered
    cases entered
  | failed e out unmoved =>
    rw [unmoved]
    exact Std.Refl.refl _

end Small

/-- A user borrows 70 percent of its shares' worth. -/
theorem loans_honest_lending : ∃ r ∈ trace Small.step Small.start Small.lending,
    served r = some (.borrow Vault.Small.userA 700000) ∧ ∃ v, r.before.state.own = some v ∧
      Covers Small.neighbours Vault.Small.tokenA 500 10000000 (Delivery.env Vault.Small.vault r) v 1000000 700000
        r.before.state.rest := by
  have founded : ∀ r ∈ trace Small.step Small.start Small.lending, ∀ admin oracle borrow_token config,
      served r = some (.initialise admin oracle borrow_token config) → oracle = SafeMode.Small.adaptor := by
    intro r member admin oracle borrow_token config entered
    have input := (Vault.served_some.mp entered).1
    have listed := trace_input member
    simp only [Small.lending,List.mem_cons,List.not_mem_nil,or_false] at listed
    rcases listed with same | same | same | same | same | same <;> rw [same] at input <;> cases input
    rfl
  have whole : trace Small.step Small.start Small.lending = _ :=
    trace_append Small.start (Small.lending.take 5) (Small.lending.drop 5)
  have last : transition Small.step (run Small.step Small.start (Small.lending.take 5))
      (Vault.Small.calls Vault.Small.userA (.borrow Vault.Small.userA 700000)) ∈
        trace Small.step Small.start Small.lending := by
    rw [whole]
    exact List.mem_append_right _ (List.mem_singleton_self _)
  have ended : (run Small.step Small.start (Small.lending.take 5)).state.own.map (fun v => (v.supported_assets.head?,
      v.charged 30 Vault.Small.userA)) = some (some Vault.Small.tokenA, ⟨1000000,0,30⟩) := by decide +kernel
  obtain ⟨v,found,facts⟩ := Option.map_eq_some_iff.mp ended
  obtain ⟨primary,charged⟩ := Prod.mk.inj facts
  have entered : served (transition Small.step (run Small.step Small.start (Small.lending.take 5))
      (Vault.Small.calls Vault.Small.userA (.borrow Vault.Small.userA 700000))) =
        some (.borrow Vault.Small.userA 700000) := by rfl
  have covers := (loans_honest Small.neighbours Vault.Small.vault SafeMode.Small.adaptor Vault.Small.tokenA 500 10000000
    10000000 (by decide) (Small.aside_within _) ⟨0,0⟩ Vault.Small.purse Small.lending Small.lending_outside founded _ last v
    found primary).1 Vault.Small.userA 700000 entered
  have now : (Delivery.clock (transition Small.step (run Small.step Small.start (Small.lending.take 5))
      (Vault.Small.calls Vault.Small.userA (.borrow Vault.Small.userA 700000)))).timestamp = 30 := by decide +kernel
  rw [now,charged] at covers
  exact ⟨_,last,entered,v,found,covers⟩

end HonestPrices

end Helix
