import Helix.TokenCustody

/-!
Who may take shares from an owner. What is left of an allowance is what its owner
approved less what its spender has taken since (`remaining_spent`), so a spender
takes no more than that and nothing after the last ledger; and every share that
leaves an owner leaves by the owner's own call, under an allowance, or by the
vault or the bridge (`Effect.taken`).
-/
namespace Helix.Token
open Invoke

/-- What a call takes from an owner under the allowance of a spender. -/
def Entry.spends (owner spender : Address) : Entry → Int
  | .transfer_from caller paid _ amount => if owner = paid ∧ spender = caller then amount else 0
  | .burn_from caller paid amount => if owner = paid ∧ spender = caller then amount else 0
  | _ => 0

/-- What a delivered call takes from an owner under the allowance of a spender:
    a call that fails takes nothing. -/
def taken (owner spender : Address) (r : Delivery (Option HelixToken) TokenError Entry Unit) : Int :=
  match r.output with
  | .ok _ => r.input.2.spends owner spender
  | .error _ => 0

/-- Why shares leave an owner. -/
inductive Taking (env : Env) (t : HelixToken) (owner : Address) (amount : Int) : Entry → Prop
  | transfer (recipient : Address) : env.Authorised owner → Taking env t owner amount (.transfer owner recipient amount)
  | burn : env.Authorised owner → Taking env t owner amount (.burn owner amount)
  | transfer_from (spender recipient : Address) (allowance : AllowanceData) : env.Authorised spender →
      t.Covers env owner spender amount allowance → Taking env t owner amount (.transfer_from spender owner recipient amount)
  | burn_from (spender : Address) (allowance : AllowanceData) : env.Authorised spender →
      t.Covers env owner spender amount allowance → Taking env t owner amount (.burn_from spender owner amount)
  | vault_burn : env.Authorised t.vault_contract → Taking env t owner amount (.vault_burn owner amount)
  | bridge_burn : env.Authorised t.bridge_handler → Taking env t owner amount (.bridge_burn owner amount)

namespace HelixToken

/-- What is left of an allowance, expired or not. -/
def remaining (t : HelixToken) (owner spender : Address) : Int :=
  ((t.allowances owner spender).map (fun lease => lease.value.amount)).getD 0

variable {t u : HelixToken} {env : Env} {owner spender payer caller : Address}

theorem remaining_approved (amount : Int) (expiration : Nat) :
    (t.approved env payer caller amount expiration).remaining owner spender =
      if owner = payer ∧ spender = caller then amount else t.remaining owner spender := by
  unfold remaining approved withAllowance
  by_cases same : owner = payer ∧ spender = caller
  · by_cases zero : amount = 0
    · simp [same,zero]
    · simp [same,zero,allowance_entry]
  · simp [same]

theorem Covers.remaining {amount : Int} {allowance : AllowanceData} (covers : t.Covers env owner spender amount allowance) :
    t.remaining owner spender = allowance.amount := by
  obtain ⟨lease,found,value,_⟩ := Lease.read_some covers.stored
  simp [HelixToken.remaining,found,value]

/-- Spending from an allowance lowers what is left of it by the amount spent. -/
theorem Spent.remaining {amount : Int} (spent : t.Spent env payer caller amount u) :
    u.remaining owner spender =
      t.remaining owner spender - if owner = payer ∧ spender = caller then amount else 0 := by
  cases spent with
  | nothing zero =>
    subst zero
    simp
  | part allowance some covers =>
    rw [remaining_approved]
    by_cases same : owner = payer ∧ spender = caller
    · obtain ⟨rfl,rfl⟩ := same
      simp [covers.remaining]
    · simp [same]

end HelixToken

/-- What an approval leaves and only another one takes away: the rest of the
    allowance, with its last ledger. -/
structure Granted (owner spender : Address) (last : Nat) (t : HelixToken) : Prop where
  nonneg : 0 ≤ t.remaining owner spender
  ends : ∀ lease, t.allowances owner spender = some lease → lease.value.expiration_ledger = last

namespace Granted
variable {t u : HelixToken} {env : Env} {owner spender : Address} {last : Nat} {entry : Entry}

theorem congr (granted : Granted owner spender last t) (same : u.allowances = t.allowances) :
    Granted owner spender last u := by
  refine ⟨?_,?_⟩
  · simpa [HelixToken.remaining,same] using granted.nonneg
  · rw [same]
    exact granted.ends

/-- An approval of the pair grants what it says. -/
theorem approval {amount : Int} (nonneg : 0 ≤ amount) :
    Granted owner spender last (t.approved env owner spender amount last) := by
  refine ⟨?_,?_⟩
  · simpa [HelixToken.remaining_approved] using nonneg
  · intro lease found
    by_cases zero : amount = 0
    · simp [HelixToken.approved,HelixToken.withAllowance,zero] at found
    · simp only [HelixToken.approved,HelixToken.withAllowance,zero,and_self,↓reduceIte,Option.some.injEq] at found
      rw [← found]
      simp [HelixToken.allowance_entry]

/-- An approval of another pair leaves the grant alone. -/
theorem other {payer caller : Address} {amount : Int} {expiration : Nat} (granted : Granted owner spender last t)
    (different : ¬ (owner = payer ∧ spender = caller)) :
    Granted owner spender last (t.approved env payer caller amount expiration) := by
  refine ⟨?_,?_⟩
  · simpa [HelixToken.remaining_approved,different] using granted.nonneg
  · simpa [HelixToken.approved,HelixToken.withAllowance,different] using granted.ends

/-- Spending keeps a grant, and happens before its end. -/
theorem spent {payer caller : Address} {amount : Int} (granted : Granted owner spender last t)
    (spent : t.Spent env payer caller amount u) :
    Granted owner spender last u ∧
      (0 < (if owner = payer ∧ spender = caller then amount else 0) → env.sequence ≤ last) := by
  cases spent with
  | nothing zero =>
    subst zero
    exact ⟨granted,by simp⟩
  | part allowance some covers =>
    by_cases same : owner = payer ∧ spender = caller
    · obtain ⟨rfl,rfl⟩ := same
      obtain ⟨lease,found,value,_⟩ := Lease.read_some covers.stored
      have ends : allowance.expiration_ledger = last := by
        rw [← value]
        exact granted.ends lease found
      refine ⟨?_,?_⟩
      · rw [ends]
        exact approval (by have := covers.enough; omega)
      · intro _
        rw [← ends]
        exact covers.current
    · exact ⟨granted.other same,by simp [same]⟩

/-- What one call does to a grant, another approval of the pair apart. -/
theorem effect (granted : Granted owner spender last t) (effect : Effect env t entry u)
    (kept : ∀ amount expiration, entry ≠ .approve owner spender amount expiration) :
    Granted owner spender last u ∧
      u.remaining owner spender = t.remaining owner spender - entry.spends owner spender ∧
      (0 < entry.spends owner spender → env.sequence ≤ last) := by
  cases effect with
  | approve payer caller amount expiration _ _ _ =>
    have different : ¬ (owner = payer ∧ spender = caller) := by
      rintro ⟨rfl,rfl⟩
      exact kept amount expiration rfl
    refine ⟨granted.other different,?_,?_⟩
    · rw [HelixToken.remaining_approved,if_neg different]
      simp [Entry.spends]
    · simp [Entry.spends]
  | transfer_from caller payer recipient amount v _ _ spent _ =>
    obtain ⟨left,current⟩ := granted.spent spent
    refine ⟨left.congr rfl,?_,current⟩
    show v.remaining owner spender = _
    rw [spent.remaining]
    rfl
  | burn_from caller payer amount v _ _ spent _ =>
    obtain ⟨left,current⟩ := granted.spent spent
    refine ⟨left.congr rfl,?_,current⟩
    show v.remaining owner spender = _
    rw [spent.remaining]
    rfl
  | _ =>
    refine ⟨granted.congr rfl,?_,by simp [Entry.spends]⟩
    simp only [Entry.spends,sub_zero]
    rfl

/-- What one delivered call does to a grant. -/
theorem delivered {self : Address} {r : Delivery (Option HelixToken) TokenError Entry Unit}
    (makes : Makes (deliver self invoke) r) {t : HelixToken} (found : r.before.state = some t)
    (granted : Granted owner spender last t)
    (kept : r.output = .ok () → ∀ amount expiration, r.input.2 ≠ .approve owner spender amount expiration) :
    ∃ u, r.after.state = some u ∧ Granted owner spender last u ∧
      u.remaining owner spender = t.remaining owner spender - taken owner spender r ∧
      (0 < taken owner spender r → r.clock.sequence ≤ last) := by
  rcases Delivery.cases makes with ⟨_,out,ran⟩ | ⟨e,out,same⟩
  · obtain ⟨u,after,effect⟩ := effect_of_invoke found ran
    obtain ⟨left,rest,current⟩ := granted.effect effect (kept out)
    have spends : taken owner spender r = r.input.2.spends owner spender := by simp [taken,out]
    rw [spends]
    exact ⟨u,after,left,rest,current⟩
  · exact ⟨t,same.trans found,granted,by simp [taken,out],by simp [taken,out]⟩

end Granted

/-- While no other approval of the pair returns, what is left of an allowance is
    what was left at first less everything taken since, and nothing is taken
    after its last ledger. -/
theorem remaining_spent {self : Address} {owner spender : Address} {last : Nat} {s : Chain (Option HelixToken)}
    {t : HelixToken} (found : s.state = some t) (granted : Granted owner spender last t)
    (calls : List (Origin × Entry))
    (kept : ∀ r ∈ trace (deliver self invoke) s calls, r.output = .ok () →
      ∀ amount expiration, r.input.2 ≠ .approve owner spender amount expiration) :
    (∃ u, (run (deliver self invoke) s calls).state = some u ∧ Granted owner spender last u ∧
      u.remaining owner spender =
        t.remaining owner spender - ((trace (deliver self invoke) s calls).map (taken owner spender)).sum) ∧
      ∀ r ∈ trace (deliver self invoke) s calls, 0 < taken owner spender r → (Delivery.clock r).sequence ≤ last := by
  apply run_history (deliver self invoke)
    (fun past c => (∃ u, c.state = some u ∧ Granted owner spender last u ∧
      u.remaining owner spender = t.remaining owner spender - (past.map (taken owner spender)).sum) ∧
      ∀ r ∈ past, 0 < taken owner spender r → (Delivery.clock r).sequence ≤ last) calls
  · exact ⟨⟨t,found,granted,by simp⟩,by simp⟩
  · rintro past r member makes ⟨⟨u,before,held,left⟩,earlier⟩
    obtain ⟨v,after,held',left',current⟩ := held.delivered makes before (kept r member)
    refine ⟨⟨v,after,held',?_⟩,?_⟩
    · rw [left',left,List.map_append,List.sum_append]
      simp
      omega
    · exact List.forall_mem_append.mpr ⟨earlier,List.forall_mem_singleton.mpr current⟩

/-! ### Where shares go -/

/-- A call that lowers a balance takes the difference, with the right to. -/
theorem Effect.taken {env : Env} {t u : HelixToken} {entry : Entry} (effect : Effect env t entry u) {owner : Address}
    (less : u.balance owner < t.balance owner) : Taking env t owner (t.balance owner - u.balance owner) entry := by
  cases effect with
  | vault_mint recipient shares nonneg _ _ =>
    rw [balance_minted] at less
    split at less <;> omega
  | bridge_mint recipient shares nonneg _ _ =>
    rw [balance_minted] at less
    split at less <;> omega
  | vault_burn paid shares nonneg authorised _ =>
    rw [balance_burned] at less ⊢
    by_cases own : owner = paid
    · subst own
      simpa using Taking.vault_burn authorised
    · simp [own] at less
  | bridge_burn paid shares nonneg authorised _ =>
    rw [balance_burned] at less ⊢
    by_cases own : owner = paid
    · subst own
      simpa using Taking.bridge_burn authorised
    · simp [own] at less
  | update_exchange_rate assets _ _ => exact absurd less (lt_irrefl _)
  | set_admin new_admin _ => exact absurd less (lt_irrefl _)
  | approve payer caller amount expiration _ _ _ => exact absurd less (lt_irrefl _)
  | transfer paid recipient amount nonneg authorised _ =>
    rw [balance_moved] at less ⊢
    by_cases own : owner = paid
    · subst own
      by_cases back : owner = recipient
      · simp [back] at less
      · simpa [back] using Taking.transfer recipient authorised
    · simp only [own,↓reduceIte,sub_zero] at less
      split at less <;> omega
  | transfer_from spender paid recipient amount v nonneg authorised spent _ =>
    rw [balance_moved,spent.balance] at less ⊢
    by_cases own : owner = paid
    · subst own
      by_cases back : owner = recipient
      · simp [back] at less
      · cases spent with
        | nothing zero =>
          subst zero
          simp at less
        | part allowance _ covers => simpa [back] using Taking.transfer_from spender recipient allowance authorised covers
    · simp only [own,↓reduceIte,sub_zero] at less
      split at less <;> omega
  | burn paid amount nonneg authorised _ =>
    rw [balance_redeemed] at less ⊢
    by_cases own : owner = paid
    · subst own
      simpa using Taking.burn authorised
    · simp [own] at less
  | burn_from spender paid amount v nonneg authorised spent _ =>
    rw [balance_redeemed,spent.balance] at less ⊢
    by_cases own : owner = paid
    · subst own
      cases spent with
      | nothing zero =>
        subst zero
        simp at less
      | part allowance _ covers => simpa using Taking.burn_from spender allowance authorised covers
    · simp [own] at less

/-- What an address holds in a token that may not be initialized yet. -/
def held (s : Option HelixToken) (a : Address) : Int := (s.map (fun t => t.balance a)).getD 0

/-- A delivered call that lowers a balance returned, and took the difference. -/
theorem taken_of_makes {self : Address} {r : Delivery (Option HelixToken) TokenError Entry Unit}
    (makes : Makes (deliver self invoke) r) {owner : Address}
    (less : held r.after.state owner < held r.before.state owner) :
    r.output = .ok () ∧ ∃ t, r.before.state = some t ∧
      Taking (r.env self) t owner (held r.before.state owner - held r.after.state owner) r.input.2 := by
  rcases Delivery.cases makes with ⟨_,out,ran⟩ | ⟨e,out,same⟩
  · rcases invoke_cases ran with ⟨t,u,before,after,effect⟩ | ⟨missing,admin,vault,bridge,_,made⟩
    · rw [before,after] at less ⊢
      exact ⟨out,t,rfl,effect.taken less⟩
    · rw [missing,made] at less
      simp [held,fresh,HelixToken.balance] at less
  · rw [same] at less
    exact absurd less (lt_irrefl _)

/-- In every run, from an approval until the next one of the same pair returns,
    the spender takes no more from the owner than was approved and nothing after
    the last ledger; and every balance that falls falls by a transfer or burn its
    owner authorised, under an allowance that covers it, or by a burn the vault
    or the bridge authorised. -/
theorem spending_authority (self : Address) (clock : Clock) :
    (∀ (earlier : List (Origin × Entry)) (origin : Origin) (owner spender : Address) (amount : Int) (last : Nat)
        (during : List (Origin × Entry)),
      let approval := transition (deliver self invoke) (run (deliver self invoke) ⟨clock,none⟩ earlier)
        (origin, .approve owner spender amount last)
      let spending := trace (deliver self invoke) approval.after during
      approval.output = .ok () →
      (∀ r ∈ spending, r.output = .ok () → ∀ x n, r.input.2 ≠ .approve owner spender x n) →
        (spending.map (taken owner spender)).sum ≤ amount ∧
          ∀ r ∈ spending, 0 < taken owner spender r → (Delivery.clock r).sequence ≤ last) ∧
      (∀ calls : List (Origin × Entry), ∀ r ∈ trace (deliver self invoke) ⟨clock,none⟩ calls, ∀ owner : Address,
        held r.after.state owner < held r.before.state owner →
          r.output = .ok () ∧ ∃ t, r.before.state = some t ∧
            Taking (Delivery.env self r) t owner (held r.before.state owner - held r.after.state owner) r.input.2) := by
  refine ⟨?_,?_⟩
  · intro earlier origin owner spender amount last during approval spending approved kept
    have makes : Makes (deliver self invoke) approval := transition_makes _ _
    rcases invoke_cases (Delivery.returned makes approved) with ⟨t,u,_,after,effect⟩ | ⟨_,_,_,_,entry,_⟩
    · cases effect with
      | approve _ _ _ _ nonneg _ _ =>
        obtain ⟨⟨v,_,granted,left⟩,current⟩ := remaining_spent after (.approval nonneg) during kept
        refine ⟨?_,current⟩
        have rest := granted.nonneg
        rw [left,HelixToken.remaining_approved,if_pos ⟨rfl,rfl⟩] at rest
        exact sub_nonneg.mp rest
    · cases entry
  · intro calls r member owner less
    exact taken_of_makes (trace_makes member) less

/-- A token with shares, and an allowance of 5 until ledger 40 that its spender
    uses four times. -/
def shortGrant (bridge owner spender : Address) : List (Origin × Entry) × List (Origin × Entry) :=
  ([(.signedBy bridge,.initialise bridge bridge bridge),(.signedBy bridge,.bridge_mint owner 10)],
    [(.signedBy spender,.transfer_from spender owner owner 2),(.signedBy spender,.transfer_from spender owner spender 4),
      (.signedBy spender,.burn_from spender owner 3),(.signedBy spender,.transfer_from spender owner spender 0)])

theorem spending_authority_shortGrant :
    let bridge := Address.account (BytesN.fill 32 0)
    let owner := Address.account (BytesN.fill 32 1)
    let spender := Address.account (BytesN.fill 32 2)
    let grant := shortGrant bridge owner spender
    let approval := transition (deliver bridge invoke) (run (deliver bridge invoke) ⟨⟨0,0⟩,none⟩ grant.1)
      (.signedBy owner, .approve owner spender 5 40)
    let spending := trace (deliver bridge invoke) approval.after grant.2
    (spending.map (taken owner spender)) = [2,0,3,0] ∧ (spending.map (taken owner spender)).sum ≤ 5 := by
  intro bridge owner spender grant approval spending
  refine ⟨by decide +kernel,?_⟩
  have bounded := (spending_authority bridge ⟨0,0⟩).1 grant.1 (.signedBy owner) owner spender 5 40 grant.2
    (by decide +kernel) ?_
  · exact bounded.1
  · intro r member _ x n same
    have listed := trace_input member
    simp only [grant,shortGrant,List.mem_cons,List.not_mem_nil,or_false] at listed
    rcases listed with found | found | found | found <;> rw [found] at same <;> cases same

end Helix.Token
