import Helix.TokenAuthority
import Helix.TokenConversions

/-!
How long an allowance lives. An approval names its last ledger, but its temporary
entry is extended by a fixed number of ledgers, and only when few remain: the
allowance can be read until its last ledger exactly if the entry lives that long
(`allowance_lives_iff`).
-/
namespace Helix.Token
open Invoke

/-- The last ledger of the entry of an allowance that is written: that of the live
    entry it is written over, or that of a new one, if enough ledgers remain, and
    else a fixed number of ledgers from now. -/
def HelixToken.lives_until (t : HelixToken) (env : Env) (owner spender : Address) : Nat :=
  let before := match t.allowances owner spender with
    | some lease => if env.sequence ≤ lease.live_until then lease.live_until else env.sequence + env.min_temp_entry_ttl - 1
    | none => env.sequence + env.min_temp_entry_ttl - 1
  if before - env.sequence < TTL_THRESHOLD then env.sequence + TTL_BUMP else before

theorem allowance_entry_lives {t : HelixToken} {env : Env} {owner spender : Address} {allowance : AllowanceData} :
    (t.allowance_entry env owner spender allowance).live_until = t.lives_until env owner spender := by
  unfold HelixToken.allowance_entry HelixToken.lives_until Lease.set Lease.extend_ttl
  cases t.allowances owner spender with
  | none =>
    dsimp only
    split <;> rfl
  | some lease =>
    by_cases live : env.sequence ≤ lease.live_until
    · simp only [if_pos live]
      split <;> rfl
    · simp only [if_neg live]
      split <;> rfl

@[simp] theorem allowance_entry_value {t : HelixToken} {env : Env} {owner spender : Address} {allowance : AllowanceData} :
    (t.allowance_entry env owner spender allowance).value = allowance := by
  simp [HelixToken.allowance_entry]

/-- The allowance that a token with some entry tells at a ledger. -/
theorem allowance_amount_entry {t : HelixToken} {env : Env} {owner spender : Address} {lease : Lease AllowanceData}
    (entry : t.allowances owner spender = some lease) : allowance_amount env t owner spender =
      if env.sequence ≤ lease.live_until ∧ env.sequence ≤ lease.value.expiration_ledger then lease.value.amount else 0 := by
  unfold allowance_amount HelixToken.stored_allowance Lease.read
  rw [entry]
  by_cases live : env.sequence ≤ lease.live_until
  · by_cases current : env.sequence ≤ lease.value.expiration_ledger
    · simp [live,current,allowance_expired,not_lt.mpr current]
    · simp [live,current,allowance_expired,not_le.mp current]
  · simp [live]

/-! ### Calls that leave an allowance alone -/

/-- A delivered call that neither approves for a pair nor spends of its allowance. -/
def Leaves (owner spender : Address) (r : Delivery (Option HelixToken) TokenError Entry Unit) : Prop :=
  (r.output = .ok () → ∀ amount expiration, r.input.2 ≠ .approve owner spender amount expiration) ∧
    taken owner spender r = 0

section Frames
variable {t u : HelixToken} {env : Env} {owner spender payer caller : Address} {amount : Int}

theorem approved_other {expiration : Nat} (different : ¬ (owner = payer ∧ spender = caller)) :
    (t.approved env payer caller amount expiration).allowances owner spender = t.allowances owner spender := by
  simp [HelixToken.approved,HelixToken.withAllowance,different]

/-- Spending nothing, or of another pair, leaves the entry. -/
theorem HelixToken.Spent.leaves (spent : t.Spent env payer caller amount u)
    (none : (if owner = payer ∧ spender = caller then amount else 0) = 0) :
    u.allowances owner spender = t.allowances owner spender := by
  cases spent with
  | nothing => rfl
  | part allowance some _ =>
    apply approved_other
    intro same
    rw [if_pos same] at none
    exact some none

theorem Effect.leaves {entry : Entry} (effect : Effect env t entry u)
    (kept : ∀ x n, entry ≠ .approve owner spender x n) (none : entry.spends owner spender = 0) :
    u.allowances owner spender = t.allowances owner spender := by
  cases effect with
  | approve payer caller amount expiration _ _ _ =>
    apply approved_other
    rintro ⟨rfl,rfl⟩
    exact kept amount expiration rfl
  | transfer_from caller payer recipient amount v _ _ spent _ => exact spent.leaves none
  | burn_from caller payer amount v _ _ spent _ => exact spent.leaves none
  | _ => rfl

/-- A delivered call leaves the entry, if it leaves the allowance alone. -/
theorem leaves_of_makes {self : Address} {r : Delivery (Option HelixToken) TokenError Entry Unit}
    (makes : Makes (deliver self invoke) r) (found : r.before.state = some t) (leaves : Leaves owner spender r) :
    ∃ u, r.after.state = some u ∧ u.allowances owner spender = t.allowances owner spender := by
  obtain ⟨kept,none⟩ := leaves
  rcases Delivery.cases makes with ⟨_,out,ran⟩ | ⟨e,out,same⟩
  · obtain ⟨u,after,effect⟩ := effect_of_invoke found ran
    refine ⟨u,after,effect.leaves (kept out) ?_⟩
    simpa [taken,out] using none
  · exact ⟨t,same.trans found,rfl⟩

theorem run_leaves {self : Address} {s : Chain (Option HelixToken)} (found : s.state = some t)
    (calls : List (Origin × Entry)) (leave : ∀ r ∈ trace (deliver self invoke) s calls, Leaves owner spender r) :
    ∃ u, (run (deliver self invoke) s calls).state = some u ∧ u.allowances owner spender = t.allowances owner spender := by
  apply run_invariant (deliver self invoke)
    (fun c => ∃ u, c.state = some u ∧ u.allowances owner spender = t.allowances owner spender) calls ⟨t,found,rfl⟩
  rintro r member makes ⟨u,before,same⟩
  obtain ⟨v,after,same'⟩ := leaves_of_makes makes before (leave r member)
  exact ⟨v,after,same'.trans same⟩

end Frames

/-- So many ledgers later. -/
def waiting (ledgers : Nat) : Origin := ⟨ledgers,0,0,none,fun _ => false⟩

/-- In every run, for every successful approval of some amount: the allowance is
    that amount in every state and at every ledger up to its last one, as long as
    no other approval of the pair returns and none of it is spent, exactly if the
    entry that the approval writes lives until the last ledger. -/
theorem allowance_lives_iff (self : Address) (clock : Clock) (calls : List (Origin × Entry)) (origin : Origin)
    (owner spender : Address) (amount : Int) (positive : 0 < amount) (last : Nat) (t : HelixToken) :
    let r : Delivery (Option HelixToken) TokenError Entry Unit := transition (deliver self invoke)
      (run (deliver self invoke) ⟨clock,none⟩ calls) (origin,.approve owner spender amount last)
    r.output = .ok () → r.before.state = some t →
    ((∀ (later : List (Origin × Entry)) (reader : Origin),
        (∀ q ∈ trace (deliver self invoke) r.after later, Leaves owner spender q) →
        let c := run (deliver self invoke) r.after later
        let env := reader.env (c.clock.advance reader) self
        env.sequence ≤ last → ∃ u, c.state = some u ∧ allowance_amount env u owner spender = amount) ↔
      last ≤ t.lives_until (r.env self) owner spender) := by
  intro r out found
  have makes : Makes (deliver self invoke) r := transition_makes _ _
  obtain ⟨u,after,current,entry⟩ : ∃ u, r.after.state = some u ∧ (r.env self).sequence ≤ last ∧
      u.allowances owner spender = some (t.allowance_entry (r.env self) owner spender ⟨amount,last⟩) := by
    rcases invoke_cases (Delivery.returned makes out) with ⟨t',u,before,after,effect⟩ | ⟨_,_,_,_,entry,_⟩
    · rw [found] at before
      cases before
      cases effect with
      | approve _ _ _ _ _ _ current =>
        exact ⟨_,after,current positive.ne',by simp [HelixToken.approved,HelixToken.withAllowance,positive.ne']⟩
    · cases entry
  constructor
  · intro tells
    -- Nothing happens until the last ledger, where the allowance is read.
    have reaches : r.after.clock.sequence + (last - (r.env self).sequence) = last := by
      rw [Delivery.after_clock makes]
      exact Nat.add_sub_of_le current
    obtain ⟨u',after',told⟩ := tells [] (waiting (last - (r.env self).sequence)) (by simp [trace]) reaches.le
    have same : u = u' := Option.some.inj (after.symm.trans after')
    subst same
    rw [allowance_amount_entry entry,allowance_entry_lives] at told
    by_contra dead
    have unread : ¬ (r.after.clock.sequence + (last - (r.env self).sequence) ≤ t.lives_until (r.env self) owner spender) := by
      rw [reaches]
      exact dead
    rw [if_neg (fun both => unread both.1)] at told
    omega
  · intro lives later reader leave c env early
    obtain ⟨v,left,same⟩ := run_leaves after later leave
    refine ⟨v,left,?_⟩
    rw [allowance_amount_entry (same.trans entry),allowance_entry_lives,allowance_entry_value]
    exact if_pos ⟨early.trans lives,early⟩

namespace Small

/-- A token and an approval of five, until some ledger, after two others. -/
def approving (last : Nat) : Delivery (Option HelixToken) TokenError Entry Unit :=
  transition (deliver admin invoke) (run (deliver admin invoke) ⟨⟨0,0⟩,none⟩
    [(.signedBy admin,.initialise admin admin bridge),(.signedBy bridge,.bridge_mint userA 10)])
    (.signedBy userA,.approve userA userB 5 last)

end Small

/-- An approval at ledger 3, for as many ledgers as its entry is extended by. -/
theorem allowance_lives_bump :
    ∃ u, (Small.approving 518403).after.state = some u ∧
      allowance_amount ((waiting 518400).env ((Small.approving 518403).after.clock.advance (waiting 518400)) Small.admin) u
        Small.userA Small.userB = 5 := by
  have reached : (Small.approving 518403).before.state.isSome = true := by decide +kernel
  obtain ⟨t,found⟩ := Option.isSome_iff_exists.mp reached
  have lives : (Small.approving 518403).before.state.map (fun t =>
      t.lives_until ((Small.approving 518403).env Small.admin) Small.userA Small.userB) = some 518403 := by decide +kernel
  rw [found] at lives
  exact (allowance_lives_iff Small.admin ⟨0,0⟩ _ (.signedBy Small.userA) Small.userA Small.userB 5 (by decide) 518403 t
    (by decide +kernel) found).mpr (Option.some.inj lives).ge [] (waiting 518400) (by simp [trace]) (by decide +kernel)

/-- An approval for a million ledgers is gone after half of them. -/
theorem allowance_gone_early :
    (Small.approving 1000000).output = .ok () ∧
      (Small.approving 1000000).after.state.map (fun u =>
        allowance_amount ((waiting 518401).env ((Small.approving 1000000).after.clock.advance (waiting 518401)) Small.admin)
          u Small.userA Small.userB) = some 0 ∧
      ((Small.approving 1000000).after.clock.advance (waiting 518401)).sequence = 518404 := by
  decide +kernel

end Helix.Token
