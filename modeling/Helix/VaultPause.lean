import Helix.VaultSystem

/-!
A paused vault. Whatever calls return while nobody unpauses it, whoever makes
them and whatever tokens and oracle do: no collateral moves, nothing is lent or
liquidated, and only a repayment changes what a user owes (`Serves.frozen`).
-/
namespace Helix.Vault
open Invoke

/-- The vault before and after some calls that returned one after the other. What
    is outside it may change in any way between them. -/
inductive Serves : Option HelixVault → List Entry → Option HelixVault → Prop
  | nothing (v : Option HelixVault) : Serves v [] v
  | call (earlier : List Entry) (entry : Entry) (W : Type) (clients : Clients W) (env : Env)
      (event : Option VaultEvent) (rest rest' : W) (v v' v'' : Option HelixVault) : Serves v earlier v' →
      invoke clients.apart env entry ⟨v',rest⟩ = .ok (event, ⟨v'',rest'⟩) → Serves v (earlier ++ [entry]) v''

theorem Serves.trans {v v' v'' : Option HelixVault} {earlier later : List Entry} (first : Serves v earlier v')
    (second : Serves v' later v'') : Serves v (earlier ++ later) v'' := by
  induction second with
  | nothing => simpa using first
  | call between entry W clients env event rest rest' _ mid last _ ran ih =>
    rw [← List.append_assoc]
    exact .call _ entry W clients env event rest rest' _ mid last (ih first) ran

/-- The calls that end a pause. -/
def Entry.resumes : Entry → Bool
  | .unpause => true
  | .unpause_by _ => true
  | _ => false

/-- The calls that move collateral or lend. -/
def Entry.trades : Entry → Bool
  | .deposit _ _ _ => true
  | .withdraw _ _ _ => true
  | .borrow _ _ => true
  | .liquidate _ _ _ => true
  | _ => false

/-- The repayments of a user's debt. -/
def Entry.repays (user : Address) : Entry → Bool
  | .repay debtor _ => decide (debtor = user)
  | _ => false

/-- A vault that has been paused through some calls: none of them traded, no
    collateral moved, and who was not repaid for owes what it did. -/
structure Frozen (v : HelixVault) (calls : List Entry) (v' : HelixVault) : Prop where
  paused : v'.paused = true
  idle : ∀ entry ∈ calls, entry.trades = false
  deposits : v'.total_deposits = v.total_deposits
  shares : ∀ user, v'.book.shares user = v.book.shares user
  debts : ∀ user, (∀ entry ∈ calls, entry.repays user = false) → v'.book.debt user = v.book.debt user

namespace Frozen
variable {v v' v'' : HelixVault}

theorem refl (paused : v.paused = true) : Frozen v [] v :=
  ⟨paused,by simp,rfl,fun _ => rfl,fun _ _ => rfl⟩

theorem trans {earlier later : List Entry} (first : Frozen v earlier v') (second : Frozen v' later v'') :
    Frozen v (earlier ++ later) v'' where
  paused := second.paused
  idle := List.forall_mem_append.mpr ⟨first.idle,second.idle⟩
  deposits := second.deposits.trans first.deposits
  shares user := (second.shares user).trans (first.shares user)
  debts user unpaid := by
    obtain ⟨unpaid_first,unpaid_second⟩ := List.forall_mem_append.mp unpaid
    exact (second.debts user unpaid_second).trans (first.debts user unpaid_first)

/-- A call that leaves the book and the pause alone. -/
theorem of_same {entry : Entry} (paused : v'.paused = true) (idle : entry.trades = false) (book : v'.book = v.book) :
    Frozen v [entry] v' where
  paused := paused
  idle := List.forall_mem_singleton.mpr idle
  deposits := congrArg Book.total_deposits book
  shares user := by rw [book]
  debts user _ := by rw [book]

end Frozen

section Calls
variable {W : Type} {clients : Clients W} {env : Env} {s s' : World HelixVault W} {entry : Entry}
  {event : Option VaultEvent}

/-- A repayment moves no collateral and the debt of its own user only. -/
theorem frozen_of_repays {user : Address} {amount actual : Int} {p : Position} {w : W}
    (repays : Repays clients env s user amount actual p w) (paused : s.own.paused = true) :
    Frozen s.own [.repay user amount] (s.own.settled user p 0 (-actual)) := by
  have left : s.own.book.left env.timestamp (s.own.interestOn env.timestamp user) ⟨user,0,-actual⟩ = p :=
    HelixVault.left_eq (by rw [repays.position,add_zero]) (by rw [repays.position]; rfl) (by rw [repays.position]; rfl)
  have book := HelixVault.settled_book left
  refine ⟨paused,List.forall_mem_singleton.mpr rfl,add_zero _,?_,?_⟩
  · intro other
    rw [book,Book.post_shares]
    simp
  · intro other unpaid
    have different : ¬ user = other := by simpa [Entry.repays] using unpaid
    rw [book,Book.post_debt,if_neg (fun same => different same.symm),add_zero]

/-- A successful call to a paused vault that does not unpause it. -/
theorem frozen_of_effect (effect : Effect clients env s entry event s') (paused : s.own.paused = true)
    (held : entry.resumes = false) : Frozen s.own [entry] s'.own := by
  have open_for : s.own.paused ≠ false := by simp [paused]
  cases effect with
  | deposit user token amount p w deposits => exact absurd deposits.unpaused open_for
  | withdraw user token amount p w withdraws => exact absurd withdraws.unpaused open_for
  | borrow user amount factor p w borrows => exact absurd borrows.unpaused open_for
  | liquidate liquidator user repay_amount actual bonus seized p w liquidates => exact absurd liquidates.unpaused open_for
  | repay user amount actual p w repays => exact frozen_of_repays repays paused
  | configured entry event v configured =>
    have same := configured.idle.2.2.1
    cases configured with
    | unpause => cases held
    | unpause_by => cases held
    | pause => exact .of_same rfl rfl same
    | pause_by => exact .of_same rfl rfl same
    | _ => exact .of_same paused rfl same

end Calls

/-- Through calls that do not unpause it a paused vault is frozen. -/
theorem Serves.frozen {before after : Option HelixVault} {calls : List Entry} (serves : Serves before calls after)
    {v : HelixVault} (own : before = some v) (paused : v.paused = true) (held : ∀ entry ∈ calls, entry.resumes = false) :
    ∃ v', after = some v' ∧ Frozen v calls v' := by
  induction serves with
  | nothing => exact ⟨v,own,.refl paused⟩
  | call earlier entry W clients env event rest rest' _ mid last _ ran ih =>
    obtain ⟨held_earlier,held_last⟩ := List.forall_mem_append.mp held
    obtain ⟨v',found,frozen⟩ := ih own held_earlier
    rcases invoke_cases ran with ⟨v₁,v'',found',left,effect⟩ | ⟨missing,_⟩
    · rw [found] at found'
      cases found'
      have kept := frozen_of_effect effect frozen.paused (held_last entry (List.mem_singleton_self entry))
      exact ⟨v'',left,frozen.trans kept⟩
    · rw [found] at missing
      cases missing

end Helix.Vault
