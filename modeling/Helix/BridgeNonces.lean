import Helix.BridgeFlow

/-!
The nonces of withdrawals. A nonce is the ledger beside the lower 64 bits of what
the epoch had burned before, where more than 64 bits count as all ones. Two
withdrawals of one ledger are told apart by that counter only: as long as it has
not reached its 64 bits, and as long as no change of the epoch duration makes
the second one read another counter (`nonces_distinct_iff`, `nonce_repeated`).
-/
namespace Helix.Bridge
open Invoke

/-- The largest number of 64 bits. -/
def u64Max : Nat := 2 ^ 64 - 1

/-- What a nonce shows of a counter. -/
def shownBurns (current_burns : Int) : Nat := min (max current_burns 0).toNat u64Max

/-- A nonce is two numbers side by side. -/
theorem withdrawal_nonce_eq (env : Env) (current_burns : Int) :
    withdrawal_nonce env current_burns = env.sequence * 2 ^ 64 + shownBurns current_burns := by
  have small : shownBurns current_burns < 2 ^ 64 := by
    have bound : shownBurns current_burns ≤ u64Max := Nat.min_le_right _ _
    exact Nat.lt_of_le_of_lt bound (by decide)
  rw [← Nat.shiftLeft_eq,Nat.shiftLeft_add_eq_or_of_lt small]
  rfl

/-- Nonces of 32-bit ledgers are equal exactly when both of their parts are. -/
theorem nonce_word_inj {env other : Env} {burns more : Int} (ledger : env.sequence < 2 ^ 32)
    (ledger' : other.sequence < 2 ^ 32) :
    (BitVec.ofNat 256 (withdrawal_nonce env burns) = BitVec.ofNat 256 (withdrawal_nonce other more)) ↔
      env.sequence = other.sequence ∧ shownBurns burns = shownBurns more := by
  have shown : ∀ b, shownBurns b < 2 ^ 64 := by
    intro b
    have bound : shownBurns b ≤ u64Max := Nat.min_le_right _ _
    exact Nat.lt_of_le_of_lt bound (by decide)
  have first := shown burns
  have second := shown more
  rw [withdrawal_nonce_eq,withdrawal_nonce_eq,← BitVec.toNat_inj,BitVec.toNat_ofNat,BitVec.toNat_ofNat]
  generalize shownBurns burns = low at first ⊢
  generalize shownBurns more = low' at second ⊢
  omega

/-- A counter that grows looks different as long as it has not reached its 64 bits. -/
theorem shownBurns_grown {burns more : Int} (nonneg : 0 ≤ burns) (grown : burns < more) :
    shownBurns burns ≠ shownBurns more ↔ burns < u64Max := by
  unfold shownBurns
  rw [max_eq_left nonneg,max_eq_left (nonneg.trans grown.le)]
  omega

section Nonces
variable {O : Type} (prim : Primitives)

/-- The payloads a transition put on the wire. -/
def sentPayloads (r : Turned O) : List Bytes := (made r).filterMap Outgoing.wirePayload

/-- A withdrawal of some shares that succeeded. -/
def PositiveWithdrawal (r : Turned O) : Prop :=
  ∃ user shares eth_recipient event, r.input.2 = .handler (.initiate_withdrawal user shares eth_recipient) ∧
    r.output = .ok event ∧ 0 < shares

/-- The nonce that the other side reads in a payload. -/
def nonceOf (payload : Bytes) : Option U256 := (prim.codec.decode_withdraw payload).map (fun message => message.nonce)

/-- Two transitions put one payload each on the wire, with different nonces. -/
def SendApart (first second : Turned O) : Prop :=
  ∃ p q nonce other, sentPayloads first = [p] ∧ sentPayloads second = [q] ∧ nonceOf prim p = some nonce ∧
    nonceOf prim q = some other ∧ nonce ≠ other ∧ p ≠ q

/-- Any two withdrawals of some shares have different nonces and payloads. -/
def DistinctNonces (history : List (Turned O)) : Prop :=
  history.Pairwise (fun first second => PositiveWithdrawal first → PositiveWithdrawal second →
    SendApart prim first second)

/-- What the epoch of a transition had burned before it. -/
def burnedBefore (r : Turned O) : Int := r.before.state.own.read_epoch_burns (index r)

/-- Two withdrawals of one ledger are told apart: by one counter that has not
    reached its 64 bits before the first of them, or by two that look different. -/
def ToldApart (first second : Turned O) : Prop :=
  first.clock.sequence = second.clock.sequence →
    if index first = index second then burnedBefore first < u64Max
    else shownBurns (burnedBefore first) ≠ shownBurns (burnedBefore second)

/-- The shares of a withdrawal that succeeded. -/
def withdrawnShares (r : Turned O) : Int :=
  match r.input.2, r.output with
  | .handler (.initiate_withdrawal _ shares _), .ok _ => shares
  | _, _ => 0

theorem positiveWithdrawal_iff {r : Turned O} : PositiveWithdrawal r ↔ 0 < withdrawnShares r := by
  unfold PositiveWithdrawal withdrawnShares
  constructor
  · rintro ⟨user,shares,eth_recipient,event,input,out,positive⟩
    rw [input,out]
    exact positive
  · intro positive
    split at positive
    · rename_i user shares eth_recipient event input out
      exact ⟨user,shares,eth_recipient,event,input,out,positive⟩
    · exact absurd positive (by decide)

instance (r : Turned O) : Decidable (PositiveWithdrawal r) := decidable_of_iff _ positiveWithdrawal_iff.symm

instance (first second : Turned O) : Decidable (ToldApart first second) :=
  inferInstanceAs (Decidable (first.clock.sequence = second.clock.sequence →
    if index first = index second then burnedBefore first < u64Max
    else shownBurns (burnedBefore first) ≠ shownBurns (burnedBefore second)))

/-- What a transition leaves to all later ones: its ledger is over at most, and
    what it burned is counted. -/
structure Counted (r : Turned O) (c : Chain (State O)) : Prop where
  ledger : r.clock.sequence ≤ c.clock.sequence
  burns : burnedBefore r + moved .burn r ≤ c.state.own.read_epoch_burns (index r)

variable {prim} {axelar : Axelar O} {handler : Address} {r : Turned O}

theorem sent_payloads {user : Address} {shares : Int} {eth_recipient : BytesN 32}
    {event : Option BridgeEvent} (makes : Makes (serve prim axelar handler) r)
    (input : r.input.2 = .handler (.initiate_withdrawal user shares eth_recipient)) (out : r.output = .ok event) :
    ∃ value, sentPayloads r =
      [prim.codec.encode_withdraw (withdrawMessage (r.env handler) r.before.state.own eth_recipient value)] := by
  rcases turned_cases makes with ⟨entry,_,asked,_,turn⟩ | ⟨_,asked,_⟩ | ⟨_,failed,_⟩
  · rw [input] at asked
    cases asked
    cases turn with
    | withdrawal _ _ _ value payload t allowed converted encoded own outgoing =>
      refine ⟨value,?_⟩
      rw [sentPayloads,made_append outgoing,encoded]
      rfl
    | configured entry event authorised own => cases own
  · rw [input] at asked
    cases asked
  · rw [out] at failed
    cases failed

/-- A withdrawal sends one payload, whose nonce is the one of its ledger and of
    what its epoch had burned before. -/
theorem sent_nonce (roundTrips : prim.codec.RoundTrips) (makes : Makes (serve prim axelar handler) r)
    (withdrawal : PositiveWithdrawal r) : ∃ p, sentPayloads r = [p] ∧
      nonceOf prim p = some (BitVec.ofNat 256 (withdrawal_nonce (r.env handler) (burnedBefore r))) := by
  obtain ⟨user,shares,eth_recipient,event,input,out,_⟩ := withdrawal
  obtain ⟨value,sent⟩ := sent_payloads makes input out
  refine ⟨_,sent,?_⟩
  rw [nonceOf,roundTrips]
  rfl

/-- Whether two withdrawals send different nonces is decided by their ledgers and
    counters. -/
theorem sendApart_iff (roundTrips : prim.codec.RoundTrips) {first second : Turned O}
    (makes : Makes (serve prim axelar handler) first) (makes' : Makes (serve prim axelar handler) second)
    (ledger : first.clock.sequence < 2 ^ 32) (ledger' : second.clock.sequence < 2 ^ 32)
    (withdrawal : PositiveWithdrawal first) (withdrawal' : PositiveWithdrawal second) :
    SendApart prim first second ↔ (first.clock.sequence = second.clock.sequence →
      shownBurns (burnedBefore first) ≠ shownBurns (burnedBefore second)) := by
  obtain ⟨p,sent,nonce⟩ := sent_nonce roundTrips makes withdrawal
  obtain ⟨q,sent',nonce'⟩ := sent_nonce roundTrips makes' withdrawal'
  have same : BitVec.ofNat 256 (withdrawal_nonce (first.env handler) (burnedBefore first)) =
      BitVec.ofNat 256 (withdrawal_nonce (second.env handler) (burnedBefore second)) ↔
        first.clock.sequence = second.clock.sequence ∧
          shownBurns (burnedBefore first) = shownBurns (burnedBefore second) := nonce_word_inj ledger ledger'
  rw [show (first.clock.sequence = second.clock.sequence →
      shownBurns (burnedBefore first) ≠ shownBurns (burnedBefore second)) ↔ ¬ (first.clock.sequence =
        second.clock.sequence ∧ shownBurns (burnedBefore first) = shownBurns (burnedBefore second)) from not_and.symm]
  constructor
  · rintro ⟨p',q',n,n',sends,sends',reads,reads',different,_⟩ equal
    rw [sent,List.singleton_inj] at sends
    rw [sent',List.singleton_inj] at sends'
    rw [← sends,nonce,Option.some.injEq] at reads
    rw [← sends',nonce',Option.some.injEq] at reads'
    exact different (reads.symm.trans ((same.mpr equal).trans reads'))
  · intro unequal
    refine ⟨p,q,_,_,sent,sent',nonce,nonce',fun equal => unequal (same.mp equal),?_⟩
    intro equal
    rw [equal,nonce',Option.some.injEq] at nonce
    exact unequal (same.mp nonce.symm)

/-- A withdrawal of some shares makes the counter of its epoch grow. -/
theorem burn_moved (makes : Makes (serve prim axelar handler) r) (withdrawal : PositiveWithdrawal r) :
    0 < moved .burn r := by
  obtain ⟨user,shares,eth_recipient,event,input,out,positive⟩ := withdrawal
  have within := (flows_of_makes .burn makes).within (.withdrawal user shares eth_recipient input) out
  rw [within.1]
  exact positive

theorem burns_after (makes : Makes (serve prim axelar handler) r) (e : Nat) :
    r.after.state.own.read_epoch_burns e =
      r.before.state.own.read_epoch_burns e + if e = index r then moved .burn r else 0 :=
  (flows_of_makes .burn makes : Flows prim .burn r).counter e

theorem burns_le (makes : Makes (serve prim axelar handler) r) (e : Nat) :
    r.before.state.own.read_epoch_burns e ≤ r.after.state.own.read_epoch_burns e := by
  have nonneg := (flows_of_makes .burn makes : Flows prim .burn r).moved_nonneg
  rw [burns_after makes]
  split <;> omega

theorem counted_after (makes : Makes (serve prim axelar handler) r) : Counted r r.after where
  ledger := by rw [Delivery.after_clock makes]
  burns := by rw [burns_after makes,if_pos rfl]; rfl

theorem counted_kept {q : Turned O} (makes : Makes (serve prim axelar handler) q) (counted : Counted r q.before) :
    Counted r q.after where
  ledger := by
    rw [Delivery.after_clock makes]
    exact counted.ledger.trans (Nat.le_add_right _ _)
  burns := counted.burns.trans (burns_le makes _)

/-- In a run, two withdrawals of some shares differ in their nonces exactly when
    they are told apart. -/
theorem sendApart_iff_told (roundTrips : prim.codec.RoundTrips) {first second : Turned O}
    (makes : Makes (serve prim axelar handler) first) (makes' : Makes (serve prim axelar handler) second)
    (ledger : first.clock.sequence < 2 ^ 32) (ledger' : second.clock.sequence < 2 ^ 32)
    (nonneg : 0 ≤ burnedBefore first) (counted : Counted first second.before)
    (withdrawal : PositiveWithdrawal first) (withdrawal' : PositiveWithdrawal second) :
    SendApart prim first second ↔ ToldApart first second := by
  rw [sendApart_iff roundTrips makes makes' ledger ledger' withdrawal withdrawal',ToldApart]
  apply imp_congr_right
  intro _
  by_cases same : index first = index second
  · have grown : burnedBefore first < burnedBefore second := by
      have moves := burn_moved makes withdrawal
      have burns := counted.burns
      rw [same] at burns
      show _ < second.before.state.own.read_epoch_burns (index second)
      omega
    rw [if_pos same]
    exact shownBurns_grown nonneg grown
  · rw [if_neg same]

/-- In every run of the handler on ledgers of 32 bits, any two successful
    withdrawals of some shares put different nonces and payloads on the wire if and
    only if any two of one ledger are told apart by the counters they find. -/
theorem nonces_distinct_iff (roundTrips : prim.codec.RoundTrips) (clock : Clock)
    (admin gateway gas_service token vault : Address) (source_chain source_address : String) (ground : Ground O)
    (inputs : List (Origin × Action O)) :
    let start := deployed clock admin gateway gas_service token vault source_chain source_address ground
    let history := trace (serve prim axelar handler) start inputs
    (run (serve prim axelar handler) start inputs).clock.sequence < 2 ^ 32 →
    (DistinctNonces prim history ↔ history.Pairwise (fun first second =>
      PositiveWithdrawal first → PositiveWithdrawal second → ToldApart first second)) := by
  intro start history ledgers
  obtain ⟨pairs,left⟩ := trace_pairwise (serve prim axelar handler) Counted (s := start) inputs
    (fun _ _ makes => counted_after makes) (fun _ _ makes counted => counted_kept makes counted)
  have nonneg : ∀ r ∈ history, ∀ e, 0 ≤ r.before.state.own.read_epoch_burns e := by
    apply trace_invariant (serve prim axelar handler) (fun c => ∀ e, 0 ≤ c.state.own.read_epoch_burns e) inputs
    · intro e
      exact le_rfl
    · intro r _ makes held e
      exact (held e).trans (burns_le makes e)
  have iff : history.Pairwise (fun first second => PositiveWithdrawal first → PositiveWithdrawal second →
      (SendApart prim first second ↔ ToldApart first second)) := by
    apply pairs.imp_of_mem
    intro first second member member' counted withdrawal withdrawal'
    exact sendApart_iff_told roundTrips (trace_makes member) (trace_makes member')
      ((left first member).ledger.trans_lt ledgers) ((left second member').ledger.trans_lt ledgers)
      (nonneg first member _) counted withdrawal withdrawal'
  constructor
  · intro distinct
    apply (distinct.and iff).imp
    intro first second both withdrawal withdrawal'
    exact (both.2 withdrawal withdrawal').mp (both.1 withdrawal withdrawal')
  · intro told
    apply (told.and iff).imp
    intro first second both withdrawal withdrawal'
    exact (both.2 withdrawal withdrawal').mpr (both.1 withdrawal withdrawal')

end Nonces

namespace Small

/-- Two withdrawals of one ledger, counted one after the other. -/
def twice : List (Origin × Action Unit) := roundTrip ++ [withdraws 0 4]

/-- The same, where the admin shortens the epoch in between. -/
def shortened : List (Origin × Action Unit) := roundTrip ++ [limits 0 i128Max 1,withdraws 0 4]

end Small

theorem nonces_distinct_twice :
    DistinctNonces Small.morePrimitives (trace Small.moreStep Small.start Small.twice) :=
  (@nonces_distinct_iff Unit Small.morePrimitives Small.axelar Small.handler abiCodec_roundTrips ⟨0,0⟩
    Small.admin Small.gateway Small.gas_service Small.token Small.token "ethereum" "0xHelixVault"
    ⟨some (Token.fresh Small.admin Small.token Small.handler),()⟩ Small.twice (by decide +kernel)).mpr
    (by decide +kernel)

/-- The counter of the shortened epoch is as empty as the one before: both
    withdrawals go out as the very same payload. -/
theorem nonce_repeated :
    ¬ DistinctNonces Small.morePrimitives (trace Small.moreStep Small.start Small.shortened) := by
  intro distinct
  have same : sentPayloads (trace Small.moreStep Small.start Small.shortened)[4] =
      sentPayloads (trace Small.moreStep Small.start Small.shortened)[6] := by decide +kernel
  obtain ⟨p,q,_,_,sent,sent',_,_,_,different⟩ := List.pairwise_iff_getElem.mp distinct 4 6 (by decide) (by decide)
    (by decide) (by decide +kernel) (by decide +kernel)
  rw [sent,sent',List.singleton_inj] at same
  exact different same

end Helix.Bridge
