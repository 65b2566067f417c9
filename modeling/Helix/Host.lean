import Helix.Invoke
import Helix.Runs

/-!
What the contracts see of the host: addresses, byte strings, the ledger and the
authorisations of an invocation, and the storage of the running contract beside
everything outside it. Instance and persistent entries never vanish; extending
their lifetime has no effect a contract can see and is left out.
-/
namespace Helix

abbrev Bytes : Type := List UInt8

/-- Byte strings of a fixed length. -/
def BytesN (n : Nat) : Type := { bytes : List UInt8 // bytes.length = n }

instance (n : Nat) : DecidableEq (BytesN n) := inferInstanceAs (DecidableEq { bytes : List UInt8 // bytes.length = n })

/-- The byte string of one repeated byte. -/
def BytesN.fill (n : Nat) (byte : UInt8) : BytesN n := ⟨List.replicate n byte,List.length_replicate⟩

inductive Address where
  | account (key : BytesN 32)
  | contract (id : BytesN 32)
  deriving DecidableEq

/-- What an invocation sees of the ledger and of its caller: `invoker` is the
    contract that calls it directly, `signed` the addresses whose signatures
    cover the call. -/
structure Env where
  sequence : Nat
  timestamp : Nat
  min_temp_entry_ttl : Nat
  current_contract_address : Address
  invoker : Option Address
  signed : Address → Bool

namespace Env

/-- A direct caller authorises its call; anyone else has to sign. -/
def Authorised (env : Env) (a : Address) : Prop := env.invoker = some a ∨ env.signed a = true

instance (env : Env) (a : Address) : Decidable (env.Authorised a) := inferInstanceAs (Decidable (_ ∨ _))

/-- The invocation that a call from this one makes. -/
def calling (env : Env) (callee : Address) : Env :=
  { env with current_contract_address := callee, invoker := some env.current_contract_address }

end Env

/-- The ledger: its number and its time. -/
structure Clock where
  sequence : Nat
  timestamp : Nat

/-- How a top-level call comes in: the ledgers and seconds that passed since the
    last one, its direct caller if that is a contract, and who signed. -/
structure Origin where
  ledgers : Nat
  seconds : Nat
  min_temp_entry_ttl : Nat
  invoker : Option Address
  signed : Address → Bool

def Clock.advance (clock : Clock) (origin : Origin) : Clock :=
  ⟨clock.sequence + origin.ledgers,clock.timestamp + origin.seconds⟩

/-- The environment of a call to a contract at a clock. -/
def Origin.env (origin : Origin) (clock : Clock) (self : Address) : Env where
  sequence := clock.sequence
  timestamp := clock.timestamp
  min_temp_entry_ttl := origin.min_temp_entry_ttl
  current_contract_address := self
  invoker := origin.invoker
  signed := origin.signed

/-- One ledger later, a call that one address signed. -/
def Origin.signedBy (signer : Address) : Origin := ⟨1,5,16,none,fun a => decide (a = signer)⟩

theorem Origin.signedBy_authorised (signer : Address) (clock : Clock) (self : Address) :
    ((Origin.signedBy signer).env clock self).Authorised signer :=
  .inr (decide_eq_true rfl)

/-- The storage of the running contract and everything outside it. -/
structure World (S W : Type) where
  own : S
  rest : W

variable {S W σ ε α : Type}

/-- `Address::require_auth`. -/
def require_auth (env : Env) (a : Address) : Invoke σ ε Unit := Invoke.require (env.Authorised a) .trap

/-- A call to another contract: it may answer and change what is outside, and
    when it traps the caller traps. -/
def callOut (f : W → Option (α × W)) : Invoke (World S W) ε α := fun s =>
  match f s.rest with
  | some (a, w) => .ok (a, { s with rest := w })
  | none => .error .trap

theorem callOut_ok {f : W → Option (α × W)} {s : World S W} {r : α × World S W} :
    (callOut f : Invoke (World S W) ε α) s = .ok r ↔
      ∃ w, f s.rest = some (r.1, w) ∧ r.2 = { s with rest := w } := by
  obtain ⟨a,t⟩ := r
  unfold callOut
  cases found : f s.rest with
  | none => simp
  | some q => simp [eq_comm,Prod.ext_iff,and_assoc]

/-- A call to another contract whose failure the caller survives: a callee that
    traps leaves everything as it was, one that answers something else need not. -/
def tryOut (f : W → Option α × W) : Invoke (World S W) ε (Option α) := fun s =>
  .ok ((f s.rest).1, { s with rest := (f s.rest).2 })

@[simp] theorem tryOut_ok {f : W → Option α × W} {s : World S W} {r : Option α × World S W} :
    (tryOut f : Invoke (World S W) ε (Option α)) s = .ok r ↔ r = ((f s.rest).1, { s with rest := (f s.rest).2 }) := by
  simp [tryOut,eq_comm]

/-- A call to another contract that may come back to the calling one: it acts on
    everything, the caller's own storage included. -/
def reach (f : σ → Option (α × σ)) : Invoke σ ε α := fun s =>
  match f s with
  | some r => .ok r
  | none => .error .trap

theorem reach_ok {f : σ → Option (α × σ)} {s : σ} {r : α × σ} :
    (reach f : Invoke σ ε α) s = .ok r ↔ f s = some r := by
  unfold reach
  cases f s <;> simp

/-- Calls to contracts that answer the same, in the states where the caller makes them. -/
theorem reach_agree {P : σ → Prop} {R : σ → σ → Prop} {f g : σ → Option (α × σ)} (same : ∀ s, P s → f s = g s)
    (does : ∀ s a t, P s → f s = some (a, t) → P t ∧ R s t) :
    Invoke.Agree P R (reach f : Invoke σ ε α) (reach g) := by
  intro s holds
  refine ⟨by unfold reach; rw [same s holds],?_⟩
  intro r done
  exact does s r.1 r.2 holds (reach_ok.mp done)

/-- A call that does not come back leaves the caller's own storage alone. -/
def apart (f : W → Option (α × W)) : World S W → Option (α × World S W) := fun s =>
  (f s.rest).map (fun r => (r.1,{ s with rest := r.2 }))

theorem reach_apart (f : W → Option (α × W)) :
    (reach (apart f) : Invoke (World S W) ε α) = callOut f := by
  funext s
  unfold reach apart callOut
  cases f s.rest <;> rfl

/-- Look at the contract's own storage. -/
def load (look : S → α) : Invoke (World S W) ε α := Invoke.read (fun s => look s.own)
/-- Change the contract's own storage. -/
def save (change : S → S) : Invoke (World S W) ε Unit := Invoke.write (fun s => { s with own := change s.own })

@[simp] theorem load_ok {look : S → α} {s : World S W} {r : α × World S W} :
    (load look : Invoke (World S W) ε α) s = .ok r ↔ r = (look s.own, s) := Invoke.read_ok

@[simp] theorem save_ok {change : S → S} {s : World S W} {r : Unit × World S W} :
    (save change : Invoke (World S W) ε Unit) s = .ok r ↔ r = ((), { s with own := change s.own }) := Invoke.write_ok

@[simp] theorem auth_ok {env : Env} {a : Address} {s : σ} {r : Unit × σ} :
    (require_auth env a : Invoke σ ε Unit) s = .ok r ↔ env.Authorised a ∧ r = ((), s) := Invoke.require_ok

/-- What code of a contract answers in a state in which the contract may not be
    initialized yet: nothing where it fails, or where there is no contract. -/
def reply (code : Invoke (World S W) ε α) (s : World (Option S) W) : Option α :=
  match s.own with
  | none => none
  | some own => (Invoke.answer code ⟨own,s.rest⟩).map (fun r => r.1)

theorem reply_some {code : Invoke (World S W) ε α} {s : World (Option S) W} {a : α} :
    reply code s = some a ↔ ∃ own t, s.own = some own ∧ code ⟨own,s.rest⟩ = .ok (a, t) := by
  unfold reply
  cases s.own with
  | none => simp
  | some own => simp [Invoke.answer_some]

/-! ### Failures -/

@[simp] theorem callOut_error {f : W → Option (α × W)} {s : World S W} {e : Failure ε} :
    (callOut f : Invoke (World S W) ε α) s = .error e ↔ f s.rest = none ∧ e = .trap := by
  unfold callOut
  cases f s.rest <;> simp [eq_comm]

@[simp] theorem load_error {look : S → α} {s : World S W} {e : Failure ε} :
    (load look : Invoke (World S W) ε α) s = .error e ↔ False := Invoke.read_error

@[simp] theorem save_error {change : S → S} {s : World S W} {e : Failure ε} :
    (save change : Invoke (World S W) ε Unit) s = .error e ↔ False := Invoke.write_error

@[simp] theorem auth_error {env : Env} {a : Address} {s : σ} {e : Failure ε} :
    (require_auth env a : Invoke σ ε Unit) s = .error e ↔ ¬ env.Authorised a ∧ e = .trap := Invoke.require_error

/-! ### A chain that delivers calls -/

/-- A state and the ledger it is at. -/
structure Chain (S : Type) where
  clock : Clock
  state : S

/-- Deliver a call: the ledger moves on, and what fails changes nothing else. -/
def deliver {E : Type} (self : Address) (act : Env → E → Invoke S ε α) (s : Chain S) (call : Origin × E) :
    Except (Failure ε) α × Chain S :=
  match act (call.1.env (s.clock.advance call.1) self) call.2 s.state with
  | .ok (a, t) => (.ok a, ⟨s.clock.advance call.1,t⟩)
  | .error e => (.error e, ⟨s.clock.advance call.1,s.state⟩)

theorem deliver_ok {E : Type} {self : Address} {act : Env → E → Invoke S ε α} {s : Chain S} {call : Origin × E} {a : α}
    {t : S} (ran : act (call.1.env (s.clock.advance call.1) self) call.2 s.state = .ok (a, t)) :
    deliver self act s call = (.ok a, ⟨s.clock.advance call.1,t⟩) := by
  unfold deliver
  rw [ran]

theorem deliver_error {E : Type} {self : Address} {act : Env → E → Invoke S ε α} {s : Chain S} {call : Origin × E}
    {e : Failure ε} (ran : act (call.1.env (s.clock.advance call.1) self) call.2 s.state = .error e) :
    deliver self act s call = (.error e, ⟨s.clock.advance call.1,s.state⟩) := by
  unfold deliver
  rw [ran]

/-- A transition of a chain that delivers calls. -/
abbrev Delivery (S ε E α : Type) : Type := Transition (Chain S) (Origin × E) (Except (Failure ε) α)

namespace Delivery
variable {E : Type} (self : Address) (r : Delivery S ε E α)

/-- The ledger time a call is delivered at. -/
def clock : Clock := r.before.clock.advance r.input.1
/-- What a delivered call sees. -/
def env : Env := r.input.1.env r.clock self

variable {self r}

/-- A delivered call returned and left its result, or failed and left nothing. -/
theorem cases {act : Env → E → Invoke S ε α} (makes : Makes (deliver self act) r) :
    (∃ a, r.output = .ok a ∧ act (r.env self) r.input.2 r.before.state = .ok (a, r.after.state)) ∨
      (∃ e, r.output = .error e ∧ r.after.state = r.before.state) := by
  unfold Makes deliver at makes
  cases ran : act (r.input.1.env (r.before.clock.advance r.input.1) self) r.input.2 r.before.state with
  | error e =>
    rw [ran] at makes
    simp only [Prod.mk.injEq] at makes
    exact .inr ⟨e,makes.1.symm,by rw [← makes.2]⟩
  | ok q =>
    rw [ran] at makes
    simp only [Prod.mk.injEq] at makes
    exact .inl ⟨q.1,makes.1.symm,by rw [← makes.2]; exact ran⟩

theorem after_clock {act : Env → E → Invoke S ε α} (makes : Makes (deliver self act) r) :
    r.after.clock = r.clock := by
  unfold Makes deliver at makes
  cases ran : act (r.input.1.env (r.before.clock.advance r.input.1) self) r.input.2 r.before.state with
  | error e => rw [ran] at makes; simp only [Prod.mk.injEq] at makes; rw [← makes.2]; rfl
  | ok q => rw [ran] at makes; simp only [Prod.mk.injEq] at makes; rw [← makes.2]; rfl

/-- The call of a transition that returned. -/
theorem returned {act : Env → E → Invoke S ε α} (makes : Makes (deliver self act) r) {a : α} (ok : r.output = .ok a) :
    act (r.env self) r.input.2 r.before.state = .ok (a, r.after.state) := by
  rcases cases makes with ⟨b,out,ran⟩ | ⟨e,out,_⟩
  · rw [out] at ok
    cases ok
    exact ran
  · rw [out] at ok
    cases ok

/-- A transition whose call returns. -/
theorem returns {act : Env → E → Invoke S ε α} (makes : Makes (deliver self act) r) {a : α} {t : S}
    (ran : act (r.env self) r.input.2 r.before.state = .ok (a, t)) : r.output = .ok a ∧ r.after.state = t := by
  rcases cases makes with ⟨b,out,ran'⟩ | ⟨e,out,_⟩
  · rw [ran] at ran'
    cases ran'
    exact ⟨out,rfl⟩
  · have delivered := makes.symm.trans (deliver_ok ran)
    rw [out] at delivered
    cases delivered

/-- The call of a transition that failed. -/
theorem failed {act : Env → E → Invoke S ε α} (makes : Makes (deliver self act) r) {e : Failure ε}
    (error : r.output = .error e) : act (r.env self) r.input.2 r.before.state = .error e := by
  unfold Makes deliver at makes
  cases ran : act (r.input.1.env (r.before.clock.advance r.input.1) self) r.input.2 r.before.state with
  | error other =>
    rw [ran] at makes
    simp only [Prod.mk.injEq] at makes
    rw [error] at makes
    cases makes.1
    exact ran
  | ok q =>
    rw [ran] at makes
    simp only [Prod.mk.injEq] at makes
    rw [error] at makes
    cases makes.1

section Views
variable {S' ε' E' α' : Type} {self' : Address} {act : Env → E → Invoke S ε α} {act' : Env → E' → Invoke S' ε' α'}
  {view : S → S'} {entry : E'}

/-- A transition seen as a call of another chain that returns. -/
theorem viewed (makes : Makes (deliver self act) r) {a : α'}
    (ran : act' (r.env self') entry (view r.before.state) = .ok (a, view r.after.state)) :
    (deliver self' act' ⟨r.before.clock,view r.before.state⟩ (r.input.1,entry)).2 = ⟨r.after.clock,view r.after.state⟩ := by
  rw [after_clock makes]
  exact congrArg Prod.snd (deliver_ok ran)

/-- One that left nothing, seen as a call that fails. -/
theorem viewed_failed (makes : Makes (deliver self act) r) (same : r.after.state = r.before.state) {e : Failure ε'}
    (ran : act' (r.env self') entry (view r.before.state) = .error e) :
    (deliver self' act' ⟨r.before.clock,view r.before.state⟩ (r.input.1,entry)).2 = ⟨r.after.clock,view r.after.state⟩ := by
  rw [after_clock makes,same]
  exact congrArg Prod.snd (deliver_error ran)

end Views

end Delivery

/-- A clock that is not later than another. -/
structure Clock.Earlier (c d : Clock) : Prop where
  sequence : c.sequence ≤ d.sequence
  timestamp : c.timestamp ≤ d.timestamp

theorem Clock.Earlier.trans {c d e : Clock} (first : c.Earlier d) (second : d.Earlier e) : c.Earlier e :=
  ⟨Nat.le_trans first.sequence second.sequence,Nat.le_trans first.timestamp second.timestamp⟩

theorem Clock.earlier_advance (c : Clock) (origin : Origin) : c.Earlier (c.advance origin) :=
  ⟨Nat.le_add_right _ _,Nat.le_add_right _ _⟩

/-- The calls of a run are delivered one after the other. -/
theorem deliver_clocks {E : Type} {self : Address} {act : Env → E → Invoke S ε α} {s : Chain S}
    (calls : List (Origin × E)) :
    (trace (deliver self act) s calls).Pairwise (fun r q => (Delivery.clock r).Earlier (Delivery.clock q)) ∧
      ∀ r ∈ trace (deliver self act) s calls, (Delivery.clock r).Earlier (run (deliver self act) s calls).clock := by
  obtain ⟨pairs,ends⟩ := trace_pairwise (deliver self act)
    (fun r c => (Delivery.clock r).Earlier c.clock) (s := s) calls
    (fun r _ makes => by rw [Delivery.after_clock makes]; exact ⟨Nat.le_refl _,Nat.le_refl _⟩)
    (fun r q makes held => by
      rw [Delivery.after_clock makes]
      exact held.trans (Clock.earlier_advance _ _))
  exact ⟨pairs.imp (fun held => held.trans (Clock.earlier_advance _ _)),ends⟩

/-- What every call that returns keeps, a chain that delivers calls keeps. -/
theorem deliver_invariant {E : Type} {self : Address} {act : Env → E → Invoke S ε α} (inv : S → Prop)
    (keep : ∀ env e s a t, inv s → act env e s = .ok (a, t) → inv t) {s : Chain S} (calls : List (Origin × E))
    (start : inv s.state) : inv (run (deliver self act) s calls).state := by
  apply run_invariant _ (fun c : Chain S => inv c.state) calls start
  intro r _ makes held
  rcases Delivery.cases makes with ⟨a,_,ran⟩ | ⟨_,_,same⟩
  · exact keep _ _ _ _ _ held ran
  · rw [same]; exact held

end Helix
