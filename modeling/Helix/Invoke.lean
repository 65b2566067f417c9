import Mathlib.Order.Defs.Unbundled

/-!
Invocations that change a state or fail. A failed invocation has no state
after it: whoever called it keeps the state from before, which is how a host
that rolls a failed transaction back behaves. Every rule below says when an
invocation returns and what it then returns (`bind_ok`, `require_ok`), so that
a program written with them unfolds to the conditions under which it succeeds.
-/
namespace Helix

/-- Why an invocation did not return: an error of the program's own, or a trap
    below it. -/
inductive Failure (ε : Type) where
  | error (e : ε)
  | trap
  deriving DecidableEq

/-- A program over states `σ` with own errors `ε` and results `α`. -/
def Invoke (σ ε α : Type) : Type := σ → Except (Failure ε) (α × σ)

namespace Invoke
variable {σ τ ε α β : Type}

instance : Monad (Invoke σ ε) where
  pure a := fun s => .ok (a, s)
  bind x f := fun s =>
    match x s with
    | .error e => .error e
    | .ok (a, t) => f a t

/-- Stop with an error of the program's own. -/
def fail (e : ε) : Invoke σ ε α := fun _ => .error (.error e)
/-- Go on exactly when the condition holds. -/
def require (p : Prop) [Decidable p] (e : Failure ε) : Invoke σ ε Unit :=
  fun s => if p then .ok ((), s) else .error e
/-- Look at the state. -/
def read (look : σ → α) : Invoke σ ε α := fun s => .ok (look s, s)
/-- Change the state. -/
def write (change : σ → σ) : Invoke σ ε Unit := fun s => .ok ((), change s)
/-- The value of an option, or an error when there is none. -/
def need (o : Option α) (e : Failure ε) : Invoke σ ε α := fun s =>
  match o with
  | some a => .ok (a, s)
  | none => .error e
/-- What a caller sees: the result and the state, or nothing. -/
def answer (x : Invoke σ ε α) (s : σ) : Option (α × σ) := (x s).toOption

@[simp] theorem pure_ok {a : α} {s : σ} {r : α × σ} : (pure a : Invoke σ ε α) s = .ok r ↔ r = (a, s) := by
  show (Except.ok (a, s) : Except (Failure ε) (α × σ)) = .ok r ↔ r = (a, s)
  rw [Except.ok.injEq]
  exact eq_comm

@[simp] theorem bind_ok {x : Invoke σ ε α} {f : α → Invoke σ ε β} {s : σ} {r : β × σ} :
    (x >>= f) s = .ok r ↔ ∃ q, x s = .ok q ∧ f q.1 q.2 = .ok r := by
  cases run : x s with
  | error e => simp [bind,run]
  | ok q => simp [bind,run]

/-- A part that returns goes on with what it returned. -/
theorem bind_of_ok {x : Invoke σ ε α} {f : α → Invoke σ ε β} {s : σ} {q : α × σ} (ran : x s = .ok q) :
    (x >>= f) s = f q.1 q.2 := by
  simp only [bind,ran]

@[simp] theorem require_ok {p : Prop} [Decidable p] {e : Failure ε} {s : σ} {r : Unit × σ} :
    require p e s = .ok r ↔ p ∧ r = ((), s) := by
  unfold require
  by_cases holds : p
  · simp [holds,eq_comm]
  · simp [holds]

@[simp] theorem read_ok {look : σ → α} {s : σ} {r : α × σ} :
    (read look : Invoke σ ε α) s = .ok r ↔ r = (look s, s) := by
  simp [read,eq_comm]

@[simp] theorem write_ok {change : σ → σ} {s : σ} {r : Unit × σ} :
    (write change : Invoke σ ε Unit) s = .ok r ↔ r = ((), change s) := by
  simp [write,eq_comm]

@[simp] theorem need_ok {o : Option α} {e : Failure ε} {s : σ} {r : α × σ} :
    need o e s = .ok r ↔ o = some r.1 ∧ r.2 = s := by
  obtain ⟨a,t⟩ := r
  cases o with
  | none => simp [need]
  | some b => simp [need,eq_comm]

@[simp] theorem fail_ok {e : ε} {s : σ} {r : α × σ} : (fail e : Invoke σ ε α) s = .ok r ↔ False := by
  simp [fail]

theorem ite_ok {p : Prop} [Decidable p] {x y : Invoke σ ε α} {s : σ} {r : α × σ} :
    (if p then x else y) s = .ok r ↔ (p ∧ x s = .ok r) ∨ (¬ p ∧ y s = .ok r) := by
  by_cases holds : p <;> simp [holds]

/-! ### Failures -/

theorem bind_error {x : Invoke σ ε α} {f : α → Invoke σ ε β} {s : σ} {e : Failure ε} :
    (x >>= f) s = .error e ↔ x s = .error e ∨ ∃ q, x s = .ok q ∧ f q.1 q.2 = .error e := by
  cases run : x s with
  | error other => simp [bind,run]
  | ok q => simp [bind,run]

@[simp] theorem pure_error {a : α} {s : σ} {e : Failure ε} : (pure a : Invoke σ ε α) s = .error e ↔ False := by
  simp [pure]

@[simp] theorem require_error {p : Prop} [Decidable p] {e other : Failure ε} {s : σ} :
    require p e s = .error other ↔ ¬ p ∧ other = e := by
  unfold require
  by_cases holds : p
  · simp [holds]
  · simp [holds,eq_comm]

@[simp] theorem read_error {look : σ → α} {s : σ} {e : Failure ε} :
    (read look : Invoke σ ε α) s = .error e ↔ False := by
  simp [read]

@[simp] theorem write_error {change : σ → σ} {s : σ} {e : Failure ε} :
    (write change : Invoke σ ε Unit) s = .error e ↔ False := by
  simp [write]

@[simp] theorem need_error {o : Option α} {e other : Failure ε} {s : σ} :
    need o e s = .error other ↔ o = none ∧ other = e := by
  cases o with
  | none => simp [need,eq_comm]
  | some a => simp [need]

@[simp] theorem fail_error {e : ε} {s : σ} {other : Failure ε} :
    (fail e : Invoke σ ε α) s = .error other ↔ other = .error e := by
  simp [fail,eq_comm]

theorem ite_error {p : Prop} [Decidable p] {x y : Invoke σ ε α} {s : σ} {e : Failure ε} :
    (if p then x else y) s = .error e ↔ (p ∧ x s = .error e) ∨ (¬ p ∧ y s = .error e) := by
  by_cases holds : p <;> simp [holds]

/-- A program that never stops with a failure. -/
def Avoids (e : Failure ε) (x : Invoke σ ε α) : Prop := ∀ s, x s ≠ .error e

namespace Avoids
variable {e other : Failure ε}

theorem bind {x : Invoke σ ε α} {f : α → Invoke σ ε β} (first : Avoids e x) (later : ∀ a, Avoids e (f a)) :
    Avoids e (x >>= f) := by
  intro s failed
  rcases bind_error.mp failed with here | ⟨q,_,there⟩
  · exact first s here
  · exact later q.1 q.2 there

theorem pure {a : α} : Avoids e (Pure.pure a : Invoke σ ε α) := fun _ failed => pure_error.mp failed

theorem require {p : Prop} [Decidable p] (different : e ≠ other) : Avoids e (require p other : Invoke σ ε Unit) :=
  fun _ failed => different (require_error.mp failed).2

theorem need {o : Option α} (different : e ≠ other) : Avoids e (need o other : Invoke σ ε α) :=
  fun _ failed => different (need_error.mp failed).2

theorem read {look : σ → α} : Avoids e (read look : Invoke σ ε α) := fun _ failed => read_error.mp failed

theorem write {change : σ → σ} : Avoids e (write change : Invoke σ ε Unit) := fun _ failed => write_error.mp failed

theorem ite {p : Prop} [Decidable p] {x y : Invoke σ ε α} (yes : Avoids e x) (no : Avoids e y) :
    Avoids e (if p then x else y) := by
  by_cases holds : p
  · rwa [if_pos holds]
  · rwa [if_neg holds]

end Avoids

/-! ### Programs that leave the state -/

/-- A program that only looks. -/
def Still (x : Invoke σ ε α) : Prop := ∀ s r, x s = .ok r → r.2 = s

namespace Still

theorem bind {x : Invoke σ ε α} {f : α → Invoke σ ε β} (first : Still x) (later : ∀ a, Still (f a)) : Still (x >>= f) := by
  intro s r done
  obtain ⟨q,ran,rest⟩ := bind_ok.mp done
  rw [later q.1 q.2 r rest,first s q ran]

theorem pure {a : α} : Still (Pure.pure a : Invoke σ ε α) := fun _ _ done => by rw [pure_ok.mp done]

theorem require {p : Prop} [Decidable p] {e : Failure ε} : Still (Invoke.require p e : Invoke σ ε Unit) :=
  fun _ _ done => by rw [(require_ok.mp done).2]

theorem need {o : Option α} {e : Failure ε} : Still (Invoke.need o e : Invoke σ ε α) := fun _ _ done => (need_ok.mp done).2

theorem read {look : σ → α} : Still (Invoke.read look : Invoke σ ε α) := fun _ _ done => by rw [read_ok.mp done]

end Still

/-! ### Programs that do the same -/

/-- From the states where `P` holds both programs do the same, `P` holds again when
    they return, and they have gone as `R` allows. -/
def Agree (P : σ → Prop) (R : σ → σ → Prop) (x y : Invoke σ ε α) : Prop :=
  ∀ s, P s → x s = y s ∧ ∀ r, x s = .ok r → P r.2 ∧ R s r.2

namespace Agree
variable {P : σ → Prop} {R : σ → σ → Prop}

theorem bind [IsTrans σ R] {x y : Invoke σ ε α} {f g : α → Invoke σ ε β} (first : Agree P R x y)
    (later : ∀ a, Agree P R (f a) (g a)) : Agree P R (x >>= f) (y >>= g) := by
  intro s holds
  obtain ⟨same,kept⟩ := first s holds
  cases ran : x s with
  | error e =>
    have both : (x >>= f) s = .error e ∧ (y >>= g) s = .error e :=
      ⟨bind_error.mpr (.inl ran),bind_error.mpr (.inl (same ▸ ran))⟩
    refine ⟨both.1.trans both.2.symm,?_⟩
    intro r done
    rw [both.1] at done
    cases done
  | ok q =>
    obtain ⟨holds',moved⟩ := kept q ran
    obtain ⟨same',kept'⟩ := later q.1 q.2 holds'
    rw [bind_of_ok ran,bind_of_ok (same ▸ ran)]
    refine ⟨same',?_⟩
    intro r done
    obtain ⟨holds'',moved'⟩ := kept' r done
    exact ⟨holds'',IsTrans.trans _ _ _ moved moved'⟩

/-- A program that only looks agrees with itself. -/
theorem still [Std.Refl R] {x : Invoke σ ε α} (still : Still x) : Agree P R x x := by
  intro s holds
  refine ⟨rfl,?_⟩
  intro r done
  rw [still s r done]
  exact ⟨holds,refl s⟩

/-- Both look at the same, and go on. -/
theorem look [Std.Refl R] [IsTrans σ R] {x : Invoke σ ε α} {f g : α → Invoke σ ε β} (still : Still x)
    (later : ∀ a, Agree P R (f a) (g a)) : Agree P R (x >>= f) (x >>= g) := bind (.still still) later

theorem write {change : σ → σ} (keeps : ∀ s, P s → P (change s) ∧ R s (change s)) :
    Agree P R (Invoke.write change : Invoke σ ε Unit) (Invoke.write change) := by
  intro s holds
  refine ⟨rfl,?_⟩
  intro r done
  rw [write_ok.mp done]
  exact keeps s holds

/-- What goes as `R` allows goes as anything weaker allows. -/
theorem weaken {Q : σ → σ → Prop} {x y : Invoke σ ε α} (weaker : ∀ s t, R s t → Q s t) (agree : Agree P R x y) :
    Agree P Q x y := by
  intro s holds
  obtain ⟨same,kept⟩ := agree s holds
  exact ⟨same,fun r done => ⟨(kept r done).1,weaker _ _ (kept r done).2⟩⟩

theorem ite {p : Prop} [Decidable p] {x y x' y' : Invoke σ ε α} (yes : Agree P R x y) (no : Agree P R x' y') :
    Agree P R (if p then x else x') (if p then y else y') := by
  by_cases holds : p
  · rwa [if_pos holds,if_pos holds]
  · rwa [if_neg holds,if_neg holds]

end Agree

theorem ok_of_toOption {x : Except ε α} (some : x.toOption.isSome = true) : ∃ a, x = .ok a := by
  cases x with
  | error e => cases some
  | ok a => exact ⟨a,rfl⟩

theorem answer_some {x : Invoke σ ε α} {s : σ} {r : α × σ} : answer x s = some r ↔ x s = .ok r := by
  unfold answer
  cases x s <;> simp [Except.toOption]

end Invoke
end Helix
