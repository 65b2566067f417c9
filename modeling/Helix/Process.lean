import Mathlib.Logic.Basic

/-!
Programs that nobody rolls back: one that fails on the way keeps what it did. A
process gives its result, or the error it stopped at, and in both cases the state
it left; the rules say when it gives a result, when it stops, and what it leaves
alone either way (`Keeps`).
-/
namespace Helix

/-- A program over states `σ` with errors `ε` and results `α`. -/
def Process (σ ε α : Type) : Type := σ → Except ε α × σ

namespace Process
variable {σ ε α β : Type}

instance : Monad (Process σ ε) where
  pure a := fun s => (.ok a, s)
  bind x f := fun s =>
    match x s with
    | (.error e, t) => (.error e, t)
    | (.ok a, t) => f a t

/-- Look at the state. -/
def look (f : σ → α) : Process σ ε α := fun s => (.ok (f s), s)
/-- Change the state. -/
def change (f : σ → σ) : Process σ ε Unit := fun s => (.ok (), f s)
/-- The value of an option, or stop. -/
def expect (o : Option α) (e : ε) : Process σ ε α := fun s =>
  match o with
  | some a => (.ok a, s)
  | none => (.error e, s)

variable {s t : σ} {a : α} {b : β}

@[simp] theorem pure_ok {c : α} : (pure a : Process σ ε α) s = (.ok c, t) ↔ a = c ∧ s = t := by
  show ((.ok a, s) : Except ε α × σ) = _ ↔ _
  simp

@[simp] theorem bind_ok {x : Process σ ε α} {f : α → Process σ ε β} :
    (x >>= f) s = (.ok b, t) ↔ ∃ a u, x s = (.ok a, u) ∧ f a u = (.ok b, t) := by
  rcases ran : x s with ⟨result,u⟩
  cases result with
  | error e => simp [bind,ran]
  | ok a =>
    simp only [bind,ran,Prod.mk.injEq,Except.ok.injEq]
    constructor
    · intro later
      exact ⟨a,u,⟨rfl,rfl⟩,later⟩
    · rintro ⟨_,_,⟨rfl,rfl⟩,later⟩
      exact later

@[simp] theorem look_ok {f : σ → α} : (look f : Process σ ε α) s = (.ok a, t) ↔ f s = a ∧ s = t := by
  simp [look]

@[simp] theorem change_ok {f : σ → σ} {u : Unit} : (change f : Process σ ε Unit) s = (.ok u, t) ↔ f s = t := by
  simp [change]

@[simp] theorem expect_ok {o : Option α} {e : ε} : (expect o e : Process σ ε α) s = (.ok a, t) ↔ o = some a ∧ s = t := by
  cases o with
  | none => simp [expect]
  | some _ => simp [expect]

theorem bind_of_ok {x : Process σ ε α} {f : α → Process σ ε β} (ran : x s = (.ok a, t)) : (x >>= f) s = f a t := by
  simp only [bind,ran]

theorem bind_of_error {x : Process σ ε α} {f : α → Process σ ε β} {e : ε} (ran : x s = (.error e, t)) :
    (x >>= f) s = (.error e, t) := by
  simp only [bind,ran]

/-- A program stops in its first part, or goes on with what it gave. -/
theorem bind_cases {x : Process σ ε α} {f : α → Process σ ε β} {result : Except ε β} (ran : (x >>= f) s = (result, t)) :
    (∃ e, x s = (.error e, t) ∧ result = .error e) ∨ ∃ a u, x s = (.ok a, u) ∧ f a u = (result, t) := by
  rcases first : x s with ⟨outcome,u⟩
  cases outcome with
  | error e =>
    rw [bind_of_error first] at ran
    cases ran
    exact .inl ⟨e,rfl,rfl⟩
  | ok a =>
    rw [bind_of_ok first] at ran
    exact .inr ⟨a,u,rfl,ran⟩

theorem bind_assoc {γ : Type} (x : Process σ ε α) (f : α → Process σ ε β) (g : β → Process σ ε γ) :
    x >>= f >>= g = x >>= fun a => f a >>= g := by
  funext s
  rcases ran : x s with ⟨result,t⟩
  cases result with
  | error e => simp only [bind,ran]
  | ok a => simp only [bind,ran]

theorem pure_bind (a : α) (f : α → Process σ ε β) : pure a >>= f = f a := rfl

/-! ### Errors -/

variable {e : ε}

@[simp] theorem pure_error {c : α} : (pure c : Process σ ε α) s = (.error e, t) ↔ False := by
  show ((.ok c, s) : Except ε α × σ) = _ ↔ _
  simp

@[simp] theorem look_error {f : σ → α} : (look f : Process σ ε α) s = (.error e, t) ↔ False := by simp [look]

@[simp] theorem change_error {f : σ → σ} : (change f : Process σ ε Unit) s = (.error e, t) ↔ False := by simp [change]

@[simp] theorem expect_error {o : Option α} {c : ε} :
    (expect o c : Process σ ε α) s = (.error e, t) ↔ o = none ∧ c = e ∧ s = t := by
  cases o with
  | none => simp [expect]
  | some _ => simp [expect]

/-- A program stops in its first part, or in what follows it. -/
theorem bind_error {x : Process σ ε α} {f : α → Process σ ε β} :
    (x >>= f) s = (.error e, t) ↔ x s = (.error e, t) ∨ ∃ a u, x s = (.ok a, u) ∧ f a u = (.error e, t) := by
  rcases ran : x s with ⟨result,u⟩
  cases result with
  | error other => simp [bind,ran]
  | ok a =>
    simp only [bind,ran,Prod.mk.injEq,reduceCtorEq,false_and,false_or,Except.ok.injEq]
    constructor
    · intro later
      exact ⟨a,u,⟨rfl,rfl⟩,later⟩
    · rintro ⟨_,_,⟨rfl,rfl⟩,later⟩
      exact later

/-! ### What a program leaves alone -/

/-- A part of the state stays as it is, whether the program stops or not. -/
def Keeps {ν : Type} (view : σ → ν) (x : Process σ ε α) : Prop := ∀ s, view (x s).2 = view s

namespace Keeps
variable {ν : Type} {view : σ → ν}

theorem pure {a : α} : Keeps view (pure a : Process σ ε α) := fun _ => rfl
theorem look {f : σ → α} : Keeps view (look f : Process σ ε α) := fun _ => rfl
theorem change {f : σ → σ} (same : ∀ s, view (f s) = view s) : Keeps view (change f : Process σ ε Unit) := same
theorem expect {o : Option α} {e : ε} : Keeps view (expect o e : Process σ ε α) := by
  intro s
  cases o with
  | none => rfl
  | some _ => rfl

theorem bind {x : Process σ ε α} {f : α → Process σ ε β} (first : Keeps view x) (later : ∀ a, Keeps view (f a)) :
    Keeps view (x >>= f) := by
  intro s
  have kept := first s
  show view (match x s with
    | (.error e, t) => ((.error e, t) : Except ε β × σ)
    | (.ok a, t) => f a t).2 = view s
  rcases ran : x s with ⟨result,u⟩
  rw [ran] at kept
  cases result with
  | error e => exact kept
  | ok a => exact (later a u).trans kept

end Keeps

/-- What holds before the program holds where it stops. -/
def Preserves (holds : σ → Prop) (x : Process σ ε α) : Prop := ∀ s, holds s → holds (x s).2

namespace Preserves
variable {holds : σ → Prop}

theorem of_keeps {ν : Type} {view : σ → ν} (of_view : ν → Prop) {x : Process σ ε α} (keeps : Keeps view x) :
    Preserves (fun s => of_view (view s)) x := by
  intro s held
  rw [keeps s]
  exact held

/-- What the first part gives may be used for the second. -/
theorem bind_gives {gives : α → Prop} {x : Process σ ε α} {f : α → Process σ ε β} (first : Preserves holds x)
    (given : ∀ s a t, holds s → x s = (.ok a, t) → gives a) (later : ∀ a, gives a → Preserves holds (f a)) :
    Preserves holds (x >>= f) := by
  intro s held
  have kept := first s held
  show holds (match x s with
    | (.error e, t) => ((.error e, t) : Except ε β × σ)
    | (.ok a, t) => f a t).2
  rcases ran : x s with ⟨result,u⟩
  rw [ran] at kept
  cases result with
  | error e => exact kept
  | ok a => exact later a (given s a u held ran) u kept

theorem bind {x : Process σ ε α} {f : α → Process σ ε β} (first : Preserves holds x)
    (later : ∀ a, Preserves holds (f a)) : Preserves holds (x >>= f) :=
  bind_gives first (fun _ _ _ _ _ => (trivial : True)) (fun a _ => later a)

/-- A program that changes nothing. -/
theorem of_still {x : Process σ ε α} (still : Keeps (fun s => s) x) : Preserves holds x := of_keeps holds still

theorem change {f : σ → σ} (keeps : ∀ s, holds s → holds (f s)) : Preserves holds (change f : Process σ ε Unit) := keeps

end Preserves

/-! ### Programs beside each other -/

/-- A program does on its states what another does on what is seen of them. -/
def Simulates {τ : Type} (view : σ → τ) (x : Process σ ε α) (y : Process τ ε α) : Prop :=
  ∀ s, y (view s) = ((x s).1, view (x s).2)

namespace Simulates
variable {τ : Type} {view : σ → τ}

theorem pure {a : α} : Simulates view (pure a : Process σ ε α) (pure a) := fun _ => rfl

theorem bind {x : Process σ ε α} {y : Process τ ε α} {f : α → Process σ ε β} {g : α → Process τ ε β}
    (first : Simulates view x y) (later : ∀ a, Simulates view (f a) (g a)) : Simulates view (x >>= f) (y >>= g) := by
  intro s
  have same := first s
  rcases ran : x s with ⟨result,t⟩
  rw [ran] at same
  cases result with
  | error e => rw [bind_of_error ran,bind_of_error same]
  | ok a => rw [bind_of_ok ran,bind_of_ok same,later a t]

end Simulates

end Process
end Helix
