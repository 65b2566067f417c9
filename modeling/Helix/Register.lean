import Mathlib.Data.List.Induction
import Helix.Runs

/-!
A register that some steps of a history write, and its value, the one written last
(`latest`). Where every transition of a run keeps a view of the state or writes it,
the view at the end is the value written last in the run (`run_latest`,
`run_latest_getD`).
-/
namespace Helix
variable {α β : Type} {writes : α → Option β}

/-- The value that is written last. -/
def latest (writes : α → Option β) (past : List α) : Option β := past.foldl (fun held a => (writes a).or held) none

@[simp] theorem latest_nil : latest writes [] = none := rfl

@[simp] theorem latest_concat (past : List α) (a : α) : latest writes (past ++ [a]) = (writes a).or (latest writes past) := by
  rw [latest,List.foldl_append]
  rfl

theorem latest_none {past : List α} : latest writes past = none ↔ ∀ a ∈ past, writes a = none := by
  induction past using List.reverseRecOn with
  | nil => simp
  | append_singleton past a ih =>
    rw [latest_concat,Option.or_eq_none_iff,ih]
    simp [and_comm,or_imp,forall_and]

variable {σ ι ω : Type} {step : σ → ι → ω × σ}

/-- A view that every transition keeps or writes is the value written last. -/
theorem run_latest (view : σ → Option β) (written : Transition σ ι ω → Option β) {s : σ} (inputs : List ι)
    (start : view s = none)
    (moves : ∀ r ∈ trace step s inputs, Makes step r → view r.after = (written r).or (view r.before)) :
    view (run step s inputs) = latest written (trace step s inputs) := by
  apply run_history step (fun past t => view t = latest written past) inputs start
  intro past r member makes held
  rw [moves r member makes,held,latest_concat]

/-- The same for a view that has a value from the start. -/
theorem run_latest_getD (view : σ → β) (written : Transition σ ι ω → Option β) {s : σ} (inputs : List ι)
    (moves : ∀ r ∈ trace step s inputs, Makes step r → view r.after = (written r).getD (view r.before)) :
    view (run step s inputs) = (latest written (trace step s inputs)).getD (view s) := by
  apply run_history step (fun past t => view t = (latest written past).getD (view s)) inputs rfl
  intro past r member makes held
  rw [moves r member makes,held,latest_concat]
  cases written r <;> rfl

end Helix
