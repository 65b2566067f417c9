import Mathlib.Algebra.BigOperators.Group.List.Basic

/-!
Runs of a machine that answers every input with an output and a next state.
What holds at the start and across every transition holds at the end
(`run_invariant`); a measure that every transition changes by a known amount
changes over a run by the sum of these amounts (`run_telescope`); a relation
between the history and the state that every transition extends holds of the
whole history (`run_history`); what a transition leaves behind relates it to
all later ones (`trace_pairwise`); and a machine whose transitions are seen as
those of another one makes its runs (`run_viewed`, `trace_viewed`).
-/
namespace Helix

/-- One transition of a run. -/
structure Transition (σ ι ω : Type) where
  before : σ
  input : ι
  output : ω
  after : σ

variable {σ ι ω : Type}

/-- The transition a machine makes on an input. -/
def transition (step : σ → ι → ω × σ) (s : σ) (i : ι) : Transition σ ι ω := ⟨s,i,(step s i).1,(step s i).2⟩
/-- The transitions of a run over some inputs, in order. -/
def trace (step : σ → ι → ω × σ) : σ → List ι → List (Transition σ ι ω)
  | _, [] => []
  | s, i :: rest => transition step s i :: trace step (step s i).2 rest
/-- The state after a run over some inputs. -/
def run (step : σ → ι → ω × σ) : σ → List ι → σ
  | s, [] => s
  | s, i :: rest => run step (step s i).2 rest

/-- A transition is one the machine makes. -/
def Makes (step : σ → ι → ω × σ) (r : Transition σ ι ω) : Prop := step r.before r.input = (r.output,r.after)

variable {step : σ → ι → ω × σ}

theorem transition_makes (s : σ) (i : ι) : Makes step (transition step s i) := rfl

theorem trace_single (s : σ) (i : ι) : trace step s [i] = [transition step s i] := rfl
theorem run_single (s : σ) (i : ι) : run step s [i] = (transition step s i).after := rfl

theorem trace_append (s : σ) (first second : List ι) :
    trace step s (first ++ second) = trace step s first ++ trace step (run step s first) second := by
  induction first generalizing s with
  | nil => rfl
  | cons i rest ih => exact congrArg _ (ih (step s i).2)

theorem run_append (s : σ) (first second : List ι) :
    run step s (first ++ second) = run step (run step s first) second := by
  induction first generalizing s with
  | nil => rfl
  | cons i rest ih => exact ih (step s i).2

theorem trace_length (s : σ) (inputs : List ι) : (trace step s inputs).length = inputs.length := by
  induction inputs generalizing s with
  | nil => rfl
  | cons i rest ih => exact congrArg Nat.succ (ih (step s i).2)

theorem trace_makes {s : σ} {inputs : List ι} {r : Transition σ ι ω} (member : r ∈ trace step s inputs) :
    Makes step r := by
  induction inputs generalizing s with
  | nil => simp [trace] at member
  | cons i rest ih =>
    rcases List.mem_cons.mp member with same | later
    · subst same; rfl
    · exact ih later

theorem trace_input {s : σ} {inputs : List ι} {r : Transition σ ι ω} (member : r ∈ trace step s inputs) :
    r.input ∈ inputs := by
  induction inputs generalizing s with
  | nil => simp [trace] at member
  | cons i rest ih =>
    rcases List.mem_cons.mp member with same | later
    · subst same
      exact List.mem_cons_self
    · exact List.mem_cons_of_mem _ (ih later)

/-- A transition of a run starts where the run over the inputs before it ends. -/
theorem trace_split {s : σ} {inputs : List ι} {past rest : List (Transition σ ι ω)} {r : Transition σ ι ω}
    (split : trace step s inputs = past ++ r :: rest) :
    r = transition step (run step s (past.map (fun q => q.input))) r.input := by
  induction past generalizing s inputs with
  | nil =>
    cases inputs with
    | nil => cases split
    | cons i others =>
      obtain ⟨rfl,_⟩ := List.cons.inj split
      rfl
  | cons q past ih =>
    cases inputs with
    | nil => cases split
    | cons i others =>
      obtain ⟨rfl,later⟩ := List.cons.inj split
      exact ih later

/-- The beginning of a trace is the trace of its own inputs. -/
theorem trace_past {s : σ} {inputs : List ι} {past rest : List (Transition σ ι ω)}
    (split : trace step s inputs = past ++ rest) : trace step s (past.map (fun q => q.input)) = past := by
  induction past generalizing s inputs with
  | nil => rfl
  | cons q past ih =>
    cases inputs with
    | nil => cases split
    | cons i others =>
      obtain ⟨rfl,later⟩ := List.cons.inj split
      exact congrArg _ (ih later)

/-- Whatever the history and the state keep through every transition, they keep
    through the whole run. -/
theorem run_history (step : σ → ι → ω × σ) (keeps : List (Transition σ ι ω) → σ → Prop) {s : σ} (inputs : List ι)
    (start : keeps [] s)
    (extend : ∀ past r, r ∈ trace step s inputs → Makes step r → keeps past r.before → keeps (past ++ [r]) r.after) :
    keeps (trace step s inputs) (run step s inputs) := by
  have general : ∀ (inputs : List ι) (s : σ) (past : List (Transition σ ι ω)), keeps past s →
      (∀ past r, r ∈ trace step s inputs → Makes step r → keeps past r.before → keeps (past ++ [r]) r.after) →
      keeps (past ++ trace step s inputs) (run step s inputs) := by
    intro inputs
    induction inputs with
    | nil => intro s past held _; simpa [trace,run] using held
    | cons i rest ih =>
      intro s past held extend
      have moved := extend past _ List.mem_cons_self rfl held
      have later := ih (step s i).2 _ moved (fun past r member => extend past r (List.mem_cons_of_mem _ member))
      simpa [trace,run] using later
  simpa using general inputs s [] start extend

/-- An invariant that every transition of the run keeps holds at its end. -/
theorem run_invariant (step : σ → ι → ω × σ) (inv : σ → Prop) {s : σ} (inputs : List ι) (start : inv s)
    (keep : ∀ r ∈ trace step s inputs, Makes step r → inv r.before → inv r.after) : inv (run step s inputs) :=
  run_history step (fun _ t => inv t) inputs start (fun _ r member makes held => keep r member makes held)

/-- An invariant that every transition keeps holds before every transition. -/
theorem trace_invariant (step : σ → ι → ω × σ) (inv : σ → Prop) {s : σ} (inputs : List ι) (start : inv s)
    (keep : ∀ r ∈ trace step s inputs, Makes step r → inv r.before → inv r.after) :
    ∀ r ∈ trace step s inputs, inv r.before := by
  have both : inv (run step s inputs) ∧ ∀ r ∈ trace step s inputs, inv r.before := by
    apply run_history step (fun past t => inv t ∧ ∀ r ∈ past, inv r.before) inputs
    · exact ⟨start,by simp⟩
    · rintro past r member makes ⟨held,earlier⟩
      refine ⟨keep r member makes held,?_⟩
      exact List.forall_mem_append.mpr ⟨earlier,List.forall_mem_singleton.mpr held⟩
  exact both.2

/-- What every transition leaves behind and no later one takes away holds at the
    end of it for each transition, and for each before all later ones. -/
theorem trace_pairwise (step : σ → ι → ω × σ) (leaves : Transition σ ι ω → σ → Prop) {s : σ} (inputs : List ι)
    (start : ∀ r ∈ trace step s inputs, Makes step r → leaves r r.after)
    (keep : ∀ r q, Makes step q → leaves r q.before → leaves r q.after) :
    (trace step s inputs).Pairwise (fun r q => leaves r q.before) ∧
      ∀ r ∈ trace step s inputs, leaves r (run step s inputs) := by
  apply run_history step
    (fun past t => past.Pairwise (fun r q => leaves r q.before) ∧ ∀ r ∈ past, leaves r t) inputs
  · exact ⟨.nil,by simp⟩
  · rintro past q member makes ⟨pairs,left⟩
    refine ⟨?_,?_⟩
    · rw [List.pairwise_append]
      refine ⟨pairs,List.pairwise_singleton _ _,?_⟩
      intro r earlier other same
      rw [List.mem_singleton.mp same]
      exact left r earlier
    · refine List.forall_mem_append.mpr ⟨?_,List.forall_mem_singleton.mpr (start q member makes)⟩
      intro r earlier
      exact keep r q makes (left r earlier)

/-- A measure that every transition changes by a known amount. -/
theorem run_telescope (step : σ → ι → ω × σ) {M : Type} [AddMonoid M] (measure : σ → M)
    (change : Transition σ ι ω → M) {s : σ} (inputs : List ι)
    (moves : ∀ r ∈ trace step s inputs, measure r.after = measure r.before + change r) :
    measure (run step s inputs) = measure s + ((trace step s inputs).map change).sum := by
  apply run_history step (fun past t => measure t = measure s + (past.map change).sum) inputs
  · simp
  · intro past r member _ held
    rw [moves r member,held,List.map_append,List.sum_append,add_assoc]
    simp

section Views
variable {σ' ι' ω' : Type} {step' : σ' → ι' → ω' × σ'}

/-- Where every transition can be seen as one of another machine, a run is one of that
    machine: from what is seen of the start to what is seen of the end. -/
theorem run_viewed (view : σ → σ') (seen : Transition σ ι ω → ι') {s : σ} (inputs : List ι)
    (follows : ∀ r ∈ trace step s inputs, Makes step r → (step' (view r.before) (seen r)).2 = view r.after) :
    run step' (view s) ((trace step s inputs).map seen) = view (run step s inputs) := by
  induction inputs generalizing s with
  | nil => rfl
  | cons i rest ih =>
    have first := follows _ List.mem_cons_self rfl
    have later := ih (s := (step s i).2) (fun r member => follows r (List.mem_cons_of_mem _ member))
    refine Eq.trans ?_ later
    exact congrArg (fun t => run step' t _) first

/-- Its transitions are what is seen of the transitions. -/
theorem trace_viewed (view : σ → σ') (seen : Transition σ ι ω → ι') {s : σ} (inputs : List ι)
    (follows : ∀ r ∈ trace step s inputs, Makes step r → (step' (view r.before) (seen r)).2 = view r.after) :
    trace step' (view s) ((trace step s inputs).map seen) =
      (trace step s inputs).map (fun r => transition step' (view r.before) (seen r)) := by
  induction inputs generalizing s with
  | nil => rfl
  | cons i rest ih =>
    have first := follows _ List.mem_cons_self rfl
    have later := ih (s := (step s i).2) (fun r member => follows r (List.mem_cons_of_mem _ member))
    refine congrArg _ (Eq.trans ?_ later)
    exact congrArg (fun t => trace step' t _) first

end Views

end Helix
