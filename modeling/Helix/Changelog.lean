import Mathlib.Data.List.Basic

/-!
A store that logs what changes in it, and a copy that is kept by reading the log.
Every change at a key is logged under that key; a reader of the log fetches the
present value of each key it comes to. Whatever happens between the reading of an
entry and the fetch, the copy is right at every key that has no unread entry
(`Current`), and a refresh of the copy keeps that (`Current.refresh`).
-/
namespace Helix.Changelog

/-- A store over time with its log: a value that differs later is logged in between. -/
structure Feed (α κ ν : Type) where
  key : α → κ
  value : Nat → κ → ν
  log : Nat → List α
  grows : ∀ {a b}, a ≤ b → log a <+: log b
  announces : ∀ {a b}, a ≤ b → ∀ k, value b k ≠ value a k → ∃ e ∈ (log b).drop (log a).length, key e = k

variable {α κ ν : Type} (feed : Feed α κ ν)

/-- Entries that are logged after a time up to another. -/
def Feed.between (a b : Nat) : List α := (feed.log b).drop (feed.log a).length

/-- The copy has the present value of every key all of whose entries were read. -/
def Current (t : Nat) (read : α → Prop) (copy : κ → ν) : Prop :=
  ∀ k, (∀ e ∈ feed.log t, feed.key e = k → read e) → copy k = feed.value t k

namespace Feed
variable {feed} {a b c : Nat}

theorem log_between (later : a ≤ b) : feed.log b = feed.log a ++ feed.between a b :=
  (List.prefix_iff_eq_append.mp (feed.grows later)).symm

theorem mem_log_of_between (later : a ≤ b) {e : α} (member : e ∈ feed.between a b) : e ∈ feed.log b := by
  rw [log_between later]
  exact List.mem_append_right _ member

/-- What is logged from a time on is logged from an earlier one on. -/
theorem between_of_later (first : a ≤ b) (second : b ≤ c) {e : α} (member : e ∈ feed.between b c) :
    e ∈ feed.between a c := by
  have parts : feed.log a ++ feed.between a c = feed.log a ++ (feed.between a b ++ feed.between b c) := by
    rw [← log_between (Nat.le_trans first second),← List.append_assoc,← log_between first,← log_between second]
  rw [List.append_cancel_left parts]
  exact List.mem_append_right _ member

/-- What is logged up to a time is logged up to a later one. -/
theorem between_of_earlier (first : a ≤ b) (second : b ≤ c) {e : α} (member : e ∈ feed.between a b) :
    e ∈ feed.between a c := by
  obtain ⟨rest,grown⟩ := feed.grows second
  rw [between,← grown,log_between first,List.append_assoc,List.drop_left]
  exact List.mem_append_left _ member

/-- A key that nothing was logged under has its old value. -/
theorem value_kept (later : a ≤ b) {k : κ} (quiet : ∀ e ∈ feed.between a b, feed.key e ≠ k) :
    feed.value b k = feed.value a k := by
  by_contra changed
  obtain ⟨e,member,same⟩ := feed.announces later k changed
  exact quiet e member same

end Feed

namespace Current
variable {feed} {t a b : Nat} {read read' : α → Prop} {copy copy' : κ → ν}

/-- A copy stays current when the reader fetches each key it comes to at some time
    from when it looked at the log, and reads nothing that was logged since. -/
theorem refresh (current : Current feed a read copy) (later : a ≤ b)
    (unread : ∀ e ∈ feed.between a b, ¬ read' e)
    (fetched : ∀ e ∈ feed.log a, read' e → ¬ read e → ∃ τ, a ≤ τ ∧ τ ≤ b ∧ copy' (feed.key e) = feed.value τ (feed.key e))
    (kept : ∀ k, (∀ e ∈ feed.log a, feed.key e = k → read e) → copy' k = copy k) :
    Current feed b read' copy' := by
  intro k all
  have quiet : ∀ e ∈ feed.between a b, feed.key e ≠ k := by
    intro e member same
    exact unread e member (all e (Feed.mem_log_of_between later member) same)
  have reads : ∀ e ∈ feed.log a, feed.key e = k → read' e := by
    intro e member same
    refine all e ?_ same
    rw [Feed.log_between later]
    exact List.mem_append_left _ member
  by_cases came : ∃ e ∈ feed.log a, feed.key e = k ∧ ¬ read e
  · obtain ⟨e,member,rfl,before⟩ := came
    obtain ⟨τ,first,second,told⟩ := fetched e member (reads e member rfl) before
    rw [told,Feed.value_kept second]
    intro other between
    exact quiet other (Feed.between_of_later first second between)
  · have earlier : ∀ e ∈ feed.log a, feed.key e = k → read e := by
      intro e member same
      by_contra before
      exact came ⟨e,member,same,before⟩
    rw [kept k earlier,Feed.value_kept later quiet]
    exact current k earlier

/-- Time passes: what is logged meanwhile is unread. -/
theorem wait (current : Current feed a read copy) (later : a ≤ b) (unread : ∀ e ∈ feed.between a b, ¬ read e) :
    Current feed b read copy :=
  current.refresh later unread (fun _ _ now before => absurd now before) (fun _ _ => rfl)

end Current

end Helix.Changelog
