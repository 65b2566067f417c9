import Mathlib.Data.List.Basic
import Mathlib.Data.List.Pairwise
import Mathlib.Data.List.Nodup

/-!
Reading an ordered list in pages. A page is the first so many items from a place
on, and a reader that goes on behind the place of a page's last item sees
everything up to there exactly when no page stops inside a place
(`mem_page_of_whole`).
-/
namespace Helix.Pages
variable {α : Type} (place : α → Nat)

/-- The first items from a place on. -/
def page (start limit : Nat) (items : List α) : List α :=
  (items.filter (fun a => decide (start ≤ place a))).take limit

/-- A page holds all items of its last place. -/
def Whole (items page : List α) : Prop :=
  ∀ last ∈ page.getLast?, ∀ a ∈ items, place a = place last → a ∈ page

variable {place} {start limit : Nat} {items : List α} {a last : α}

theorem mem_of_mem_page (member : a ∈ page place start limit items) : a ∈ items ∧ start ≤ place a := by
  have found := List.mem_of_mem_take member
  simpa using found

/-- Nothing in a page is placed behind its last item. -/
theorem le_last (sorted : items.Pairwise (fun a b => place a ≤ place b))
    (ends : last ∈ (page place start limit items).getLast?) (member : a ∈ page place start limit items) :
    place a ≤ place last := by
  have ordered : (page place start limit items).Pairwise (fun a b => place a ≤ place b) := (sorted.filter _).take
  obtain ⟨before,split⟩ := List.getLast?_eq_some_iff.mp ends
  rw [split] at ordered member
  rcases List.mem_append.mp member with earlier | same
  · exact (List.pairwise_append.mp ordered).2.2 a earlier last (List.mem_singleton_self _)
  · exact Nat.le_of_eq (congrArg place (List.mem_singleton.mp same))

/-- Behind the last item of a page nothing is placed before it. -/
theorem mem_page_of_lt (sorted : items.Pairwise (fun a b => place a ≤ place b))
    (ends : last ∈ (page place start limit items).getLast?) (member : a ∈ items) (from_start : start ≤ place a)
    (below : place a < place last) : a ∈ page place start limit items := by
  have listed : a ∈ items.filter (fun a => decide (start ≤ place a)) := by
    simp [member,from_start]
  have ordered := sorted.filter (fun a => decide (start ≤ place a))
  unfold page at ends ⊢
  rw [← List.take_append_drop limit (items.filter _)] at listed ordered
  rcases List.mem_append.mp listed with taken | left
  · exact taken
  · have later := (List.pairwise_append.mp ordered).2.2 last (List.mem_of_getLast? ends) a left
    omega

/-- A whole page holds everything between its start and the place of its last item. -/
theorem mem_page_of_whole (sorted : items.Pairwise (fun a b => place a ≤ place b))
    (whole : Whole place items (page place start limit items))
    (ends : last ∈ (page place start limit items).getLast?) (member : a ∈ items) (from_start : start ≤ place a)
    (until_last : place a ≤ place last) : a ∈ page place start limit items := by
  rcases Nat.lt_or_eq_of_le until_last with below | same
  · exact mem_page_of_lt sorted ends member from_start below
  · exact whole last ends a member same

/-- A page that is long enough for everything is whole. -/
theorem whole_of_short (short : items.length ≤ limit) : Whole place items (page place start limit items) := by
  have all : page place start limit items = items.filter (fun a => decide (start ≤ place a)) :=
    List.take_of_length_le (Nat.le_trans (List.length_filter_le _ _) short)
  intro last ends a member same
  have final := (mem_of_mem_page (List.mem_of_getLast? ends)).2
  rw [all]
  exact List.mem_filter.mpr ⟨member,decide_eq_true (by omega)⟩

/-- An empty page of a reader that asks for something means nothing is there. -/
theorem page_empty (asks : 0 < limit) (empty : page place start limit items = []) (member : a ∈ items) :
    place a < start := by
  unfold page at empty
  rw [List.take_eq_nil_iff] at empty
  rcases empty with none | none
  · omega
  · have outside := List.filter_eq_nil_iff.mp none a member
    simpa using outside

/-- What is placed behind a page is less than what was there by the page. -/
theorem behind_page (sorted : items.Pairwise (fun a b => place a ≤ place b))
    (ends : last ∈ (page place start limit items).getLast?) :
    (items.filter (fun a => decide (place last < place a))).length ≤
      (items.filter (fun a => decide (start ≤ place a))).length - limit := by
  have final := (mem_of_mem_page (List.mem_of_getLast? ends)).2
  have within : items.filter (fun a => decide (place last < place a)) =
      (items.filter (fun a => decide (start ≤ place a))).filter (fun a => decide (place last < place a)) := by
    rw [List.filter_filter]
    refine List.filter_congr (fun a _ => ?_)
    by_cases behind : place last < place a
    · simp [behind,Nat.le_trans final (Nat.le_of_lt behind)]
    · simp [behind]
  have taken : (page place start limit items).filter (fun a => decide (place last < place a)) = [] := by
    rw [List.filter_eq_nil_iff]
    intro a member
    have before := le_last sorted ends member
    simp only [decide_eq_true_eq]
    omega
  rw [page] at taken
  rw [within,← List.take_append_drop limit (items.filter (fun a => decide (start ≤ place a))),List.filter_append,taken,
    List.nil_append,List.take_append_drop,← List.length_drop]
  exact List.length_filter_le _ _

end Helix.Pages
