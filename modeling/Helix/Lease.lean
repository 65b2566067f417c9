import Mathlib.Logic.Basic

/-!
Temporary entries that live until a ledger. An entry is there while the ledger
has not passed its last one; writing over a live entry keeps its last ledger,
and extending it moves its last ledger only when few ledgers remain.
-/
namespace Helix

/-- A stored value and the last ledger it lives in. -/
structure Lease (α : Type) where
  value : α
  live_until : Nat

namespace Lease
variable {α : Type}

/-- What an entry holds at a ledger. -/
def read (now : Nat) (entry : Option (Lease α)) : Option α :=
  match entry with
  | some lease => if now ≤ lease.live_until then some lease.value else none
  | none => none

/-- Write an entry: a new one lives for the least time, a live one as long as
    it did. -/
def set (now least : Nat) (entry : Option (Lease α)) (value : α) : Lease α :=
  match entry with
  | some lease => if now ≤ lease.live_until then ⟨value,lease.live_until⟩ else ⟨value,now + least - 1⟩
  | none => ⟨value,now + least - 1⟩

/-- Extend an entry whose remaining ledgers are below the threshold. -/
def extend_ttl (now threshold bump : Nat) (lease : Lease α) : Lease α :=
  if lease.live_until - now < threshold then ⟨lease.value,now + bump⟩ else lease

@[simp] theorem set_value (now least : Nat) (entry : Option (Lease α)) (value : α) :
    (set now least entry value).value = value := by
  unfold set
  split
  · split <;> rfl
  · rfl

@[simp] theorem extend_ttl_value (now threshold bump : Nat) (lease : Lease α) :
    (extend_ttl now threshold bump lease).value = lease.value := by
  unfold extend_ttl
  split <;> rfl

/-- The last ledger of a written entry depends on that of the entry it is written
    over only. -/
theorem set_lives {β : Type} {now least : Nat} {left : Option (Lease α)} {right : Option (Lease β)} {a : α} {b : β}
    (lives : left.map live_until = right.map live_until) :
    (set now least left a).live_until = (set now least right b).live_until := by
  cases left with
  | none =>
    cases right with
    | none => rfl
    | some right => cases lives
  | some left =>
    cases right with
    | none => cases lives
    | some right =>
      have same : left.live_until = right.live_until := by simpa using lives
      simp only [set,same]
      split <;> rfl

theorem extend_ttl_lives {β : Type} {now threshold bump : Nat} {left : Lease α} {right : Lease β}
    (lives : left.live_until = right.live_until) :
    (extend_ttl now threshold bump left).live_until = (extend_ttl now threshold bump right).live_until := by
  simp only [extend_ttl,lives]
  split
  · rfl
  · exact lives

theorem read_some {now : Nat} {entry : Option (Lease α)} {value : α} (live : read now entry = some value) :
    ∃ lease, entry = some lease ∧ lease.value = value ∧ now ≤ lease.live_until := by
  unfold read at live
  split at live
  · split at live
    · rename_i lease inside
      exact ⟨lease,rfl,by simpa using live,inside⟩
    · cases live
  · cases live

end Lease
end Helix
