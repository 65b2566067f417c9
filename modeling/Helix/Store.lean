import Mathlib.Algebra.BigOperators.Group.Finset.Basic
import Mathlib.Algebra.Order.BigOperators.Group.Finset
import Mathlib.Data.Int.Order.Basic

/-!
Finite keyed stores and the totals over them. A store carries the finite set of
the keys it holds together with its lookup, so two stores with the same lookups
are equal (`Store.ext`). A total adds up a measure of every stored value;
writing or removing one key moves it by the difference at that key only
(`total_set`, `total_remove`).
-/
namespace Helix

/-- A finite map: what is stored under each key, and which keys are in use. -/
structure Store (κ ν : Type) where
  get : κ → Option ν
  keys : Finset κ
  mem_keys : ∀ k, k ∈ keys ↔ (get k).isSome = true

namespace Store
variable {κ ν : Type}

@[ext] theorem ext {a b : Store κ ν} (same : ∀ k, a.get k = b.get k) : a = b := by
  obtain ⟨getA,keysA,memA⟩ := a
  obtain ⟨getB,keysB,memB⟩ := b
  have lookups : getA = getB := funext same
  subst lookups
  have keys : keysA = keysB := by
    ext k
    rw [memA,memB]
  subst keys
  rfl

/-- Nothing is stored. -/
def empty : Store κ ν := ⟨fun _ => none,∅,by simp⟩

@[simp] theorem get_empty (k : κ) : (empty : Store κ ν).get k = none := rfl
@[simp] theorem keys_empty : (empty : Store κ ν).keys = ∅ := rfl

/-- A measure of what is stored under a key; nothing stored weighs nothing. -/
def weight (s : Store κ ν) (f : ν → Int) (k : κ) : Int := ((s.get k).map f).getD 0
/-- The sum of a measure over all stored values. -/
def total (s : Store κ ν) (f : ν → Int) : Int := ∑ k ∈ s.keys, s.weight f k

theorem weight_of_get {s : Store κ ν} {f : ν → Int} {k : κ} {v : ν} (found : s.get k = some v) :
    s.weight f k = f v := by
  simp [weight,found]

theorem weight_absent {s : Store κ ν} {f : ν → Int} {k : κ} (absent : k ∉ s.keys) : s.weight f k = 0 := by
  rw [s.mem_keys] at absent
  cases found : s.get k with
  | none => simp [weight,found]
  | some v => simp [found] at absent

@[simp] theorem total_empty (f : ν → Int) : (empty : Store κ ν).total f = 0 := rfl

/-! ### Writing and removing a key -/

variable [DecidableEq κ]

def set (s : Store κ ν) (k : κ) (v : ν) : Store κ ν where
  get := fun j => if j = k then some v else s.get j
  keys := insert k s.keys
  mem_keys := by
    intro j
    by_cases same : j = k
    · simp [same]
    · simp [same,s.mem_keys]

def remove (s : Store κ ν) (k : κ) : Store κ ν where
  get := fun j => if j = k then none else s.get j
  keys := s.keys.erase k
  mem_keys := by
    intro j
    by_cases same : j = k
    · simp [same]
    · simp [same,s.mem_keys]

@[simp] theorem get_set_same (s : Store κ ν) (k : κ) (v : ν) : (s.set k v).get k = some v := by
  simp [set]
theorem get_set (s : Store κ ν) (k j : κ) (v : ν) : (s.set k v).get j = if j = k then some v else s.get j := rfl
theorem get_set_other (s : Store κ ν) {k j : κ} (v : ν) (other : j ≠ k) : (s.set k v).get j = s.get j := by
  simp [set,other]
@[simp] theorem get_remove_same (s : Store κ ν) (k : κ) : (s.remove k).get k = none := by
  simp [remove]
theorem get_remove (s : Store κ ν) (k j : κ) : (s.remove k).get j = if j = k then none else s.get j := rfl
theorem get_remove_other (s : Store κ ν) {k j : κ} (other : j ≠ k) : (s.remove k).get j = s.get j := by
  simp [remove,other]

/-! ### Totals -/

theorem weight_set (s : Store κ ν) (f : ν → Int) (k j : κ) (v : ν) :
    (s.set k v).weight f j = if j = k then f v else s.weight f j := by
  by_cases same : j = k <;> simp [weight,get_set,same]

theorem weight_remove (s : Store κ ν) (f : ν → Int) (k j : κ) :
    (s.remove k).weight f j = if j = k then 0 else s.weight f j := by
  by_cases same : j = k <;> simp [weight,get_remove,same]

/-- The total apart from one key. -/
theorem total_split (s : Store κ ν) (f : ν → Int) (k : κ) :
    s.total f = s.weight f k + ∑ j ∈ s.keys.erase k, s.weight f j := by
  by_cases stored : k ∈ s.keys
  · exact (Finset.add_sum_erase s.keys (s.weight f) stored).symm
  · rw [weight_absent stored,zero_add,Finset.erase_eq_of_notMem stored]
    rfl

theorem total_set (s : Store κ ν) (f : ν → Int) (k : κ) (v : ν) :
    (s.set k v).total f = s.total f - s.weight f k + f v := by
  have rest : ∑ j ∈ (s.set k v).keys.erase k, (s.set k v).weight f j = ∑ j ∈ s.keys.erase k, s.weight f j := by
    have keys : (s.set k v).keys.erase k = s.keys.erase k := by simp [set]
    rw [keys]
    apply Finset.sum_congr rfl
    intro j member
    rw [weight_set,if_neg (Finset.ne_of_mem_erase member)]
  rw [total_split (s.set k v) f k,total_split s f k,rest,weight_set,if_pos rfl]
  omega

theorem total_remove (s : Store κ ν) (f : ν → Int) (k : κ) :
    (s.remove k).total f = s.total f - s.weight f k := by
  have rest : (s.remove k).total f = ∑ j ∈ s.keys.erase k, s.weight f j := by
    apply Finset.sum_congr rfl
    intro j member
    rw [weight_remove,if_neg (Finset.ne_of_mem_erase member)]
  rw [rest,total_split s f k]
  omega

/-- Where nothing weighs less than nothing, no key weighs more than the total. -/
theorem weight_le_total {s : Store κ ν} {f : ν → Int} (nonneg : ∀ k, 0 ≤ s.weight f k) (k : κ) :
    s.weight f k ≤ s.total f := by
  rw [total_split s f k]
  have rest : 0 ≤ ∑ j ∈ s.keys.erase k, s.weight f j := Finset.sum_nonneg (fun j _ => nonneg j)
  omega

/-- Two different keys together weigh no more than the total. -/
theorem two_weights_le_total {s : Store κ ν} {f : ν → Int} (nonneg : ∀ k, 0 ≤ s.weight f k) {j k : κ}
    (different : j ≠ k) : s.weight f j + s.weight f k ≤ s.total f := by
  have bound := weight_le_total (s := s.remove k) (f := f) (fun i => by
    rw [weight_remove]
    split
    · exact le_rfl
    · exact nonneg i) j
  rw [weight_remove,if_neg different,total_remove] at bound
  omega

end Store
end Helix
