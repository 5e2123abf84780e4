import Mathlib.Data.List.Basic
import Mathlib.Data.Int.Notation
import Mathlib.Logic.Function.Basic

set_option autoImplicit false

namespace OwnerCount

variable {A : Type*}

theorem set_same {l : List A} {k : ℕ} {a : A} (hk : l[k]? = some a) : l.set k a = l := by
  obtain ⟨hlt, rfl⟩ := List.getElem?_eq_some_iff.mp hk
  exact List.set_getElem_self hlt

theorem set_null {l : List (Option A)} {k : ℕ} (hk : (l[k]?).join = none) : l.set k none = l := by
  by_cases hlt : k < l.length
  · have hget := List.getElem?_eq_getElem hlt
    rw [hget] at hk
    exact set_same (hget.trans (congrArg some hk))
  · exact List.set_eq_of_length_le (Nat.not_lt.mp hlt)

variable {I : Type*} [DecidableEq I]

/-- The count of every object is the number of places that own it. -/
def Counts (owners : List (Option I)) (count : I → ℤ) : Prop :=
  ∀ i, count i = (owners.count (some i) : ℤ)

variable {owners : List (Option I)} {count : I → ℤ} {i : I} {k j : ℕ}

theorem Counts.owned_iff (h : Counts owners count) (i : I) : some i ∈ owners ↔ count i ≠ 0 := by
  rw [h i, ← List.count_pos_iff]
  omega

theorem Counts.nonneg (h : Counts owners count) (i : I) : 0 ≤ count i := by
  rw [h i]
  exact Int.natCast_nonneg _

theorem counts_push : Counts (owners ++ [none]) count ↔ Counts owners count := by
  have hsame : ∀ i, (owners ++ [none]).count (some i) = owners.count (some i) := by simp
  unfold Counts
  simp only [hsame]

theorem count_set_owner {o o' : Option I} (hk : owners[k]? = some o) (i : I) :
    ((owners.set k o').count (some i) : ℤ) =
      owners.count (some i) - (if o = some i then 1 else 0) + if o' = some i then 1 else 0 := by
  obtain ⟨hlt, hget⟩ := List.getElem?_eq_some_iff.mp hk
  have hpos : o = some i → 0 < owners.count (some i) := fun ho =>
    List.count_pos_iff.mpr (ho ▸ List.mem_of_getElem? hk)
  rw [List.count_set hlt, hget]
  simp only [beq_iff_eq]
  split
  · next ho =>
    have := hpos ho
    split <;> push_cast <;> omega
  · split <;> simp

theorem Counts.take (h : Counts owners count) (hk : owners[k]? = some none) (i : I) :
    Counts (owners.set k (some i)) (Function.update count i (count i + 1)) := by
  intro i'
  rw [count_set_owner hk, Function.update_apply, h i, h i']
  by_cases hi : i' = i
  · simp [hi]
  · simp [hi, Ne.symm hi]

theorem Counts.drop (h : Counts owners count) (hk : owners[k]? = some (some i)) :
    Counts (owners.set k none) (Function.update count i (count i - 1)) := by
  intro i'
  rw [count_set_owner hk, Function.update_apply, h i, h i']
  by_cases hi : i' = i
  · simp [hi]
  · simp [hi, Ne.symm hi]

theorem Counts.move (h : Counts owners count) {o : Option I} (hk : owners[k]? = some none)
    (hj : owners[j]? = some o) (hne : k ≠ j) : Counts ((owners.set k o).set j none) count := by
  intro i
  have hset : (owners.set k o)[j]? = some o := by
    rw [List.getElem?_set_ne hne]
    exact hj
  rw [count_set_owner hset, count_set_owner hk, h i]
  simp

/-- Owners own what was made, and the deleted objects are those that nothing owns any more. -/
structure Lifetimes (owners : List (Option I)) (count : I → ℤ) (made deleted : I → Prop) : Prop where
  counts : Counts owners count
  known : ∀ i, some i ∈ owners → made i
  gone : ∀ i, deleted i ↔ made i ∧ some i ∉ owners

section Lifetimes
variable {owners' : List (Option I)} {count' : I → ℤ} {made deleted made' deleted' : I → Prop}

theorem owned_congr (h : Counts owners count) (h' : Counts owners' count') (hi : count' i = count i) :
    some i ∈ owners' ↔ some i ∈ owners := by
  rw [h.owned_iff, h'.owned_iff, hi]

theorem Lifetimes.congr (h : Lifetimes owners count made deleted) (hcount : ∀ i, count' i = count i)
    (hmade : ∀ i, made' i ↔ made i) (hdeleted : ∀ i, deleted' i ↔ deleted i) :
    Lifetimes owners count' made' deleted' where
  counts i := (hcount i).trans (h.counts i)
  known i hi := (hmade i).mpr (h.known i hi)
  gone i := by rw [hdeleted i, hmade i, h.gone i]

theorem Lifetimes.recount (h : Lifetimes owners count made deleted) (counts : Counts owners' count')
    (owned : ∀ i, some i ∈ owners' ↔ some i ∈ owners) : Lifetimes owners' count' made deleted where
  counts := counts
  known i hi := h.known i ((owned i).mp hi)
  gone i := by rw [owned i, h.gone i]

theorem lifetimes_push :
    Lifetimes (owners ++ [none]) count made deleted ↔ Lifetimes owners count made deleted := by
  have howned : ∀ i, some i ∈ owners ++ [none] ↔ some i ∈ owners := by simp
  constructor
  · intro h
    exact h.recount (counts_push.mp h.counts) fun i => (howned i).symm
  · intro h
    exact h.recount (counts_push.mpr h.counts) howned

theorem Lifetimes.take (h : Lifetimes owners count made deleted) (hk : owners[k]? = some none)
    (hi : some i ∈ owners) :
    Lifetimes (owners.set k (some i)) (Function.update count i (count i + 1)) made deleted := by
  have hcounts := h.counts.take hk i
  refine h.recount hcounts fun i' => ?_
  by_cases heq : i' = i
  · subst heq
    exact iff_of_true (List.mem_set (List.getElem?_eq_some_iff.mp hk).1 _) hi
  · exact owned_congr h.counts hcounts (Function.update_of_ne heq _ _)

theorem Lifetimes.move (h : Lifetimes owners count made deleted) {o : Option I}
    (hk : owners[k]? = some none) (hj : owners[j]? = some o) (hne : k ≠ j) :
    Lifetimes ((owners.set k o).set j none) count made deleted := by
  have hcounts := h.counts.move hk hj hne
  exact h.recount hcounts fun i => owned_congr h.counts hcounts rfl

/-- The object of a place that is dropped is deleted if its count is 0 then. -/
theorem Lifetimes.drop (h : Lifetimes owners count made deleted) (hk : owners[k]? = some (some i)) :
    0 ≤ count i - 1 ∧ Lifetimes (owners.set k none) (Function.update count i (count i - 1)) made
      fun i' => deleted i' ∨ i' = i ∧ count i - 1 = 0 := by
  have hi : some i ∈ owners := List.mem_of_getElem? hk
  have hcounts := h.counts.drop hk
  have hself := hcounts.owned_iff i
  have hnonneg := hcounts.nonneg i
  rw [Function.update_self] at hself hnonneg
  have hother : ∀ i', i' ≠ i → (some i' ∈ owners.set k none ↔ some i' ∈ owners) := fun i' hne =>
    owned_congr h.counts hcounts (Function.update_of_ne hne _ _)
  refine ⟨hnonneg, hcounts, fun i' hi' => ?_, fun i' => ?_⟩
  · by_cases heq : i' = i
    · exact heq ▸ h.known i hi
    · exact h.known i' ((hother i' heq).mp hi')
  · by_cases heq : i' = i
    · subst heq
      have hold : ¬ deleted i' := fun hd => ((h.gone i').mp hd).2 hi
      simp only [hold, false_or, true_and, hself, h.known i' hi, not_not]
    · rw [hother i' heq, h.gone i']
      simp [heq]

theorem Lifetimes.make (h : Lifetimes owners count made deleted) (hk : owners[k]? = some none)
    (hi : ¬ made i) : Lifetimes (owners.set k (some i)) (Function.update count i 1)
      (fun i' => made i' ∨ i' = i) deleted := by
  have hfree : some i ∉ owners := fun hmem => hi (h.known i hmem)
  have hzero : count i = 0 := not_not.mp (mt (h.counts.owned_iff i).mpr hfree)
  have hcounts := h.counts.take hk i
  rw [hzero] at hcounts
  have hself : some i ∈ owners.set k (some i) := List.mem_set (List.getElem?_eq_some_iff.mp hk).1 _
  have hother : ∀ i', i' ≠ i → (some i' ∈ owners.set k (some i) ↔ some i' ∈ owners) := fun i' hne =>
    owned_congr h.counts hcounts (Function.update_of_ne hne _ _)
  refine ⟨hcounts, fun i' hi' => ?_, fun i' => ?_⟩
  · by_cases heq : i' = i
    · exact Or.inr heq
    · exact Or.inl (h.known i' ((hother i' heq).mp hi'))
  · by_cases heq : i' = i
    · subst heq
      exact iff_of_false (fun hd => hi ((h.gone i').mp hd).1) fun hgone => hgone.2 hself
    · rw [hother i' heq, h.gone i']
      simp [heq]

end Lifetimes

end OwnerCount
