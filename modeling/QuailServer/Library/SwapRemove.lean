import Mathlib.Data.List.Perm.Basic

set_option autoImplicit false

namespace SwapRemove

variable {A : Type*}

def swapRemove (xs : List A) (i : ℕ) : List A :=
  match xs.getLast? with
  | some last => (xs.set i last).dropLast
  | none => []

theorem swapRemove_concat (init : List A) (last : A) (i : ℕ) :
    swapRemove (init ++ [last]) i = init.set i last := by
  unfold swapRemove
  rw [List.getLast?_append, List.getLast?_singleton, Option.some_or]
  change ((init ++ [last]).set i last).dropLast = init.set i last
  rw [List.set_append]
  split
  · rw [List.dropLast_concat]
  · rename_i hi
    have hone : [last].set (i - init.length) last = [last] := by
      cases i - init.length <;> rfl
    rw [hone, List.dropLast_concat, List.set_eq_of_length_le (by omega)]

theorem set_perm {xs : List A} {i : ℕ} {x : A} (found : xs[i]? = some x) (y : A) :
    (y :: xs).Perm (x :: xs.set i y) := by
  induction xs generalizing i with
  | nil => simp at found
  | cons z xs ih =>
    cases i with
    | zero =>
      obtain rfl : z = x := by simpa using found
      exact List.Perm.swap ..
    | succ i =>
      have hrest : (y :: xs).Perm (x :: xs.set i y) := ih (by simpa using found)
      calc (y :: z :: xs).Perm (z :: y :: xs) := List.Perm.swap ..
        _ |>.Perm (z :: x :: xs.set i y) := hrest.cons z
        _ |>.Perm (x :: z :: xs.set i y) := List.Perm.swap ..

theorem swapRemove_perm {xs : List A} {i : ℕ} {x : A} (found : xs[i]? = some x) :
    xs.Perm (x :: swapRemove xs i) := by
  obtain rfl | ⟨init, last, rfl⟩ := List.eq_nil_or_concat xs
  · simp at found
  rw [List.concat_eq_append] at found ⊢
  rw [swapRemove_concat]
  have hcomm : (init ++ [last]).Perm (last :: init) := List.perm_append_singleton last init
  obtain hi | hi := Nat.lt_or_ge i init.length
  · rw [List.getElem?_append_left hi] at found
    exact hcomm.trans (set_perm found last)
  · have heq : i - init.length = 0 := by
      by_contra hne
      rw [List.getElem?_append_right hi, List.getElem?_eq_none (by simp; omega)] at found
      cases found
    rw [List.getElem?_append_right hi, heq] at found
    obtain rfl : last = x := by simpa using found
    rwa [List.set_eq_of_length_le hi]

/-- What stands at an index afterwards stood there before, or was last and has moved. -/
theorem swapRemove_getElem? {xs : List A} {i j : ℕ} {x : A}
    (found : (swapRemove xs i)[j]? = some x) :
    (j ≠ i ∧ xs[j]? = some x) ∨ (j = i ∧ xs.getLast? = some x) := by
  obtain rfl | ⟨init, last, rfl⟩ := List.eq_nil_or_concat xs
  · simp [swapRemove] at found
  rw [List.concat_eq_append, swapRemove_concat] at *
  rw [List.getElem?_set] at found
  split at found
  · rename_i hij
    right
    split at found
    · exact ⟨hij.symm, by simpa using found⟩
    · cases found
  · rename_i hij
    left
    have hj : j < init.length := (List.getElem?_eq_some_iff.mp found).1
    exact ⟨fun h => hij h.symm, by rwa [List.getElem?_append_left hj]⟩

theorem swapRemove_length {xs : List A} {i : ℕ} (hi : i < xs.length) :
    (swapRemove xs i).length + 1 = xs.length := by
  have h := (swapRemove_perm (List.getElem?_eq_getElem hi)).length_eq
  rw [List.length_cons] at h
  exact h.symm

end SwapRemove
