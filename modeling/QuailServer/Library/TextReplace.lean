import QuailServer.Library.TextSearch

set_option autoImplicit false

namespace TextReplace

variable {α : Type*} [DecidableEq α]

/-- The new list and the number of replacements. The first `skip` elements belong to the
    occurrence that was replaced last. -/
def replaceFrom (old new : List α) : ℕ → List α → List α × ℕ
  | _, [] => ([], 0)
  | skip + 1, _ :: s => replaceFrom old new skip s
  | 0, c :: s =>
    if old ≠ [] ∧ old.isPrefixOf (c :: s) then
      let rest := replaceFrom old new (old.length - 1) s
      (new ++ rest.1, rest.2 + 1)
    else
      let rest := replaceFrom old new 0 s
      (c :: rest.1, rest.2)

def replaceAll (old new s : List α) : List α × ℕ := replaceFrom old new 0 s

variable {old : List α} {c : α}

theorem replaceFrom_skip (old new p s : List α) :
    replaceFrom old new p.length (p ++ s) = replaceAll old new s := by
  induction p with
  | nil => rfl
  | cons x p ih => exact ih

theorem replaceAll_here (c : α) (old new s : List α) :
    replaceAll (c :: old) new (c :: old ++ s) =
      (new ++ (replaceAll (c :: old) new s).1, (replaceAll (c :: old) new s).2 + 1) := by
  have hprefix : (c :: old).isPrefixOf (c :: (old ++ s)) = true :=
    List.isPrefixOf_iff_prefix.mpr (List.prefix_append (c :: old) s)
  have hrest := replaceFrom_skip (c :: old) new old s
  change replaceFrom (c :: old) new 0 (c :: (old ++ s)) = _
  rw [replaceFrom, if_pos ⟨List.cons_ne_nil c old, hprefix⟩, List.length_cons,
    Nat.add_sub_cancel, hrest]

theorem replaceAll_other {s : List α} (h : ¬ old <+: c :: s) (new : List α) :
    replaceAll old new (c :: s) = (c :: (replaceAll old new s).1, (replaceAll old new s).2) := by
  have hother : ¬ (old ≠ [] ∧ old.isPrefixOf (c :: s) = true) :=
    fun hp => h (List.isPrefixOf_iff_prefix.mp hp.2)
  unfold replaceAll
  rw [replaceFrom, if_neg hother]

theorem replaceAll_absent {p : List α} (absent : c ∉ p) (old new s : List α) :
    replaceAll (c :: old) new (p ++ s) =
      (p ++ (replaceAll (c :: old) new s).1, (replaceAll (c :: old) new s).2) := by
  induction p with
  | nil => rfl
  | cons x p ih =>
    obtain ⟨hne, hrest⟩ := not_or.mp (List.mem_cons.not.mp absent)
    have hother : ¬ (c :: old) <+: x :: (p ++ s) := fun hp => hne (List.cons_prefix_cons.mp hp).1
    rw [List.cons_append, replaceAll_other hother, ih hrest]
    rfl

end TextReplace
