import Mathlib.Data.List.Basic

set_option autoImplicit false

namespace History

variable {E : Type*} {P : List E → E → Prop}

/-- `P` holds of every entry, given `pre` and the entries before it. -/
def Holds (P : List E → E → Prop) : List E → List E → Prop
  | _, [] => True
  | pre, e :: es => P pre e ∧ Holds P (pre ++ [e]) es

theorem holds_append (pre xs ys : List E) :
    Holds P pre (xs ++ ys) ↔ Holds P pre xs ∧ Holds P (pre ++ xs) ys := by
  induction xs generalizing pre with
  | nil => simp [Holds]
  | cons x xs ih => simp [Holds, ih, List.append_assoc, and_assoc]

theorem holds_of_all {pre es : List E} (h : ∀ e ∈ es, ∀ before, P before e) : Holds P pre es := by
  induction es generalizing pre with
  | nil => trivial
  | cons e es ih =>
    exact ⟨h e List.mem_cons_self pre, ih fun e' he' => h e' (List.mem_cons_of_mem e he')⟩

theorem Holds.imp {Q : List E → E → Prop} (h : ∀ before e, P before e → Q before e) {pre es : List E}
    (hp : Holds P pre es) : Holds Q pre es := by
  induction es generalizing pre with
  | nil => trivial
  | cons e es ih => exact ⟨h pre e hp.1, ih hp.2⟩

theorem Holds.of_mem {pre es : List E} (h : Holds P pre es) {e : E} (he : e ∈ es) :
    ∃ before, P before e := by
  induction es generalizing pre with
  | nil => cases he
  | cons e' es ih =>
    rcases List.mem_cons.mp he with rfl | hmem
    · exact ⟨pre, h.1⟩
    · exact ih h.2 hmem

theorem Holds.and {Q : List E → E → Prop} {pre es : List E} (h : Holds P pre es) (k : Holds Q pre es) :
    Holds (fun before e => P before e ∧ Q before e) pre es := by
  induction es generalizing pre with
  | nil => trivial
  | cons e es ih => exact ⟨⟨h.1, k.1⟩, ih h.2 k.2⟩

theorem holds_prefix (pre es : List E) : Holds (fun before e => before ++ [e] <+: pre ++ es) pre es := by
  induction es generalizing pre with
  | nil => trivial
  | cons e es ih =>
    have happend : pre ++ e :: es = pre ++ [e] ++ es := by simp
    refine ⟨happend ▸ List.prefix_append _ _, ?_⟩
    rw [happend]
    exact ih (pre ++ [e])

variable {B : Type*}

/-- The results of all entries, each computed from the entries before it. -/
def collect (f : List E → E → List B) : List E → List E → List B
  | _, [] => []
  | pre, e :: es => f pre e ++ collect f (pre ++ [e]) es

theorem collect_append (f : List E → E → List B) (pre xs ys : List E) :
    collect f pre (xs ++ ys) = collect f pre xs ++ collect f (pre ++ xs) ys := by
  induction xs generalizing pre with
  | nil => simp [collect]
  | cons x xs ih => simp [collect, ih, List.append_assoc]

theorem collect_eq {f : List E → E → List B} {g : E → List B} {pre es : List E}
    (h : Holds (fun before e => f before e = g e) pre es) : collect f pre es = es.flatMap g := by
  induction es generalizing pre with
  | nil => rfl
  | cons e es ih =>
    rw [List.flatMap_cons, ← h.1, ← ih h.2]
    rfl

end History
