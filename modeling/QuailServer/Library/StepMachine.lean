import Mathlib.Data.List.Basic

set_option autoImplicit false

namespace StepMachine

variable {S L : Type*} (step : S → L → S)

def after (s : S) (labels : List L) : S := labels.foldl step s

/-- `P` holds of every step of the run, in the state the step is taken from. -/
def Each (P : S → L → Prop) : S → List L → Prop
  | _, [] => True
  | s, l :: ls => P s l ∧ Each P (step s l) ls

/-- `G` holds in every state of the run, the first and the last included. -/
def Always (G : S → Prop) : S → List L → Prop
  | s, [] => G s
  | s, l :: ls => G s ∧ Always G (step s l) ls

@[simp] theorem after_nil (s : S) : after step s [] = s := rfl

@[simp] theorem after_cons (s : S) (l : L) (ls : List L) :
    after step s (l :: ls) = after step (step s l) ls := rfl

theorem after_append (s : S) (xs ys : List L) :
    after step s (xs ++ ys) = after step (after step s xs) ys :=
  List.foldl_append

theorem after_concat (s : S) (ls : List L) (l : L) :
    after step s (ls ++ [l]) = step (after step s ls) l := by
  rw [after_append, after_cons, after_nil]

variable {step}

theorem Each.and {P Q : S → L → Prop} {s : S} {ls : List L}
    (hp : Each step P s ls) (hq : Each step Q s ls) : Each step (fun s l => P s l ∧ Q s l) s ls := by
  induction ls generalizing s with
  | nil => trivial
  | cons l ls ih => exact ⟨⟨hp.1, hq.1⟩, ih hp.2 hq.2⟩

theorem Each.congr {P Q : S → L → Prop} (h : ∀ s l, P s l ↔ Q s l) {s : S} {ls : List L} :
    Each step P s ls ↔ Each step Q s ls := by
  induction ls generalizing s with
  | nil => exact Iff.rfl
  | cons l ls ih => exact and_congr (h s l) ih

theorem after_filter {keep : L → Bool} {s : S} {ls : List L}
    (idle : Each step (fun s l => keep l = false → step s l = s) s ls) :
    after step s (ls.filter keep) = after step s ls := by
  induction ls generalizing s with
  | nil => rfl
  | cons l ls ih =>
    cases hkeep : keep l with
    | true =>
      rw [List.filter_cons_of_pos hkeep, after_cons, after_cons]
      exact ih idle.2
    | false =>
      have hstay : step s l = s := idle.1 hkeep
      rw [List.filter_cons_of_neg (by simp [hkeep]), after_cons, hstay]
      have hrest := idle.2
      rw [hstay] at hrest
      exact ih hrest

theorem Always.imp {G H : S → Prop} (h : ∀ s, G s → H s) {s : S} {ls : List L}
    (hg : Always step G s ls) : Always step H s ls := by
  induction ls generalizing s with
  | nil => exact h s hg
  | cons l ls ih => exact ⟨h s hg.1, ih hg.2⟩

theorem Always.last {G : S → Prop} {s : S} {ls : List L} (hg : Always step G s ls) :
    G (after step s ls) := by
  induction ls generalizing s with
  | nil => exact hg
  | cons l ls ih => exact ih hg.2

theorem always_append {G : S → Prop} {s : S} {xs ys : List L} :
    Always step G s (xs ++ ys) ↔ Always step G s xs ∧ Always step G (after step s xs) ys := by
  induction xs generalizing s with
  | nil =>
    refine ⟨fun h => ⟨?_, h⟩, And.right⟩
    cases ys with
    | nil => exact h
    | cons y ys => exact h.1
  | cons x xs ih => exact (and_congr_right fun _ => ih).trans and_assoc.symm

/-- The invariant rule: what holds at first and is kept by every step allowed by `P`
    holds throughout a run whose steps are all allowed. -/
theorem always_of_each {P : S → L → Prop} {I : S → Prop}
    (keep : ∀ s l, I s → P s l → I (step s l)) {s : S} {ls : List L}
    (init : I s) (each : Each step P s ls) : Always step I s ls := by
  induction ls generalizing s with
  | nil => exact init
  | cons l ls ih => exact ⟨init, ih (keep s l init each.1) each.2⟩

theorem invariant_after {I : S → Prop} (keep : ∀ s l, I s → I (step s l)) {s : S}
    (init : I s) (ls : List L) : I (after step s ls) := by
  induction ls generalizing s with
  | nil => exact init
  | cons l ls ih => exact ih (keep s l init)

theorem each_of_labels {Q : L → Prop} (s : S) {ls : List L} (labels : ∀ l ∈ ls, Q l) :
    Each step (fun _ l => Q l) s ls := by
  induction ls generalizing s with
  | nil => trivial
  | cons l ls ih =>
    exact ⟨labels l List.mem_cons_self, ih _ fun l' hl' => labels l' (List.mem_cons_of_mem l hl')⟩

theorem each_append {P : S → L → Prop} {s : S} {xs ys : List L} :
    Each step P s (xs ++ ys) ↔ Each step P s xs ∧ Each step P (after step s xs) ys := by
  induction xs generalizing s with
  | nil => exact (and_iff_right trivial).symm
  | cons x xs ih => exact (and_congr_right fun _ => ih).trans and_assoc.symm

theorem each_iff_split {P : S → L → Prop} {s : S} {ls : List L} : Each step P s ls ↔
    ∀ before l rest, ls = before ++ l :: rest → P (after step s before) l := by
  induction ls generalizing s with
  | nil => exact iff_of_true trivial fun before l rest h => absurd h.symm (by simp)
  | cons l ls ih =>
    constructor
    · rintro ⟨now, later⟩ before m rest h
      cases before with
      | nil =>
        obtain ⟨rfl, -⟩ := List.cons.inj h
        exact now
      | cons x before =>
        obtain ⟨rfl, htail⟩ := List.cons.inj h
        exact ih.mp later before m rest htail
    · intro h
      exact ⟨h [] l ls rfl, ih.mpr fun before m rest htail =>
        h (l :: before) m rest (congrArg (l :: ·) htail)⟩

theorem each_map {M : Type*} (label : M → L) {P : S → L → Prop} {s : S} {ms : List M} :
    Each step P s (ms.map label) ↔
      Each (fun s m => step s (label m)) (fun s m => P s (label m)) s ms := by
  induction ms generalizing s with
  | nil => exact Iff.rfl
  | cons m ms ih => exact and_congr_right fun _ => ih

theorem each_of_after {D : S → Prop} (down : ∀ s l, D (step s l) → D s) {s : S} {ls : List L}
    (last : D (after step s ls)) : D s ∧ Each step (fun s l => D (step s l)) s ls := by
  induction ls generalizing s with
  | nil => exact ⟨last, trivial⟩
  | cons l ls ih =>
    obtain ⟨now, rest⟩ := ih last
    exact ⟨down s l now, now, rest⟩

/-- A property that a step cannot restore holds throughout if it holds at the end. -/
theorem always_iff_after {G : S → Prop} (down : ∀ s l, G (step s l) → G s) {s : S} {ls : List L} :
    Always step G s ls ↔ G (after step s ls) := by
  refine ⟨Always.last, fun last => ?_⟩
  induction ls generalizing s with
  | nil => exact last
  | cons l ls ih => exact ⟨(@each_of_after _ _ _ _ down _ (l :: ls) last).1, ih last⟩

theorem after_of_labels {I : S → Prop} {P : L → Prop} (keep : ∀ s l, P l → I s → I (step s l))
    {s : S} (init : I s) {ls : List L} (labels : ∀ l ∈ ls, P l) : I (after step s ls) :=
  (always_of_each (fun s l hs hl => keep s l hl hs) init (each_of_labels s labels)).last

/-- The exact condition for a property of all states, under an assumption `A` on the steps. `P`
    keeps the invariant, the invariant gives the property, and the first step outside `P` breaks
    the property. -/
theorem always_iff_each {A P : S → L → Prop} {I G : S → Prop} (good : ∀ s, I s → G s)
    (keep : ∀ s l, I s → A s l → P s l → I (step s l))
    (broken : ∀ s l, I s → A s l → ¬ P s l → ¬ G (step s l)) {s : S} (init : I s) {ls : List L}
    (assumed : Each step A s ls) : Always step G s ls ↔ Each step P s ls := by
  constructor
  · intro hg
    induction ls generalizing s with
    | nil => trivial
    | cons l ls ih =>
      have now : P s l := by
        by_contra hp
        refine broken s l init assumed.1 hp ?_
        cases ls with
        | nil => exact hg.2
        | cons l' ls => exact hg.2.1
      exact ⟨now, ih (keep s l init assumed.1 now) assumed.2 hg.2⟩
  · intro each
    exact (always_of_each (fun s l hs hl => keep s l hs hl.1 hl.2) init (assumed.and each)).imp good

/-- Two machines driven by the same labels keep a relation that every step keeps. -/
theorem simulation_after {T : Type*} {step' : T → L → T} {R : S → T → Prop} {P : L → Prop}
    (keep : ∀ s t l, P l → R s t → R (step s l) (step' t l)) {s : S} {t : T} (init : R s t)
    {ls : List L} (labels : ∀ l ∈ ls, P l) : R (after step s ls) (after step' t ls) := by
  induction ls generalizing s t with
  | nil => exact init
  | cons l ls ih =>
    exact ih (keep s t l (labels l List.mem_cons_self) init)
      fun l' hl' => labels l' (List.mem_cons_of_mem l hl')

theorem simulation_of_each {T : Type*} {step' : T → L → T} {R : S → T → Prop} {P : S → L → Prop}
    (keep : ∀ s t l, P s l → R s t → R (step s l) (step' t l)) {s : S} {t : T} (init : R s t)
    {ls : List L} (each : Each step P s ls) : R (after step s ls) (after step' t ls) := by
  induction ls generalizing s t with
  | nil => exact init
  | cons l ls ih => exact ih (keep s t l each.1 init) each.2

/-- The state in which the automaton is after the labels, if it takes all of them. -/
def follow {A : Type*} (next : A → L → Option A) (a : A) (ls : List L) : Option A := ls.foldlM next a

theorem follow_cons {A : Type*} (next : A → L → Option A) (a : A) (l : L) (ls : List L) :
    follow next a (l :: ls) = (next a l).bind fun a' => follow next a' ls := rfl

theorem follow_append {A : Type*} (next : A → L → Option A) (a : A) (xs ys : List L) :
    follow next a (xs ++ ys) = (follow next a xs).bind fun a' => follow next a' ys :=
  List.foldlM_append

theorem after_of_follow {A : Type*} {next : A → L → Option A} {R : S → A → Prop}
    (keep : ∀ s a l a', R s a → next a l = some a' → R (step s l) a') {s : S} {a last : A}
    (init : R s a) {ls : List L} (followed : follow next a ls = some last) :
    R (after step s ls) last := by
  induction ls generalizing s a with
  | nil => exact Option.some.inj followed ▸ init
  | cons l ls ih =>
    obtain ⟨a', hnext, hrest⟩ := Option.bind_eq_some_iff.mp followed
    exact ih (keep s a l a' init hnext) hrest

/-- A property holds in all states just if the automaton takes every label, when the steps that it
    takes keep a relation that gives the property, and the first that it refuses breaks it. -/
theorem always_iff_follow {A : Type*} {next : A → L → Option A} {R : S → A → Prop} {Q : S → L → Prop}
    {G : S → Prop} (good : ∀ s a, R s a → G s)
    (keep : ∀ s a l a', R s a → next a l = some a' → R (step s l) a')
    (broken : ∀ s a l, R s a → Q s l → next a l = none → ¬ G (step s l)) {s : S} {a : A}
    (init : R s a) {ls : List L} (assumed : Each step Q s ls) :
    Always step G s ls ↔ (follow next a ls).isSome = true := by
  induction ls generalizing s a with
  | nil => exact iff_of_true (good s a init) rfl
  | cons l ls ih =>
    rw [follow_cons]
    cases hnext : next a l with
    | none =>
      refine iff_of_false (fun hall => broken s a l init assumed.1 hnext ?_) Bool.false_ne_true
      cases ls with
      | nil => exact hall.2
      | cons l' ls => exact hall.2.1
    | some a' =>
      refine (and_iff_right (good s a init)).trans ?_
      exact ih (keep s a l a' init hnext) assumed.2

end StepMachine
