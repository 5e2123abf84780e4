import Mathlib.Data.List.Infix
import Mathlib.Data.Nat.Find

set_option autoImplicit false

namespace TextSearch

variable {α : Type*} [DecidableEq α]

/-- `find(c, start)` of a string. -/
def findFrom (c : α) (s : List α) (start : ℕ) : Option ℕ :=
  ((s.drop start).idxOf? c).map (start + ·)

def find (sub s : List α) : Option ℕ := (s.dropInfix? sub).map fun cut => cut.1.length

theorem idxOf?_append_cons {c : α} {xs : List α} (absent : c ∉ xs) (ys : List α) :
    (xs ++ c :: ys).idxOf? c = some xs.length := by
  induction xs with
  | nil => simp [List.idxOf?_cons]
  | cons x xs ih =>
    obtain ⟨hne, hrest⟩ := not_or.mp (List.mem_cons.not.mp absent)
    have hbeq : (x == c) = false := beq_false_of_ne (Ne.symm hne)
    simp [List.idxOf?_cons, hbeq, ih hrest]

theorem append_cons_inj {c : α} {xs xs' ys ys' : List α} (absent : c ∉ xs) (absent' : c ∉ xs')
    (h : xs ++ c :: ys = xs' ++ c :: ys') : xs = xs' ∧ ys = ys' := by
  have hidx : some xs.length = some xs'.length := by
    rw [← idxOf?_append_cons absent ys, h, idxOf?_append_cons absent' ys']
  obtain ⟨hxs, hys⟩ := List.append_inj h (Option.some.inj hidx)
  injection hys with _ hys
  exact ⟨hxs, hys⟩

/-- Texts without a separator, each followed by nothing or by the separator. -/
theorem append_separated_inj {c : α} {xs xs' ys ys' : List α} (absent : c ∉ xs) (absent' : c ∉ xs')
    (hys : ys = [] ∨ ys.head? = some c) (hys' : ys' = [] ∨ ys'.head? = some c) :
    xs ++ ys = xs' ++ ys' ↔ xs = xs' ∧ ys = ys' := by
  refine ⟨fun h => ?_, fun h => by rw [h.1, h.2]⟩
  rcases hys with rfl | hys
  · rcases hys' with rfl | hys'
    · rw [List.append_nil, List.append_nil] at h
      exact ⟨h, rfl⟩
    · obtain ⟨rest, rfl⟩ := List.head?_eq_some_iff.mp hys'
      rw [List.append_nil] at h
      exact absurd (h ▸ List.mem_append_right xs' List.mem_cons_self) absent
  · obtain ⟨rest, rfl⟩ := List.head?_eq_some_iff.mp hys
    rcases hys' with rfl | hys'
    · rw [List.append_nil] at h
      exact absurd (h ▸ List.mem_append_right xs List.mem_cons_self) absent'
    · obtain ⟨rest', rfl⟩ := List.head?_eq_some_iff.mp hys'
      obtain ⟨rfl, rfl⟩ := append_cons_inj absent absent' h
      exact ⟨rfl, rfl⟩

theorem takeWhile_append {c : α} {xs ys : List α} (absent : c ∉ xs)
    (hys : ys = [] ∨ ys.head? = some c) : (xs ++ ys).takeWhile (fun x => x != c) = xs := by
  have hxs : ∀ x ∈ xs, (x != c) = true := by
    intro x hx
    refine bne_iff_ne.mpr ?_
    rintro rfl
    exact absent hx
  have hrest : ys.takeWhile (fun x => x != c) = [] := by
    rcases hys with rfl | hys
    · rfl
    · obtain ⟨rest, rfl⟩ := List.head?_eq_some_iff.mp hys
      exact List.takeWhile_cons_of_neg (by simp)
  rw [List.takeWhile_append_of_pos hxs, hrest, List.append_nil]

theorem findFrom_length_append {c : α} {xs : List α} (absent : c ∉ xs) (before ys : List α) :
    findFrom c (before ++ (xs ++ c :: ys)) before.length = some (before.length + xs.length) := by
  unfold findFrom
  rw [List.drop_left, idxOf?_append_cons absent]
  rfl

theorem findFrom_length_absent {c : α} {xs : List α} (absent : c ∉ xs) (before : List α) :
    findFrom c (before ++ xs) before.length = none := by
  unfold findFrom
  rw [List.drop_left, List.idxOf?_eq_none_iff.mpr absent]
  rfl

theorem find_eq_some_iff {sub s : List α} {i : ℕ} :
    find sub s = some i ↔ ∃ p r, s = p ++ sub ++ r ∧ p.length = i ∧
      ∀ p' r', s = p' ++ sub ++ r' → i ≤ p'.length := by
  unfold find
  constructor
  · intro h
    obtain ⟨⟨p, r⟩, hcut, hlen⟩ := Option.map_eq_some_iff.mp h
    obtain ⟨⟨sub', hs, heq⟩, hfirst⟩ := List.dropInfix?_eq_some_iff.mp hcut
    rw [eq_of_beq heq] at hs
    subst hlen
    exact ⟨p, r, hs, rfl, fun p' r' h' => hfirst p' sub r' h' (beq_self_eq_true sub)⟩
  · rintro ⟨p, r, hs, hlen, hfirst⟩
    refine Option.map_eq_some_iff.mpr ⟨(p, r), List.dropInfix?_eq_some_iff.mpr ?_, hlen⟩
    refine ⟨⟨sub, hs, beq_self_eq_true sub⟩, fun p' sub' r' h' heq => ?_⟩
    rw [eq_of_beq heq] at h'
    rw [hlen]
    exact hfirst p' r' h'

theorem find_bound {sub s : List α} {i : ℕ} (h : find sub s = some i) :
    i + sub.length ≤ s.length := by
  obtain ⟨p, r, hs, hlen, -⟩ := find_eq_some_iff.mp h
  rw [hs, List.length_append, List.length_append]
  omega

theorem find_eq_none_iff {sub s : List α} : find sub s = none ↔ ¬ sub <:+: s := by
  constructor
  · rintro hnone ⟨p, r, hs⟩
    have hex : ∃ n, ∃ p r, s = p ++ sub ++ r ∧ p.length = n := ⟨_, p, r, hs.symm, rfl⟩
    classical
    obtain ⟨p', r', hs', hlen⟩ := Nat.find_spec hex
    have hsome : find sub s = some (Nat.find hex) :=
      find_eq_some_iff.mpr ⟨p', r', hs', hlen, fun q t hq => Nat.find_min' hex ⟨q, t, hq, rfl⟩⟩
    rw [hnone] at hsome
    cases hsome
  · intro habsent
    cases hfind : find sub s with
    | none => rfl
    | some i =>
      obtain ⟨p, r, hs, -, -⟩ := find_eq_some_iff.mp hfind
      exact absurd ⟨p, r, hs.symm⟩ habsent

/-- Two different characters cannot straddle the end of a text that does not contain them. -/
theorem find_pair {a b : α} (hne : a ≠ b) {p : List α} (absent : ¬ [a, b] <:+: p) (r : List α) :
    find [a, b] (p ++ a :: b :: r) = some p.length := by
  refine find_eq_some_iff.mpr ⟨p, r, by simp, rfl, fun p' r' h => ?_⟩
  by_contra hlt
  have hlt : p'.length < p.length := not_le.mp hlt
  have h' : p ++ a :: b :: r = p' ++ (a :: b :: r') := by simpa using h
  obtain ⟨t, ht, hr⟩ | ⟨t, ht, hr⟩ := List.append_eq_append_iff.mp h'
  · have := congrArg List.length ht
    rw [List.length_append] at this
    omega
  · match t with
    | [] =>
      have := congrArg List.length ht
      simp at this
      omega
    | [x] =>
      have hr : a :: b :: r' = x :: a :: b :: r := hr
      injection hr with _ hr
      injection hr with hab _
      exact hne hab.symm
    | x :: y :: t =>
      have hr : a :: b :: r' = x :: y :: (t ++ a :: b :: r) := hr
      injection hr with hx hr
      injection hr with hy _
      exact absent ⟨p', t, by rw [ht, hx, hy]; simp⟩

theorem exists_last {β : Type*} {P : β → Prop} {xs : List β} (h : ∃ x ∈ xs, P x) :
    ∃ before x after, xs = before ++ x :: after ∧ P x ∧ ∀ y ∈ after, ¬ P y := by
  induction xs with
  | nil =>
    obtain ⟨x, hx, -⟩ := h
    exact absurd hx List.not_mem_nil
  | cons x xs ih =>
    by_cases hlater : ∃ y ∈ xs, P y
    · obtain ⟨before, y, after, rfl, hy, hafter⟩ := ih hlater
      exact ⟨x :: before, y, after, rfl, hy, hafter⟩
    · obtain ⟨y, hy, hP⟩ := h
      rcases List.mem_cons.mp hy with rfl | htail
      · exact ⟨[], y, xs, rfl, hP, fun z hz hPz => hlater ⟨z, hz, hPz⟩⟩
      · exact absurd ⟨y, htail, hP⟩ hlater

end TextSearch
