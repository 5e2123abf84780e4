import Mathlib.Logic.Function.Basic
import QuailServer.Library.StepMachine

set_option autoImplicit false

namespace QuailServer.SpinMutex
open StepMachine

inductive Place (D : Type) where
  | outside
  | spinning
  | trying
  | tryingOnce
  | inside (read : Option D)

def Place.IsInside {D : Type} : Place D → Prop
  | .inside _ => True
  | _ => False

/-- Every load, store and exchange of the flag and every access to the data is one step. -/
structure Threads (D : Type) where
  /-- `state` of the mutex, which is true when it is free. -/
  state : Bool
  place : ℕ → Place D
  data : D
  updates : List (D → D)

/-- `yield` is left out, since any thread may come next. -/
inductive Action (D : Type) where
  | lock
  | tryLock
  | load
  | exchange
  | read
  | write (f : D → D)
  | unlock

namespace Threads
variable {D : Type}

def new (data : D) : Threads D := ⟨true, fun _ => .outside, data, []⟩

def move (t : ℕ) (x : Place D) (v : Threads D) : Threads D :=
  { v with place := Function.update v.place t x }

/-- `state.exchange(false)`, and where the thread goes when the mutex was taken. -/
def exchange (t : ℕ) (refused : Place D) (v : Threads D) : Threads D :=
  move t (if v.state then .inside none else refused) { v with state := false }

/-- An action that is not the next one of the thread does not happen. -/
def step (v : Threads D) (e : ℕ × Action D) : Threads D :=
  match v.place e.1, e.2 with
  | .outside, .lock => v.move e.1 .spinning
  | .outside, .tryLock => v.move e.1 .tryingOnce
  | .spinning, .load => if v.state then v.move e.1 .trying else v
  | .trying, .exchange => v.exchange e.1 .spinning
  | .tryingOnce, .exchange => v.exchange e.1 .outside
  | .inside _, .read => v.move e.1 (.inside (some v.data))
  | .inside (some d), .write f =>
    move e.1 (.inside none) { v with data := f d, updates := v.updates ++ [f] }
  | .inside _, .unlock => move e.1 .outside { v with state := true }
  | _, _ => v

end Threads

variable {D : Type}

/-- One thread at most is inside, the flag says whether one is, and what a thread has read is what
    the data are. -/
structure Excludes (v : Threads D) : Prop where
  exclusive : ∀ t u, (v.place t).IsInside → (v.place u).IsInside → t = u
  free : v.state = true ↔ ∀ t, ¬ (v.place t).IsInside
  current : ∀ t d, v.place t = .inside (some d) → d = v.data

def updated (data : D) (updates : List (D → D)) : D := updates.foldl (fun d f => f d) data

variable {v : Threads D} {t : ℕ} {x : Place D}

theorem place_self (t : ℕ) (x : Place D) (v : Threads D) : (v.move t x).place t = x :=
  Function.update_self (β := fun _ => Place D) t x v.place

theorem place_other {u : ℕ} (hne : u ≠ t) (x : Place D) (v : Threads D) :
    (v.move t x).place u = v.place u :=
  Function.update_of_ne (β := fun _ => Place D) hne x v.place

theorem inside_move (hx : ¬ x.IsInside) {u : ℕ} :
    ((v.move t x).place u).IsInside ↔ u ≠ t ∧ (v.place u).IsInside := by
  by_cases hu : u = t
  · subst hu
    rw [place_self]
    exact iff_of_false hx fun h => h.1 rfl
  · rw [place_other hu, and_iff_right hu]

theorem outside_outside : ¬ (Place.outside : Place D).IsInside := id

theorem Excludes.move (h : Excludes v) (hbefore : ¬ (v.place t).IsInside) (hx : ¬ x.IsInside) :
    Excludes (v.move t x) := by
  have hsame : ∀ u, ((v.move t x).place u).IsInside ↔ (v.place u).IsInside := by
    intro u
    rw [inside_move hx]
    refine and_iff_right_of_imp fun hu heq => ?_
    subst heq
    exact hbefore hu
  refine ⟨fun a b ha hb => h.exclusive a b ((hsame a).mp ha) ((hsame b).mp hb), ?_, fun u d hu => ?_⟩
  · rw [forall_congr' fun u => not_congr (hsame u)]
    exact h.free
  · by_cases heq : u = t
    · subst heq
      rw [place_self] at hu
      rw [hu] at hx
      exact absurd trivial hx
    · rw [place_other heq] at hu
      exact h.current u d hu

theorem excludes_of_alone {read : Option D} (hstate : v.state = false)
    (halone : ∀ u, u ≠ t → ¬ (v.place u).IsInside) (hread : ∀ d, read = some d → d = v.data) :
    Excludes (v.move t (.inside read)) := by
  have honly : ∀ u, ((v.move t (.inside read)).place u).IsInside → u = t := by
    intro u hu
    by_contra hne
    rw [place_other hne] at hu
    exact halone u hne hu
  have hself : ((v.move t (.inside read)).place t).IsInside := by
    rw [place_self]
    trivial
  refine ⟨fun a b ha hb => (honly a ha).trans (honly b hb).symm, ?_, fun u d hu => ?_⟩
  · exact iff_of_false (by simp [Threads.move, hstate]) fun hnone => hnone t hself
  · have heq : u = t := honly u (hu ▸ trivial)
    subst heq
    rw [place_self] at hu
    injection hu with hu
    exact hread d hu

theorem Excludes.taken (h : Excludes v) (hinside : (v.place t).IsInside) : v.state = false := by
  by_contra htrue
  exact h.free.mp (by simpa using htrue) t hinside

theorem Excludes.others (h : Excludes v) (hinside : (v.place t).IsInside) {u : ℕ} (hne : u ≠ t) :
    ¬ (v.place u).IsInside := fun hu => hne (h.exclusive u t hu hinside)

theorem Excludes.exchange (h : Excludes v) (hbefore : ¬ (v.place t).IsInside) (hx : ¬ x.IsInside) :
    Excludes (v.exchange t x) := by
  unfold Threads.exchange
  cases hstate : v.state with
  | true =>
    rw [if_pos rfl]
    exact excludes_of_alone rfl (fun u _ => h.free.mp hstate u) fun d hd => absurd hd (by simp)
  | false =>
    have hsame : { v with state := false } = v := by rw [← hstate]
    rw [if_neg Bool.false_ne_true, hsame]
    exact h.move hbefore hx

theorem Excludes.unlock (h : Excludes v) (hinside : (v.place t).IsInside) :
    Excludes (({ v with state := true } : Threads D).move t .outside) := by
  have hnone : ∀ u, ¬ ((({ v with state := true } : Threads D).move t .outside).place u).IsInside := by
    intro u
    rw [inside_move outside_outside]
    exact fun hu => h.others hinside hu.1 hu.2
  refine ⟨fun a b ha => absurd ha (hnone a), iff_of_true rfl hnone, fun u d hu => ?_⟩
  exact absurd (hu ▸ trivial) (hnone u)

theorem step_excludes (h : Excludes v) (e : ℕ × Action D) : Excludes (v.step e) := by
  obtain ⟨t, action⟩ := e
  unfold Threads.step
  dsimp only
  split
  · next hplace => exact h.move (by rw [hplace]; exact id) id
  · next hplace => exact h.move (by rw [hplace]; exact id) id
  · next hplace =>
    split
    · exact h.move (by rw [hplace]; exact id) id
    · exact h
  · next hplace => exact h.exchange (by rw [hplace]; exact id) id
  · next hplace => exact h.exchange (by rw [hplace]; exact id) id
  · next hplace =>
    have hinside : (v.place t).IsInside := hplace ▸ trivial
    exact excludes_of_alone (h.taken hinside) (fun u hne => h.others hinside hne)
      fun d hd => (Option.some.inj hd).symm
  · next hplace =>
    have hinside : (v.place t).IsInside := hplace ▸ trivial
    exact excludes_of_alone (h.taken hinside) (fun u hne => h.others hinside hne)
      fun d hd => absurd hd (by simp)
  · next hplace => exact h.unlock (hplace ▸ trivial)
  · exact h

theorem step_updated {data : D} (h : Excludes v) (hdata : v.data = updated data v.updates)
    (e : ℕ × Action D) : (v.step e).data = updated data (v.step e).updates := by
  obtain ⟨t, action⟩ := e
  unfold Threads.step
  dsimp only
  split
  · exact hdata
  · exact hdata
  · split
    · exact hdata
    · exact hdata
  · exact hdata
  · exact hdata
  · exact hdata
  · next d f hplace =>
    change f d = updated data (v.updates ++ [f])
    rw [updated, List.foldl_append, h.current t d hplace, hdata]
    rfl
  · exact hdata
  · exact hdata

theorem new_excludes (data : D) : Excludes (.new data) where
  exclusive _ _ ht := absurd ht id
  free := iff_of_true rfl fun _ => id
  current _ _ h := absurd h (by simp [Threads.new])

theorem free_entered (hfree : v.state = true) (hplace : v.place t = .spinning) :
    ((after Threads.step v [(t, .load), (t, .exchange)]).place t).IsInside := by
  have hload : v.step (t, .load) = v.move t .trying := by
    unfold Threads.step
    dsimp only
    rw [hplace]
    exact if_pos hfree
  have hexchange :
      (v.move t .trying).step (t, .exchange) = (v.move t .trying).exchange t .spinning := by
    unfold Threads.step
    dsimp only
    rw [place_self]
  have hstate : (v.move t .trying).state = true := hfree
  rw [after_cons, after_cons, after_nil, hload, hexchange]
  unfold Threads.exchange
  rw [place_self, if_pos hstate]
  trivial

/-- In every interleaving of any number of threads, the updates are made one after the other, as
    if each were a single step. When the mutex is free, a thread that waits for it and runs gets it. -/
theorem updates_serialized (data : D) (events : List (ℕ × Action D)) :
    let v := after Threads.step (.new data) events
    Excludes v ∧ v.data = updated data v.updates ∧
      ∀ t, v.state = true → v.place t = .spinning →
        ((after Threads.step v [(t, .load), (t, .exchange)]).place t).IsInside := by
  have hkept : Excludes (after Threads.step (.new data) events) ∧
      (after Threads.step (.new data) events).data =
        updated data (after Threads.step (.new data) events).updates :=
    invariant_after (I := fun v : Threads D => Excludes v ∧ v.data = updated data v.updates)
      (fun _ e h => ⟨step_excludes h.1 e, step_updated h.1 h.2 e⟩) ⟨new_excludes data, rfl⟩ events
  exact ⟨hkept.1, hkept.2, fun t hfree hplace => free_entered hfree hplace⟩

end QuailServer.SpinMutex
