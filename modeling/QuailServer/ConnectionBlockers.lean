import Mathlib.Logic.Function.Basic
import QuailServer.SigslotRuns

set_option autoImplicit false

namespace QuailServer.ConnectionBlockers
open Sigslot SigslotSteps SigslotRuns StepMachine

/-- The signal and the slot that a `connection` points to. -/
abbrev Connection := ℕ × SlotId

/-- A variable of type `connection_blocker`: its `m_state`, and whether the program counts on it.
    Nobody counts on a variable that was destroyed or moved from. -/
structure Blocker where
  state : Option Connection
  trusted : Bool
  deriving DecidableEq

def Blocker.empty : Blocker := ⟨none, false⟩

structure Program (K A : Type) where
  signals : ℕ → SignalBase K A
  blockers : List Blocker

inductive ProgramOp (K A : Type) where
  | signal (i : ℕ) (op : Op K A)
  | blocker (c : Connection)
  | moveConstruct (j : ℕ)
  | moveAssign (k j : ℕ)
  | destroy (k : ℕ)

variable {K A : Type}

namespace Program

def new : Program K A := ⟨fun _ => .new, []⟩

def operate (i : ℕ) (op : Op K A) (v : Program K A) : Program K A :=
  { v with signals := Function.update v.signals i (Sigslot.step (v.signals i) op) }

def Made (v : Program K A) (c : Connection) : Prop := c.2 < (v.signals c.1).slots.length

instance (v : Program K A) (c : Connection) : Decidable (v.Made c) := Nat.decLt _ _

def release (b : Blocker) (v : Program K A) : Program K A :=
  match b.state with
  | some c => v.operate c.1 (.setBlocked c.2 false)
  | none => v

def blocker (c : Connection) (v : Program K A) : Program K A :=
  if v.Made c then
    let v := v.operate c.1 (.setBlocked c.2 true)
    { v with blockers := v.blockers ++ [⟨some c, true⟩] }
  else v

def moveConstruct (j : ℕ) (v : Program K A) : Program K A :=
  match v.blockers[j]? with
  | some b => { v with blockers := v.blockers.set j .empty ++ [b] }
  | none => v

/-- The states are swapped after the release, so that the other variable gets one that was
    released. -/
def moveAssign (k j : ℕ) (v : Program K A) : Program K A :=
  match v.blockers[k]?, v.blockers[j]? with
  | some a, some b =>
    let v := v.release a
    { v with blockers := (v.blockers.set k b).set j { a with trusted := false } }
  | _, _ => v

def destroy (k : ℕ) (v : Program K A) : Program K A :=
  match v.blockers[k]? with
  | some a =>
    let v := v.release a
    { v with blockers := v.blockers.set k .empty }
  | none => v

def step (v : Program K A) : ProgramOp K A → Program K A
  | .signal i op => v.operate i op
  | .blocker c => v.blocker c
  | .moveConstruct j => v.moveConstruct j
  | .moveAssign k j => v.moveAssign k j
  | .destroy k => v.destroy k

end Program

def Blocked (v : Program K A) (c : Connection) : Prop :=
  (v.signals c.1).alive c.2 = true → ∃ slot, (v.signals c.1).slots[c.2]? = some slot ∧ slot.blocked = true

def Trusted (v : Program K A) (c : Connection) : Prop := ⟨some c, true⟩ ∈ v.blockers

/-- The documented property: a blocker blocks its connection until it is destroyed. -/
def Blocking (v : Program K A) : Prop := ∀ c, Trusted v c → Blocked v c

def unblocks (v : Program K A) : ProgramOp K A → Option Connection
  | .signal i (.setBlocked s false) => some (i, s)
  | .moveAssign k j => (v.blockers[j]?).bind fun _ => (v.blockers[k]?).bind Blocker.state
  | .destroy k => (v.blockers[k]?).bind Blocker.state
  | _ => none

def blockersAfter (v : Program K A) : ProgramOp K A → List Blocker
  | .signal _ _ => v.blockers
  | .blocker c => if v.Made c then v.blockers ++ [⟨some c, true⟩] else v.blockers
  | .moveConstruct j =>
    match v.blockers[j]? with
    | some b => v.blockers.set j .empty ++ [b]
    | none => v.blockers
  | .moveAssign k j =>
    match v.blockers[k]?, v.blockers[j]? with
    | some a, some b => (v.blockers.set k b).set j { a with trusted := false }
    | _, _ => v.blockers
  | .destroy k => if k < v.blockers.length then v.blockers.set k .empty else v.blockers

/-- What the operation unblocks is gone, or no blocker that is left counts for it. -/
def Unshared (v : Program K A) (o : ProgramOp K A) : Prop :=
  ∀ c, unblocks v o = some c → (v.signals c.1).alive c.2 = true → ⟨some c, true⟩ ∉ blockersAfter v o

section Signal
variable {w : SignalBase K A} {s : SlotId} {op : Op K A}

theorem step_blocked (inv : Inv w) (made : s < w.slots.length)
    (blocked : w.alive s = true →
      ∃ slot, w.slots[s]? = some slot ∧ blockedBy s w slot.blocked op = true)
    (alive : (Sigslot.step w op).alive s = true) :
    ∃ slot, (Sigslot.step w op).slots[s]? = some slot ∧ slot.blocked = true := by
  obtain ⟨slot, hslot, hblocked⟩ := blocked (step_alive inv op made alive)
  obtain ⟨index, hindex⟩ := (step_stepped inv op).became s slot hslot
  exact ⟨_, hindex, hblocked⟩

theorem blockedBy_true (kept : w.alive s = true → op ≠ .setBlocked s false) :
    blockedBy s w true op = true := by
  cases op with
  | setBlocked t now =>
    unfold blockedBy
    dsimp only
    split
    · next h =>
      obtain ⟨rfl, halive⟩ := h
      cases now with
      | true => rfl
      | false => exact absurd rfl (kept halive)
    · rfl
  | _ => rfl

theorem unblocked (alive : w.alive s = true) :
    (Sigslot.step w (.setBlocked s false : Op K A)).alive s = true ∧
      ∀ slot, (Sigslot.step w (.setBlocked s false : Op K A)).slots[s]? = some slot →
        slot.blocked = false := by
  have hstep : Sigslot.step w (.setBlocked s false : Op K A) =
      { w with slots := w.slots.modify s ({ · with blocked := false }) } := if_pos alive
  refine ⟨?_, fun slot hslot => ?_⟩
  · rw [hstep]
    exact alive
  · rw [hstep] at hslot
    dsimp only at hslot
    rw [List.getElem?_modify_eq] at hslot
    obtain ⟨old, -, rfl⟩ := Option.map_eq_some_iff.mp hslot
    rfl

theorem alive_of_rest (inv : Inv w) {e : ℕ} (hs : s ∈ rest w e) : w.alive s = true := by
  unfold rest at hs
  cases hx : w.emissions[e]? with
  | none =>
    rw [hx] at hs
    exact absurd hs List.not_mem_nil
  | some x =>
    rw [hx] at hs
    have hmem := List.mem_of_getElem? hx
    exact alive_of_held hmem ((inv.suffix x hmem).subset hs)

theorem blocked_not_called (inv : Inv w)
    (blocked : w.alive s = true → ∃ slot, w.slots[s]? = some slot ∧ slot.blocked = true) (e : ℕ)
    (op : Op K A) : (called (Sigslot.step w op) e).count s = (called w e).count s := by
  have hnot : s ∉ invokes w e op := by
    intro hmem
    rcases turn_cases w e op with ⟨-, hnone⟩ | ⟨t, tail, -, hrest, -, hcall⟩
    · exact absurd (hnone ▸ hmem) List.not_mem_nil
    · rw [hcall] at hmem
      split at hmem
      · next hheard =>
        obtain rfl := List.mem_singleton.mp hmem
        obtain ⟨slot, hslot, hblocked⟩ := blocked (alive_of_rest inv (hrest ▸ List.mem_cons_self))
        simp [SigslotSteps.listening, hslot, hblocked] at hheard
      · exact absurd hmem List.not_mem_nil
  rw [(step_stepped inv op).called e, List.count_append, List.count_eq_zero.mpr hnot, Nat.add_zero]

end Signal

def unblocking (c : Connection) : ℕ × Op K A := (c.1, .setBlocked c.2 false)

theorem unblocking_injective : Function.Injective (unblocking : Connection → ℕ × Op K A) := by
  intro c d heq
  obtain ⟨hsignal, hop⟩ := Prod.mk.inj heq
  injection hop with hslot
  exact Prod.ext hsignal hslot

def signalOp (v : Program K A) : ProgramOp K A → Option (ℕ × Op K A)
  | .signal i op => some (i, op)
  | .blocker c => if v.Made c then some (c.1, .setBlocked c.2 true) else none
  | o => (unblocks v o).map unblocking

def operated (v : Program K A) : Option (ℕ × Op K A) → ℕ → SignalBase K A
  | some (i, op) => (v.operate i op).signals
  | none => v.signals

variable {v : Program K A} {c : Connection} {o : ProgramOp K A}

theorem release_eq (b : Blocker) (v : Program K A) :
    (v.release b).signals = operated v (b.state.map unblocking) ∧
      (v.release b).blockers = v.blockers := by
  unfold Program.release
  cases b.state with
  | none => exact ⟨rfl, rfl⟩
  | some c => exact ⟨rfl, rfl⟩

theorem step_eq (v : Program K A) (o : ProgramOp K A) :
    (v.step o).signals = operated v (signalOp v o) ∧ (v.step o).blockers = blockersAfter v o := by
  cases o with
  | signal i op => exact ⟨rfl, rfl⟩
  | blocker c =>
    simp only [Program.step, Program.blocker, signalOp, blockersAfter]
    split
    · exact ⟨rfl, rfl⟩
    · exact ⟨rfl, rfl⟩
  | moveConstruct j =>
    simp only [Program.step, Program.moveConstruct, signalOp, unblocks, blockersAfter]
    split
    · exact ⟨rfl, rfl⟩
    · exact ⟨rfl, rfl⟩
  | moveAssign k j =>
    simp only [Program.step, Program.moveAssign, signalOp, unblocks, blockersAfter]
    cases hk : v.blockers[k]? with
    | none => cases v.blockers[j]? <;> exact ⟨rfl, rfl⟩
    | some a =>
      cases hj : v.blockers[j]? with
      | none => exact ⟨rfl, rfl⟩
      | some b =>
        refine ⟨(release_eq a v).1, ?_⟩
        change (((v.release a).blockers.set k b).set j { a with trusted := false }) = _
        rw [(release_eq a v).2]
  | destroy k =>
    simp only [Program.step, Program.destroy, signalOp, unblocks, blockersAfter]
    cases hk : v.blockers[k]? with
    | none => exact ⟨rfl, (if_neg (Nat.not_lt.mpr (List.getElem?_eq_none_iff.mp hk))).symm⟩
    | some a =>
      refine ⟨(release_eq a v).1, ?_⟩
      rw [if_pos (List.getElem?_eq_some_iff.mp hk).1]
      change (v.release a).blockers.set k .empty = _
      rw [(release_eq a v).2]

theorem after_state {b : Blocker} (hb : b ∈ blockersAfter v o) (hc : b.state = some c) :
    (∃ b' ∈ v.blockers, b'.state = some c ∧ (b.trusted = true → b'.trusted = true)) ∨
      (o = .blocker c ∧ v.Made c) := by
  have hempty : b ≠ .empty := by
    rintro rfl
    cases hc
  cases o with
  | signal i op => exact Or.inl ⟨b, hb, hc, id⟩
  | blocker d =>
    simp only [blockersAfter] at hb
    split at hb
    · next hmade =>
      rcases List.mem_append.mp hb with hb | hb
      · exact Or.inl ⟨b, hb, hc, id⟩
      · obtain rfl := List.mem_singleton.mp hb
        obtain rfl : d = c := Option.some.inj hc
        exact Or.inr ⟨rfl, hmade⟩
    · exact Or.inl ⟨b, hb, hc, id⟩
  | moveConstruct j =>
    simp only [blockersAfter] at hb
    split at hb
    · next a ha =>
      rcases List.mem_append.mp hb with hb | hb
      · exact Or.inl ⟨b, (List.mem_or_eq_of_mem_set hb).resolve_right hempty, hc, id⟩
      · obtain rfl := List.mem_singleton.mp hb
        exact Or.inl ⟨b, List.mem_of_getElem? ha, hc, id⟩
    · exact Or.inl ⟨b, hb, hc, id⟩
  | moveAssign k j =>
    simp only [blockersAfter] at hb
    split at hb
    · next a a' ha ha' =>
      rcases List.mem_or_eq_of_mem_set hb with hb | rfl
      · rcases List.mem_or_eq_of_mem_set hb with hb | rfl
        · exact Or.inl ⟨b, hb, hc, id⟩
        · exact Or.inl ⟨b, List.mem_of_getElem? ha', hc, id⟩
      · exact Or.inl ⟨a, List.mem_of_getElem? ha, hc, fun h => absurd h Bool.false_ne_true⟩
    · exact Or.inl ⟨b, hb, hc, id⟩
  | destroy k =>
    simp only [blockersAfter] at hb
    split at hb
    · exact Or.inl ⟨b, (List.mem_or_eq_of_mem_set hb).resolve_right hempty, hc, id⟩
    · exact Or.inl ⟨b, hb, hc, id⟩

theorem operate_signals (i j : ℕ) (op : Op K A) (v : Program K A) :
    (v.operate i op).signals j = if j = i then Sigslot.step (v.signals i) op else v.signals j := by
  unfold Program.operate
  exact Function.update_apply ..

structure Sane (v : Program K A) : Prop where
  inv : ∀ i, Inv (v.signals i)
  made : ∀ b ∈ v.blockers, ∀ c, b.state = some c → v.Made c

theorem step_signal (v : Program K A) (o : ProgramOp K A) (i : ℕ) :
    (v.step o).signals i = v.signals i ∨ ∃ op, signalOp v o = some (i, op) ∧
      (v.step o).signals i = Sigslot.step (v.signals i) op := by
  rw [(step_eq v o).1]
  cases hop : signalOp v o with
  | none => exact Or.inl rfl
  | some op =>
    obtain ⟨j, op⟩ := op
    change (v.operate j op).signals i = _ ∨ ∃ op', _ ∧ (v.operate j op).signals i = _
    rw [operate_signals]
    split
    · next hi =>
      subst hi
      exact Or.inr ⟨op, rfl, rfl⟩
    · exact Or.inl rfl

theorem step_sane (h : Sane v) (o : ProgramOp K A) : Sane (v.step o) := by
  have hmade : ∀ c, v.Made c → (v.step o).Made c := by
    intro c hc
    unfold Program.Made at hc ⊢
    rcases step_signal v o c.1 with hsame | ⟨op, -, hstep⟩
    · rwa [hsame]
    · rw [hstep, (step_stepped (h.inv c.1) op).length]
      exact Nat.lt_of_lt_of_le hc (Nat.le_add_right _ _)
  refine ⟨fun i => ?_, fun b hb c hc => hmade c ?_⟩
  · rcases step_signal v o i with hsame | ⟨op, -, hstep⟩
    · exact hsame ▸ h.inv i
    · exact hstep ▸ (step_stepped (h.inv i) op).inv
  · rw [(step_eq v o).2] at hb
    rcases after_state hb hc with ⟨b', hb', hc', -⟩ | ⟨-, hmade⟩
    · exact h.made b' hb' c hc'
    · exact hmade

theorem unblocks_iff : unblocks v o = some c ↔ signalOp v o = some (unblocking c) := by
  have hmap : ∀ x : Option Connection, x = some c ↔ x.map unblocking = some (unblocking c : ℕ × Op K A) :=
    fun x => (Option.map_injective unblocking_injective).eq_iff' rfl |>.symm
  cases o with
  | signal i op =>
    cases op with
    | setBlocked s blocked =>
      cases blocked with
      | true => simp [unblocks, signalOp, unblocking]
      | false => exact hmap (some (i, s))
    | _ => simp [unblocks, signalOp, unblocking]
  | blocker d =>
    refine iff_of_false (by simp [unblocks]) ?_
    simp only [signalOp]
    split
    · simp [unblocking]
    · simp
  | moveConstruct j => exact hmap none
  | moveAssign k j => exact hmap _
  | destroy k => exact hmap _

theorem step_blocking (h : Sane v) (blocking : Blocking v) (unshared : Unshared v o) :
    Blocking (v.step o) := by
  intro c htrusted
  unfold Trusted at htrusted
  rw [(step_eq v o).2] at htrusted
  unfold Blocked
  rcases after_state htrusted rfl with ⟨b, hb, hstate, htrusts⟩ | ⟨rfl, hmade⟩
  · have hold : Trusted v c := by
      obtain ⟨state, trusted⟩ := b
      obtain rfl : state = some c := hstate
      obtain rfl : trusted = true := htrusts rfl
      exact hb
    rcases step_signal v o c.1 with hsame | ⟨op, hop, hstep⟩
    · rw [hsame]
      exact blocking c hold
    · rw [hstep]
      refine step_blocked (h.inv c.1) (h.made b hb c hstate) fun halive => ?_
      obtain ⟨slot, hslot, hblocked⟩ := blocking c hold halive
      refine ⟨slot, hslot, ?_⟩
      rw [hblocked]
      refine blockedBy_true fun _ hunblocks => ?_
      subst hunblocks
      exact unshared c (unblocks_iff.mpr hop) halive htrusted
  · have hstep : (v.step (.blocker c)).signals c.1 =
        Sigslot.step (v.signals c.1) (.setBlocked c.2 true) := by
      have hop : signalOp v (.blocker c : ProgramOp K A) = some (c.1, .setBlocked c.2 true) := if_pos hmade
      rw [(step_eq v _).1, hop]
      exact (operate_signals ..).trans (if_pos rfl)
    rw [hstep]
    refine step_blocked (h.inv c.1) hmade fun halive => ?_
    exact ⟨_, List.getElem?_eq_getElem hmade, if_pos ⟨rfl, halive⟩⟩

theorem step_not_blocking (shared : ¬ Unshared v o) : ¬ Blocking (v.step o) := by
  intro blocking
  refine shared fun c hc halive htrusted => ?_
  have hstep : (v.step o).signals c.1 = Sigslot.step (v.signals c.1) (.setBlocked c.2 false) := by
    rw [(step_eq v o).1, unblocks_iff.mp hc]
    exact (operate_signals ..).trans (if_pos rfl)
  have hafter : Trusted (v.step o) c := by
    unfold Trusted
    rw [(step_eq v o).2]
    exact htrusted
  have hblocked := blocking c hafter
  unfold Blocked at hblocked
  rw [hstep] at hblocked
  obtain ⟨hstill, hunblocked⟩ := unblocked (K := K) (A := A) halive
  obtain ⟨slot, hslot, hset⟩ := hblocked hstill
  rw [hunblocked slot hslot] at hset
  exact Bool.false_ne_true hset

theorem new_sane : Sane (Program.new : Program K A) :=
  ⟨fun _ => inv_new, fun _ hb => absurd hb List.not_mem_nil⟩

theorem new_blocking : Blocking (Program.new : Program K A) :=
  fun _ htrusted => absurd htrusted List.not_mem_nil

/-- Every blocker blocks its connection in all states of a run just if no operation unblocks one for
    which another blocker counts. Then no slot is called while there is a blocker for it. -/
theorem blocking_iff_unshared (ops : List (ProgramOp K A)) :
    (Always Program.step Blocking (.new : Program K A) ops ↔
      Each Program.step Unshared (.new : Program K A) ops) ∧
    (Each Program.step Unshared (.new : Program K A) ops →
      Each Program.step (fun v o => ∀ c e, Trusted v c →
        (called ((v.step o).signals c.1) e).count c.2 = (called (v.signals c.1) e).count c.2)
        (.new : Program K A) ops) := by
  have hstep : ∀ (v : Program K A) o, Sane v ∧ Blocking v → Unshared v o →
      Sane (v.step o) ∧ Blocking (v.step o) :=
    fun v o h unshared => ⟨step_sane h.1 o, step_blocking h.1 h.2 unshared⟩
  refine ⟨?_, fun unshared => ?_⟩
  · refine always_iff_each (A := fun _ _ => True) (I := fun v => Sane v ∧ Blocking v)
      (fun _ h => h.2) (fun v o h _ => hstep v o h) (fun v o _ _ => step_not_blocking)
      ⟨new_sane, new_blocking⟩ ?_
    exact each_of_labels (Q := fun _ => True) _ fun _ _ => trivial
  · refine each_iff_split.mpr fun before o rest hops c e htrusted => ?_
    have hbefore := (each_append.mp (hops ▸ unshared)).1
    obtain ⟨hsane, hblocking⟩ := (always_of_each (I := fun v => Sane v ∧ Blocking v) hstep
      ⟨new_sane, new_blocking⟩ hbefore).last
    rcases step_signal (after Program.step .new before) o c.1 with hsame | ⟨op, -, hone⟩
    · rw [hsame]
    · rw [hone]
      exact blocked_not_called (hsane.inv c.1) (hblocking c htrusted) e op

example : ¬ Each Program.step Unshared (.new : Program ℕ ℕ)
    [.signal 0 (.connect 7 none 0), .blocker (0, 0), .blocker (0, 0), .destroy 0] :=
  fun h => h.2.2.2.1 (0, 0) rfl rfl (List.mem_cons_of_mem _ List.mem_cons_self)

end QuailServer.ConnectionBlockers
