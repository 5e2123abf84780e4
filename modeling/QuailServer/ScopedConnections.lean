import Mathlib.Logic.Function.Basic
import QuailServer.SigslotRuns

set_option autoImplicit false

namespace QuailServer.ScopedConnections
open Sigslot SigslotSteps SigslotRuns StepMachine

abbrev Connection := ℕ × SlotId

inductive Guard where
  | scopedConnection
  | observer (o : ℕ)
  deriving DecidableEq

structure Program (K A : Type) where
  signals : ℕ → SignalBase K A
  /-- `m_state` of all variables of type `scoped_connection`. -/
  scopedConnections : List (Option Connection)
  /-- `m_connections` of the observers that live. -/
  observers : List (Option (List Connection))
  guarded : List (Connection × Guard)

inductive ProgramOp (K A : Type) where
  | signal (i : ℕ) (op : Op K A)
  | connectScoped (i : ℕ) (callable : K) (tracked : Option ℕ) (gid : ℤ)
  | moveConstruct (j : ℕ)
  | moveAssign (k j : ℕ)
  | destroyScoped (k : ℕ)
  | makeObserver
  | connectObserver (i : ℕ) (callable : K) (o : ℕ) (gid : ℤ)
  | disconnectAll (o : ℕ)
  | destroyObserver (o : ℕ)

variable {K A : Type}

namespace Program

def new : Program K A := ⟨fun _ => .new, [], [], []⟩

def operate (i : ℕ) (op : Op K A) (v : Program K A) : Program K A :=
  { v with signals := Function.update v.signals i (Sigslot.step (v.signals i) op) }

def disconnect (c : Option Connection) (v : Program K A) : Program K A :=
  match c with
  | none => v
  | some c => v.operate c.1 (.disconnect c.2)

def connect (i : ℕ) (callable : K) (tracked : Option ℕ) (gid : ℤ) (guard : Guard)
    (v : Program K A) : Program K A × Connection :=
  let c := (i, (v.signals i).slots.length)
  let v := v.operate i (.connect callable tracked gid)
  ({ v with guarded := v.guarded ++ [(c, guard)] }, c)

def connectScoped (i : ℕ) (callable : K) (tracked : Option ℕ) (gid : ℤ) (v : Program K A) :
    Program K A :=
  let (v, c) := v.connect i callable tracked gid .scopedConnection
  { v with scopedConnections := v.scopedConnections ++ [some c] }

def moveConstruct (j : ℕ) (v : Program K A) : Program K A :=
  { v with scopedConnections := v.scopedConnections.set j none ++ [(v.scopedConnections[j]?).join] }

/-- The variable is disconnected before the two are swapped. -/
def moveAssign (k j : ℕ) (v : Program K A) : Program K A :=
  match v.scopedConnections[k]?, v.scopedConnections[j]? with
  | some a, some b =>
    let v := v.disconnect a
    { v with scopedConnections := (v.scopedConnections.set k b).set j a }
  | _, _ => v

def destroyScoped (k : ℕ) (v : Program K A) : Program K A :=
  match v.scopedConnections[k]? with
  | some a =>
    let v := v.disconnect a
    { v with scopedConnections := v.scopedConnections.set k none }
  | none => v

/-- `add_connection` follows at once. Nothing is connected to an object that is gone. -/
def connectObserver (i : ℕ) (callable : K) (o : ℕ) (gid : ℤ) (v : Program K A) : Program K A :=
  match v.observers[o]? with
  | some (some cs) =>
    let (v, c) := v.connect i callable none gid (.observer o)
    { v with observers := v.observers.set o (some (cs ++ [c])) }
  | _ => v

def clearConnections (o : ℕ) (left : Option (List Connection)) (v : Program K A) : Program K A :=
  match v.observers[o]? with
  | some (some cs) =>
    let v := cs.foldl (fun v c => v.disconnect (some c)) v
    { v with observers := v.observers.set o left }
  | _ => v

def step (v : Program K A) : ProgramOp K A → Program K A
  | .signal i op => v.operate i op
  | .connectScoped i callable tracked gid => v.connectScoped i callable tracked gid
  | .moveConstruct j => v.moveConstruct j
  | .moveAssign k j => v.moveAssign k j
  | .destroyScoped k => v.destroyScoped k
  | .makeObserver => { v with observers := v.observers ++ [some []] }
  | .connectObserver i callable o gid => v.connectObserver i callable o gid
  | .disconnectAll o => v.clearConnections o (some [])
  | .destroyObserver o => v.clearConnections o none

end Program

/-- The variable or the object that a connection ends with is still there. -/
def Held (v : Program K A) (c : Connection) : Guard → Prop
  | .scopedConnection => some c ∈ v.scopedConnections
  | .observer o => ∃ cs, v.observers[o]? = some (some cs) ∧ c ∈ cs

structure Ahead (v w : SignalBase K A) : Prop where
  length : v.slots.length ≤ w.slots.length
  mute : ∀ s, Mute s v → Mute s w ∧ ∀ e, (called w e).count s = (called v e).count s

variable {v w u : SignalBase K A}

theorem Ahead.rfl : Ahead v v := ⟨le_rfl, fun _ h => ⟨h, fun _ => Eq.refl _⟩⟩

theorem Ahead.trans (h : Ahead v w) (k : Ahead w u) : Ahead v u := by
  refine ⟨Nat.le_trans h.length k.length, fun s hs => ?_⟩
  obtain ⟨hw, hcount⟩ := h.mute s hs
  obtain ⟨hu, hcount'⟩ := k.mute s hw
  exact ⟨hu, fun e => (hcount' e).trans (hcount e)⟩

theorem step_ahead (inv : Inv v) (op : Op K A) : Ahead v (Sigslot.step v op) := by
  have hstep := step_stepped inv op
  refine ⟨by rw [hstep.length]; exact Nat.le_add_right _ _, fun s hs => ⟨mute_step inv hs op, ?_⟩⟩
  intro e
  rw [hstep.called e, List.count_append, List.count_eq_zero.mpr (mute_not_called hs e op),
    Nat.add_zero]

variable {v v' : Program K A}

structure Moved (v v' : Program K A) : Prop where
  inv : ∀ i, Inv (v'.signals i)
  ahead : ∀ i, Ahead (v.signals i) (v'.signals i)

theorem operate_moved (inv : ∀ i, Inv (v.signals i)) (i : ℕ) (op : Op K A) :
    Moved v (v.operate i op) := by
  have hself : (v.operate i op).signals i = Sigslot.step (v.signals i) op :=
    Function.update_self (β := fun _ => SignalBase K A) i _ v.signals
  have hother : ∀ j, j ≠ i → (v.operate i op).signals j = v.signals j :=
    fun j hne => Function.update_of_ne (β := fun _ => SignalBase K A) hne _ v.signals
  constructor
  · intro j
    by_cases hj : j = i
    · subst hj
      rw [hself]
      exact (step_stepped (inv j) op).inv
    · rw [hother j hj]
      exact inv j
  · intro j
    by_cases hj : j = i
    · subst hj
      rw [hself]
      exact step_ahead (inv j) op
    · rw [hother j hj]
      exact .rfl

theorem Moved.trans {v'' : Program K A} (h : Moved v v') (k : Moved v' v'') : Moved v v'' :=
  ⟨k.inv, fun i => (h.ahead i).trans (k.ahead i)⟩

theorem moved_rfl (inv : ∀ i, Inv (v.signals i)) : Moved v v := ⟨inv, fun _ => .rfl⟩

/-- A guarded slot that was made is mute, or its guard is still there. -/
structure Guarding (v : Program K A) : Prop where
  inv : ∀ i, Inv (v.signals i)
  made : ∀ c g, (c, g) ∈ v.guarded → c.2 < (v.signals c.1).slots.length
  kept : ∀ c g, (c, g) ∈ v.guarded → Mute c.2 (v.signals c.1) ∨ Held v c g

structure Guards (v v' : Program K A) : Prop extends Moved v v', Guarding v'

theorem Guarding.stays (h : Guarding v) : Guards v v := { moved_rfl h.inv, h with }

structure Ended (v : Program K A) (ended : List Connection) (v' : Program K A) : Prop
    extends Moved v v' where
  scopedConnections : v'.scopedConnections = v.scopedConnections
  observers : v'.observers = v.observers
  guarded : v'.guarded = v.guarded
  mute : ∀ c ∈ ended, c.2 < (v.signals c.1).slots.length → Mute c.2 (v'.signals c.1)

theorem disconnect_ended (inv : ∀ i, Inv (v.signals i)) (c : Option Connection) :
    Ended v c.toList (v.disconnect c) := by
  cases c with
  | none => exact ⟨moved_rfl inv, rfl, rfl, rfl, fun c hc => absurd hc List.not_mem_nil⟩
  | some c =>
    refine ⟨operate_moved inv c.1 _, rfl, rfl, rfl, fun d hd hmade => ?_⟩
    obtain rfl := List.mem_singleton.mp hd
    have hself : (v.operate d.1 (.disconnect d.2)).signals d.1 =
        Sigslot.step (v.signals d.1) (.disconnect d.2) :=
      Function.update_self (β := fun _ => SignalBase K A) d.1 _ v.signals
    change Mute d.2 ((v.operate d.1 (.disconnect d.2)).signals d.1)
    rw [hself]
    exact mute_of_disconnect (inv d.1) hmade

theorem disconnectAll_ended (inv : ∀ i, Inv (v.signals i)) (cs : List Connection) :
    Ended v cs (cs.foldl (fun v c => v.disconnect (some c)) v) := by
  induction cs generalizing v with
  | nil => exact ⟨moved_rfl inv, rfl, rfl, rfl, fun c hc => absurd hc List.not_mem_nil⟩
  | cons c cs ih =>
    have hfirst := disconnect_ended inv (some c)
    have hrest := ih hfirst.inv
    refine ⟨hfirst.toMoved.trans hrest.toMoved, hrest.scopedConnections.trans hfirst.scopedConnections,
      hrest.observers.trans hfirst.observers, hrest.guarded.trans hfirst.guarded, fun d hd hmade => ?_⟩
    rcases List.mem_cons.mp hd with rfl | hd
    · exact ((hrest.ahead d.1).mute d.2 (hfirst.mute d List.mem_cons_self hmade)).1
    · exact hrest.mute d hd (Nat.lt_of_lt_of_le hmade (hfirst.ahead d.1).length)

/-- After `disconnect` calls, a connection may lose its guard if it is one that ended. -/
theorem Guarding.ended (h : Guarding v) {ended : List Connection} {w v' : Program K A}
    (hw : Ended v ended w) (signals : v'.signals = w.signals) (guarded : v'.guarded = w.guarded)
    (held : ∀ c g, Held v c g → c ∈ ended ∨ Held v' c g) : Guards v v' where
  inv i := by
    rw [signals]
    exact hw.inv i
  ahead i := by
    rw [signals]
    exact hw.ahead i
  made c g hc := by
    rw [guarded, hw.guarded] at hc
    rw [signals]
    exact Nat.lt_of_lt_of_le (h.made c g hc) (hw.ahead c.1).length
  kept c g hc := by
    rw [guarded, hw.guarded] at hc
    rw [signals]
    rcases h.kept c g hc with hmute | hheld
    · exact Or.inl ((hw.ahead c.1).mute c.2 hmute).1
    · rcases held c g hheld with hended | hheld
      · exact Or.inl (hw.mute c hended (h.made c g hc))
      · exact Or.inr hheld

theorem moved_guards (h : Guarding v) (hm : Moved v v') (guarded : v'.guarded = v.guarded)
    (held : ∀ c g, Held v c g → Held v' c g) : Guards v v' where
  inv := hm.inv
  ahead := hm.ahead
  made c g hc := by
    rw [guarded] at hc
    exact Nat.lt_of_lt_of_le (h.made c g hc) (hm.ahead c.1).length
  kept c g hc := by
    rw [guarded] at hc
    exact (h.kept c g hc).imp (fun hmute => ((hm.ahead c.1).mute c.2 hmute).1) (held c g)

theorem connect_guards (h : Guarding v) (i : ℕ) (callable : K) (tracked : Option ℕ) (gid : ℤ)
    (guard : Guard) {w : Program K A} {c : Connection}
    (hw : v.connect i callable tracked gid guard = (w, c)) (signals : v'.signals = w.signals)
    (guarded : v'.guarded = w.guarded) (held : ∀ d g, Held v d g → Held v' d g)
    (new : Held v' c guard) : Guards v v' := by
  obtain ⟨rfl, rfl⟩ := Prod.mk.inj hw
  have hmoved := operate_moved h.inv i (.connect callable tracked gid)
  have hself : v'.signals i = Sigslot.step (v.signals i) (.connect callable tracked gid) := by
    rw [signals]
    exact Function.update_self (β := fun _ => SignalBase K A) i _ v.signals
  have hlength := (step_stepped (h.inv i) (.connect callable tracked gid)).length
  have hsignals : Moved v v' :=
    ⟨fun j => by rw [signals]; exact hmoved.inv j, fun j => by rw [signals]; exact hmoved.ahead j⟩
  refine { hsignals with made := fun d g hd => ?_, kept := fun d g hd => ?_ }
  · rw [guarded] at hd
    rcases List.mem_append.mp hd with hd | hd
    · rw [signals]
      exact Nat.lt_of_lt_of_le (h.made d g hd) (hmoved.ahead d.1).length
    · obtain ⟨rfl, rfl⟩ := Prod.mk.inj (List.mem_singleton.mp hd)
      change (v.signals i).slots.length < (v'.signals i).slots.length
      rw [hself, hlength]
      exact Nat.lt_succ_self _
  · rw [guarded] at hd
    rcases List.mem_append.mp hd with hd | hd
    · rw [signals]
      exact (h.kept d g hd).imp (fun hmute => ((hmoved.ahead d.1).mute d.2 hmute).1) (held d g)
    · obtain ⟨rfl, rfl⟩ := Prod.mk.inj (List.mem_singleton.mp hd)
      exact Or.inr new

theorem mem_set_of_mem {B : Type} {xs : List B} {k : ℕ} {a b x : B} (hk : xs[k]? = some a)
    (hx : x ∈ xs) : x = a ∨ x ∈ xs.set k b := by
  obtain ⟨n, hn⟩ := List.mem_iff_getElem?.mp hx
  by_cases heq : k = n
  · subst heq
    exact Or.inl (Option.some.inj (hn.symm.trans hk))
  · refine Or.inr (List.mem_iff_getElem?.mpr ⟨n, ?_⟩)
    rw [List.getElem?_set_ne heq, hn]

theorem mem_swap {B : Type} {xs : List B} {k j : ℕ} {a b x : B} (hk : xs[k]? = some a)
    (hj : xs[j]? = some b) (hx : x ∈ xs) : x = a ∨ x ∈ (xs.set k b).set j a := by
  by_cases hkj : k = j
  · subst hkj
    obtain rfl := Option.some.inj (hk.symm.trans hj)
    rw [List.set_set]
    exact mem_set_of_mem hk hx
  · rcases mem_set_of_mem (b := b) hk hx with heq | hset
    · exact Or.inl heq
    · have hj' : (xs.set k b)[j]? = some b := (List.getElem?_set_ne hkj).trans hj
      rcases mem_set_of_mem (b := a) hj' hset with rfl | hswap
      · have hlt : k < xs.length := (List.getElem?_eq_some_iff.mp hk).1
        refine Or.inr (List.mem_iff_getElem?.mpr ⟨k, ?_⟩)
        rw [List.getElem?_set_ne (Ne.symm hkj), List.getElem?_set_self hlt]
      · exact Or.inr hswap

theorem connectScoped_guards (h : Guarding v) (i : ℕ) (callable : K) (tracked : Option ℕ)
    (gid : ℤ) : Guards v (v.connectScoped i callable tracked gid) := by
  refine connect_guards h i callable tracked gid .scopedConnection rfl rfl rfl (fun d g hd => ?_) ?_
  · cases g with
    | scopedConnection => exact List.mem_append_left _ hd
    | observer o => exact hd
  · exact List.mem_append_right _ List.mem_cons_self

theorem connectObserver_guards (h : Guarding v) (i : ℕ) (callable : K) (o : ℕ) (gid : ℤ) :
    Guards v (v.connectObserver i callable o gid) := by
  unfold Program.connectObserver
  split
  · next cs hcs =>
    have hlt : o < v.observers.length := (List.getElem?_eq_some_iff.mp hcs).1
    refine connect_guards h i callable none gid (.observer o) rfl rfl rfl (fun d g hd => ?_) ?_
    · cases g with
      | scopedConnection => exact hd
      | observer o' =>
        obtain ⟨ds, hds, hmem⟩ := hd
        by_cases heq : o = o'
        · subst heq
          obtain rfl := Option.some.inj (Option.some.inj (hcs.symm.trans hds))
          exact ⟨_, List.getElem?_set_self hlt, List.mem_append_left _ hmem⟩
        · refine ⟨ds, ?_, hmem⟩
          exact (List.getElem?_set_ne heq).trans hds
    · exact ⟨_, List.getElem?_set_self hlt, List.mem_append_right _ List.mem_cons_self⟩
  · exact h.stays

theorem moveConstruct_guards (h : Guarding v) (j : ℕ) : Guards v (v.moveConstruct j) := by
  refine moved_guards h ⟨h.inv, fun _ => .rfl⟩ rfl fun c g hc => ?_
  cases g with
  | observer o => exact hc
  | scopedConnection =>
    cases hj : v.scopedConnections[j]? with
    | none =>
      have hsame : v.scopedConnections.set j none = v.scopedConnections :=
        List.set_eq_of_length_le (List.getElem?_eq_none_iff.mp hj)
      refine List.mem_append_left _ ?_
      rw [hsame]
      exact hc
    | some a =>
      change some c ∈ v.scopedConnections.set j none ++ [(v.scopedConnections[j]?).join]
      rcases mem_set_of_mem (b := none) hj hc with rfl | hmem
      · rw [hj]
        exact List.mem_append_right _ List.mem_cons_self
      · exact List.mem_append_left _ hmem

theorem moveAssign_guards (h : Guarding v) (k j : ℕ) : Guards v (v.moveAssign k j) := by
  unfold Program.moveAssign
  split
  · next a b hk hj =>
    have hended := disconnect_ended h.inv a
    refine h.ended hended rfl rfl fun c g hc => ?_
    cases g with
    | observer o =>
      obtain ⟨cs, hcs, hmem⟩ := hc
      exact Or.inr ⟨cs, (congrArg (·[o]?) hended.observers).trans hcs, hmem⟩
    | scopedConnection =>
      change c ∈ a.toList ∨ some c ∈ ((v.disconnect a).scopedConnections.set k b).set j a
      rw [hended.scopedConnections]
      rcases mem_swap hk hj hc with rfl | hswap
      · exact Or.inl List.mem_cons_self
      · exact Or.inr hswap
  · exact h.stays

theorem destroyScoped_guards (h : Guarding v) (k : ℕ) : Guards v (v.destroyScoped k) := by
  unfold Program.destroyScoped
  split
  · next a hk =>
    have hended := disconnect_ended h.inv a
    refine h.ended hended rfl rfl fun c g hc => ?_
    cases g with
    | observer o =>
      obtain ⟨cs, hcs, hmem⟩ := hc
      exact Or.inr ⟨cs, (congrArg (·[o]?) hended.observers).trans hcs, hmem⟩
    | scopedConnection =>
      change c ∈ a.toList ∨ some c ∈ (v.disconnect a).scopedConnections.set k none
      rw [hended.scopedConnections]
      rcases mem_set_of_mem (b := none) hk hc with rfl | hset
      · exact Or.inl List.mem_cons_self
      · exact Or.inr hset
  · exact h.stays

theorem clearConnections_guards (h : Guarding v) (o : ℕ) (left : Option (List Connection)) :
    Guards v (v.clearConnections o left) := by
  unfold Program.clearConnections
  split
  · next cs hcs =>
    have hended := disconnectAll_ended h.inv cs
    refine h.ended hended rfl rfl fun c g hc => ?_
    cases g with
    | scopedConnection =>
      refine Or.inr ?_
      change some c ∈ (cs.foldl (fun v c => v.disconnect (some c)) v).scopedConnections
      rw [hended.scopedConnections]
      exact hc
    | observer o' =>
      obtain ⟨ds, hds, hmem⟩ := hc
      by_cases heq : o = o'
      · subst heq
        obtain rfl := Option.some.inj (Option.some.inj (hcs.symm.trans hds))
        exact Or.inl hmem
      · refine Or.inr ⟨ds, ?_, hmem⟩
        refine (List.getElem?_set_ne heq).trans ?_
        rw [hended.observers]
        exact hds
  · exact h.stays

theorem step_guards (h : Guarding v) (o : ProgramOp K A) : Guards v (v.step o) := by
  cases o with
  | signal i op =>
    refine moved_guards h (operate_moved h.inv i op) rfl fun c g hc => ?_
    cases g with
    | scopedConnection => exact hc
    | observer o => exact hc
  | connectScoped i callable tracked gid => exact connectScoped_guards h i callable tracked gid
  | moveConstruct j => exact moveConstruct_guards h j
  | moveAssign k j => exact moveAssign_guards h k j
  | destroyScoped k => exact destroyScoped_guards h k
  | makeObserver =>
    refine moved_guards h ⟨h.inv, fun _ => .rfl⟩ rfl fun c g hc => ?_
    cases g with
    | scopedConnection => exact hc
    | observer o =>
      obtain ⟨cs, hcs, hmem⟩ := hc
      have hlt : o < v.observers.length := (List.getElem?_eq_some_iff.mp hcs).1
      exact ⟨cs, (List.getElem?_append_left hlt).trans hcs, hmem⟩
  | connectObserver i callable o gid => exact connectObserver_guards h i callable o gid
  | disconnectAll o => exact clearConnections_guards h o (some [])
  | destroyObserver o => exact clearConnections_guards h o none

theorem new_guarding : Guarding (Program.new : Program K A) where
  inv _ := inv_new
  made _ _ hc := absurd hc List.not_mem_nil
  kept _ _ hc := absurd hc List.not_mem_nil

/-- In every run, a slot that was connected with a scoped connection or to an observer is called
    only while the connection is in a variable or the observer lives with it. -/
theorem called_while_held (ops : List (ProgramOp K A)) :
    Each Program.step (fun v o => ∀ i s g e, ((i, s), g) ∈ v.guarded →
      (called (v.signals i) e).count s < (called ((v.step o).signals i) e).count s →
        Held v (i, s) g) (.new : Program K A) ops := by
  refine each_iff_split.mpr fun before o rest _ i s g e hguarded hcalled => ?_
  have hguarding : Guarding (after Program.step (.new : Program K A) before) :=
    invariant_after (I := Guarding) (fun _ o h => (step_guards h o).toGuarding) new_guarding before
  rcases hguarding.kept (i, s) g hguarded with hmute | hheld
  · have hsame := (((step_guards hguarding o).ahead i).mute s hmute).2 e
    exact absurd hsame (Nat.ne_of_gt hcalled)
  · exact hheld

end QuailServer.ScopedConnections
