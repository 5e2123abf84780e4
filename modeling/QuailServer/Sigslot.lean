import Mathlib.Algebra.GroupWithZero.Nat
import Mathlib.Algebra.Ring.Int.Defs
import QuailServer.Library.StepMachine
import QuailServer.Library.SwapRemove

set_option autoImplicit false

namespace QuailServer.Sigslot
open SwapRemove

/-- A slot is named by the order in which `make_slot` allocates it. -/
abbrev SlotId := ℕ

/-- `slot_base`. A slot with a tracked object is a `slot_tracked` or a `slot_pmf_tracked`. -/
structure SlotBase (K : Type) where
  callable : K
  tracked : Option ℕ
  index : ℕ
  group : ℤ
  connected : Bool
  blocked : Bool
  deriving DecidableEq

structure GroupType where
  slts : List SlotId
  gid : ℤ
  deriving DecidableEq

/-- `operator()` under way: `held` are the slots of the list `ref` that it keeps alive, `rest`
    those it has not come to. -/
structure Emission (A : Type) where
  args : A
  held : List SlotId
  rest : List SlotId
  deriving DecidableEq

structure Call (A : Type) where
  emission : ℕ
  slot : SlotId
  args : A
  deriving DecidableEq

/-- `slots` are all slots ever made, `groups` is `m_slots`. The objects of `expired` are gone. Every
    operation under `m_mutex` is one step, and so is each slot that an emission comes to. -/
structure SignalBase (K A : Type) where
  slots : List (SlotBase K)
  groups : List GroupType
  block : Bool
  expired : List ℕ
  emissions : List (Emission A)
  calls : List (Call A)
  deriving DecidableEq

def order (groups : List GroupType) : List SlotId := groups.flatMap GroupType.slts

def addSlot (s : SlotId) (gid : ℤ) : List GroupType → List GroupType × ℕ
  | [] => ([⟨[s], gid⟩], 0)
  | g :: groups =>
    if g.gid < gid then
      let (groups, index) := addSlot s gid groups
      (g :: groups, index)
    else if g.gid ≠ gid then (⟨[s], gid⟩ :: g :: groups, 0)
    else (⟨g.slts ++ [s], g.gid⟩ :: groups, g.slts.length)

section Lists
variable {K : Type}

def dropSlot (i : ℕ) (slts : List SlotId) (slots : List (SlotBase K)) :
    List SlotId × List (SlotBase K) :=
  match slts.getLast? with
  | some last => (swapRemove slts i, slots.modify last ({ · with index := i }))
  | none => (slts, slots)

def clean (s : SlotId) (idx : ℕ) (gid : ℤ) :
    List GroupType → List (SlotBase K) → List GroupType × List (SlotBase K)
  | [], slots => ([], slots)
  | g :: groups, slots =>
    if g.gid = gid then
      if g.slts[idx]? = some s then
        let (slts, slots) := dropSlot idx g.slts slots
        (⟨slts, g.gid⟩ :: groups, slots)
      else (g :: groups, slots)
    else
      let (groups, slots) := clean s idx gid groups slots
      (g :: groups, slots)

/-- The loop of `disconnect_if` in one group. A turn lowers `slts.size() - i`, the first argument,
    by one. -/
def disconnectIfLoop (cond : SlotId → Bool) :
    ℕ → ℕ → List SlotId → List (SlotBase K) → List SlotId × List (SlotBase K) × ℕ
  | 0, _, slts, slots => (slts, slots, 0)
  | n + 1, i, slts, slots =>
    match slts[i]? with
    | none => (slts, slots, 0)
    | some s =>
      if cond s then
        let (slts, slots) := dropSlot i slts slots
        let (slts, slots, count) := disconnectIfLoop cond n i slts slots
        (slts, slots, count + 1)
      else disconnectIfLoop cond n (i + 1) slts slots

def disconnectIf (cond : SlotId → Bool) :
    List GroupType → List (SlotBase K) → List GroupType × List (SlotBase K) × ℕ
  | [], slots => ([], slots, 0)
  | g :: groups, slots =>
    let (slts, slots, n) := disconnectIfLoop cond g.slts.length 0 g.slts slots
    let (groups, slots, count) := disconnectIf cond groups slots
    (⟨slts, g.gid⟩ :: groups, slots, n + count)

end Lists

def clearGroup (gid : ℤ) : List GroupType → List GroupType × ℕ
  | [] => ([], 0)
  | g :: groups =>
    if g.gid = gid then (⟨[], g.gid⟩ :: groups, g.slts.length)
    else
      let (groups, count) := clearGroup gid groups
      (g :: groups, count)

namespace SignalBase
variable {K A : Type}

def new : SignalBase K A := ⟨[], [], false, [], [], []⟩

def connect (callable : K) (tracked : Option ℕ) (gid : ℤ) (v : SignalBase K A) : SignalBase K A :=
  let (groups, index) := addSlot v.slots.length gid v.groups
  { v with slots := v.slots ++ [⟨callable, tracked, index, gid, true, false⟩], groups }

def disconnectSlot (s : SlotId) (v : SignalBase K A) : SignalBase K A × Bool :=
  match v.slots[s]? with
  | some slot =>
    if slot.connected then
      let slots := v.slots.modify s ({ · with connected := false })
      let (groups, slots) := clean s slot.index slot.group v.groups slots
      ({ v with groups, slots }, true)
    else (v, false)
  | none => (v, false)

/-- The weak pointer of a connection has not expired: the signal or an emission shares the slot. -/
def alive (s : SlotId) (v : SignalBase K A) : Bool :=
  decide (s ∈ order v.groups) || v.emissions.any fun x => decide (s ∈ x.held)

/-- `connection::disconnect`, which `scoped_connection` and `observer_base` come down to. -/
def disconnect (s : SlotId) (v : SignalBase K A) : SignalBase K A × Bool :=
  if v.alive s then v.disconnectSlot s else (v, false)

def setBlocked (s : SlotId) (blocked : Bool) (v : SignalBase K A) : SignalBase K A :=
  if v.alive s then { v with slots := v.slots.modify s ({ · with blocked := blocked }) } else v

def gone (slot : SlotBase K) (v : SignalBase K A) : Bool :=
  slot.tracked.any fun object => decide (object ∈ v.expired)

def connected (s : SlotId) (v : SignalBase K A) : Bool :=
  v.alive s && v.slots[s]?.any fun slot => slot.connected && !v.gone slot

def removeIf (cond : SlotId → Bool) (v : SignalBase K A) : SignalBase K A × ℕ :=
  let (groups, slots, count) := Sigslot.disconnectIf cond v.groups v.slots
  ({ v with groups, slots }, count)

def removeGroup (gid : ℤ) (v : SignalBase K A) : SignalBase K A × ℕ :=
  let (groups, count) := clearGroup gid v.groups
  ({ v with groups }, count)

def disconnectAll (v : SignalBase K A) : SignalBase K A := { v with groups := [] }

def slotCount (v : SignalBase K A) : ℕ := (v.groups.map fun g => g.slts.length).sum

/-- `operator()` up to its loops. Nothing is emitted by a blocked signal. -/
def emit (args : A) (v : SignalBase K A) : SignalBase K A :=
  let ref := if v.block then [] else order v.groups
  { v with emissions := v.emissions ++ [⟨args, ref, ref⟩] }

def callSlot (e : ℕ) (s : SlotId) (args : A) (v : SignalBase K A) : SignalBase K A :=
  match v.slots[s]? with
  | some slot =>
    if slot.connected && !slot.blocked then
      if v.gone slot then (v.disconnectSlot s).1
      else { v with calls := v.calls ++ [⟨e, s, args⟩] }
    else v
  | none => v

/-- The next turn of the loops of an emission. After the last one `ref` is released. -/
def advance (e : ℕ) (v : SignalBase K A) : SignalBase K A :=
  match v.emissions[e]? with
  | some x =>
    match x.rest with
    | [] => { v with emissions := v.emissions.set e ⟨x.args, [], []⟩ }
    | s :: rest =>
      { v with emissions := v.emissions.set e ⟨x.args, x.held, rest⟩ }.callSlot e s x.args
  | none => v

end SignalBase

/-- The condition of `disconnect_if` stands for the callable and the object it looks for. -/
inductive Op (K A : Type) where
  | connect (callable : K) (tracked : Option ℕ) (gid : ℤ)
  | disconnect (s : SlotId)
  | setBlocked (s : SlotId) (blocked : Bool)
  | disconnectIf (cond : SlotId → Bool)
  | disconnectGroup (gid : ℤ)
  | disconnectAll
  | block (blocked : Bool)
  | expire (object : ℕ)
  | emit (args : A)
  | advance (e : ℕ)

variable {K A : Type}

def step (v : SignalBase K A) : Op K A → SignalBase K A
  | .connect callable tracked gid => v.connect callable tracked gid
  | .disconnect s => (v.disconnect s).1
  | .setBlocked s blocked => v.setBlocked s blocked
  | .disconnectIf cond => (v.removeIf cond).1
  | .disconnectGroup gid => (v.removeGroup gid).1
  | .disconnectAll => v.disconnectAll
  | .block blocked => { v with block := blocked }
  | .expire object => { v with expired := object :: v.expired }
  | .emit args => v.emit args
  | .advance e => v.advance e

def run (ops : List (Op K A)) : SignalBase K A := StepMachine.after step .new ops

end QuailServer.Sigslot
