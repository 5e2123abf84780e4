import QuailServer.Library.OwnerCount
import QuailServer.Library.StepMachine

set_option autoImplicit false

namespace QuailServer.ReferenceCounted
open OwnerCount StepMachine

abbrev ObjectId := ℕ

/-- `QuicheReferenceCountedImpl`. The memory of a deleted object is not used for another. -/
structure QuicheReferenceCountedImpl where
  refCount : Int32
  deleted : Bool
  deriving DecidableEq

inductive MemoryEffect where
  | dcheck (holds : Bool)
  | delete (p : ObjectId)
  | useAfterDelete (p : ObjectId)
  deriving DecidableEq

structure Memory where
  objects : ObjectId → QuicheReferenceCountedImpl
  made : ℕ
  /-- `object_` of the pointer variables. -/
  pointers : List (Option ObjectId)
  trace : List MemoryEffect

namespace Memory

def new : Memory := ⟨fun _ => ⟨0, false⟩, 0, [], []⟩

def emit (e : MemoryEffect) (v : Memory) : Memory := { v with trace := v.trace ++ [e] }

def setCount (p : ObjectId) (count : Int32) (v : Memory) : Memory :=
  { v with objects := Function.update v.objects p { v.objects p with refCount := count } }

def setDeleted (p : ObjectId) (v : Memory) : Memory :=
  { v with objects := Function.update v.objects p { v.objects p with deleted := true } }

def setObject (k : ℕ) (object : Option ObjectId) (v : Memory) : Memory :=
  { v with pointers := v.pointers.set k object }

def get (k : ℕ) (v : Memory) : Option ObjectId := (v.pointers[k]?).join

def allocate (v : Memory) : Memory :=
  { v with
    objects := Function.update v.objects v.made ⟨1, false⟩
    made := v.made + 1 }

def addReference (p : ObjectId) (v : Memory) : Memory :=
  if (v.objects p).deleted then v.emit (.useAfterDelete p)
  else v.setCount p ((v.objects p).refCount + 1)

/-- `delete` with the check of the destructor, of an object that owns no pointers itself. -/
def delete (p : ObjectId) (v : Memory) : Memory :=
  ((v.emit (.dcheck (decide ((v.objects p).refCount = 0)))).emit (.delete p)).setDeleted p

/-- `RemoveReference`, and the `delete` that it asks the pointer for. -/
def removeReference (p : ObjectId) (v : Memory) : Memory :=
  if (v.objects p).deleted then v.emit (.useAfterDelete p)
  else
    let old := (v.objects p).refCount
    -- `fetch_sub` wraps; the subtraction from what it returns does not.
    let newCount := old.toInt - 1
    let v := (v.setCount p (old - 1)).emit (.dcheck (decide (0 ≤ newCount)))
    if newCount = 0 then v.delete p else v

def hasUniqueReference (p : ObjectId) (v : Memory) : Bool := decide ((v.objects p).refCount = 1)

def pointerAddReference (k : ℕ) (v : Memory) : Memory :=
  match v.get k with
  | none => v
  | some p => v.addReference p

def pointerRemoveReference (k : ℕ) (v : Memory) : Memory :=
  match v.get k with
  | none => v
  | some p => (v.removeReference p).setObject k none

def assignObject (k : ℕ) (newObject : Option ObjectId) (v : Memory) : Memory :=
  (v.pointerRemoveReference k).setObject k newObject

/-- `operator=(T* p)`. -/
def assignRaw (k : ℕ) (p : Option ObjectId) (v : Memory) : Memory :=
  let v := v.assignObject k p
  match p with
  | some p => v.emit (.dcheck (v.hasUniqueReference p))
  | none => v

def declare (v : Memory) : Memory := { v with pointers := v.pointers ++ [none] }

/-- The copy assignments. `other.object_` is read before the old reference is removed. -/
def copyAssign (k j : ℕ) (v : Memory) : Memory := (v.assignObject k (v.get j)).pointerAddReference k

def moveAssign (k j : ℕ) (v : Memory) : Memory := (v.assignObject k (v.get j)).setObject j none

/-- The move assignment from a pointer of another type, which copies first. -/
def convertingMoveAssign (k j : ℕ) (v : Memory) : Memory :=
  ((v.assignObject k (v.get j)).pointerAddReference k).assignRaw j none

def copyConstruct (j : ℕ) (v : Memory) : Memory :=
  let k := v.pointers.length
  ((v.declare).assignObject k (v.get j)).pointerAddReference k

def moveConstruct (j : ℕ) (v : Memory) : Memory :=
  let k := v.pointers.length
  ((v.declare).setObject k (v.get j)).setObject j none

def convertingMoveConstruct (j : ℕ) (v : Memory) : Memory :=
  let k := v.pointers.length
  (((v.declare).setObject k (v.get j)).pointerAddReference k).assignRaw j none

def construct (v : Memory) : Memory :=
  let k := v.pointers.length
  let p := v.made
  let v := (v.allocate.declare).setObject k (some p)
  v.emit (.dcheck (v.hasUniqueReference p))

def assignNew (k : ℕ) (v : Memory) : Memory := v.allocate.assignRaw k (some v.made)

end Memory

/-- The pointer classes of an event with two pointers may differ, unless the pointers do not. -/
inductive PointerEvent where
  | defaultConstruct
  | construct
  | copyConstruct (j : ℕ)
  | moveConstruct (j : ℕ)
  | convertingMoveConstruct (j : ℕ)
  | copyAssign (k j : ℕ)
  | moveAssign (k j : ℕ)
  | convertingMoveAssign (k j : ℕ)
  | assignNew (k : ℕ)
  | assignNull (k : ℕ)
  | destroy (k : ℕ)

/-- A variable that was destroyed, or that does not exist, points to nothing. -/
def Memory.step (v : Memory) : PointerEvent → Memory
  | .defaultConstruct => v.declare
  | .construct => v.construct
  | .copyConstruct j => v.copyConstruct j
  | .moveConstruct j => v.moveConstruct j
  | .convertingMoveConstruct j => v.convertingMoveConstruct j
  | .copyAssign k j => if k < v.pointers.length then v.copyAssign k j else v
  | .moveAssign k j => if k < v.pointers.length then v.moveAssign k j else v
  | .convertingMoveAssign k j =>
    if k < v.pointers.length ∧ k ≠ j then v.convertingMoveAssign k j else v
  | .assignNew k => if k < v.pointers.length then v.assignNew k else v
  | .assignNull k => if k < v.pointers.length then v.assignRaw k none else v
  | .destroy k => if k < v.pointers.length then v.pointerRemoveReference k else v

def MemoryEffect.ok : MemoryEffect → Bool
  | .dcheck holds => holds
  | .delete _ => true
  | .useAfterDelete _ => false

def deletions (trace : List MemoryEffect) : List ObjectId :=
  trace.filterMap fun
    | .delete p => some p
    | _ => none

/-- No check fails and no object is used after it was deleted. The counts are the numbers of
    pointers, and an object is deleted, once, when the last pointer to it is gone. -/
structure Owned (v : Memory) : Prop where
  safe : ∀ e ∈ v.trace, e.ok = true
  counts : Counts v.pointers fun p => (v.objects p).refCount.toInt
  deleted : ∀ p, p ∈ deletions v.trace ↔ p < v.made ∧ some p ∉ v.pointers
  once : (deletions v.trace).Nodup

def maxCount : ℕ := 2147483647

def Room (v : Memory) (pointers : List (Option ObjectId)) (j : ℕ) : Prop :=
  ∀ p, v.get j = some p → pointers.count (some p) < maxCount

/-- No pointer that holds the only reference is assigned to itself, and no object gets more pointers
    than an `int` counts. An assignment removes its old reference first. -/
def Countable (v : Memory) : PointerEvent → Prop
  | .copyConstruct j => Room v v.pointers j
  | .convertingMoveConstruct j => Room v v.pointers j
  | .copyAssign k j => k < v.pointers.length →
      (k = j → ∀ p, v.get k = some p → some p ∈ v.pointers.set k none) ∧
        Room v (v.pointers.set k none) j
  | .convertingMoveAssign k j => k < v.pointers.length → k ≠ j → Room v (v.pointers.set k none) j
  | _ => True

structure Inv (owners : List (Option ObjectId)) (v : Memory) : Prop where
  safe : ∀ e ∈ v.trace, e.ok = true
  lives : Lifetimes owners (fun p => (v.objects p).refCount.toInt) (· < v.made) (· ∈ deletions v.trace)
  flags : ∀ p, (v.objects p).deleted = true ↔ p ∈ deletions v.trace
  once : (deletions v.trace).Nodup

section Objects
variable {owners : List (Option ObjectId)} {v : Memory} {p : ObjectId} {k j : ℕ}

theorem toInt_increment {c : Int32} (hnonneg : 0 ≤ c.toInt) (hroom : c.toInt < maxCount) :
    (c + 1).toInt = c.toInt + 1 := by
  unfold maxCount at hroom
  rw [Int32.toInt_add, Int32.toInt_one]
  exact Int.bmod_eq_of_le_mul_two (by omega) (by omega)

theorem toInt_decrement {c : Int32} (hpos : 0 ≤ c.toInt - 1) : (c - 1).toInt = c.toInt - 1 := by
  have hlt := c.toInt_lt
  rw [Int32.toInt_sub, Int32.toInt_one]
  exact Int.bmod_eq_of_le_mul_two (by omega) (by omega)

theorem toInt_wrap {c : Int32} (hfull : c.toInt = maxCount) : (c + 1).toInt < 0 := by
  rw [Int32.toInt_add, Int32.toInt_one, hfull]
  decide

theorem deletions_append (t u : List MemoryEffect) :
    deletions (t ++ u) = deletions t ++ deletions u := List.filterMap_append

theorem Inv.alive (h : Inv owners v) (hp : some p ∈ owners) : (v.objects p).deleted = false := by
  rw [← Bool.not_eq_true, h.flags p, h.lives.gone p]
  exact fun hgone => hgone.2 hp

theorem inv_push : Inv (owners ++ [none]) v ↔ Inv owners v := by
  constructor
  · rintro ⟨hsafe, hlives, hflags, honce⟩
    exact ⟨hsafe, lifetimes_push.mp hlives, hflags, honce⟩
  · rintro ⟨hsafe, hlives, hflags, honce⟩
    exact ⟨hsafe, lifetimes_push.mpr hlives, hflags, honce⟩

theorem Inv.move (h : Inv owners v) {o : Option ObjectId} (hk : owners[k]? = some none)
    (hj : owners[j]? = some o) (hne : k ≠ j) : Inv ((owners.set k o).set j none) v :=
  ⟨h.safe, h.lives.move hk hj hne, h.flags, h.once⟩

theorem setCount_refCount (c : Int32) (q : ObjectId) : ((v.setCount p c).objects q).refCount.toInt =
    Function.update (fun q => (v.objects q).refCount.toInt) p c.toInt q := by
  unfold Memory.setCount
  simp only [Function.update_apply]
  split <;> rfl

theorem setCount_deleted (c : Int32) (q : ObjectId) :
    ((v.setCount p c).objects q).deleted = (v.objects q).deleted := by
  unfold Memory.setCount
  simp only [Function.update_apply]
  split
  · next hq => rw [hq]
  · rfl

theorem Inv.check (h : Inv owners v) {holds : Bool} (hholds : holds = true) :
    Inv owners (v.emit (.dcheck holds)) := by
  have hsame : deletions (v.emit (.dcheck holds)).trace = deletions v.trace := by
    refine (deletions_append v.trace [.dcheck holds]).trans ?_
    exact List.append_nil _
  refine ⟨?_, h.lives.congr (fun _ => rfl) (fun _ => Iff.rfl) fun q => ?_, fun q => ?_, ?_⟩
  · exact List.forall_mem_append.mpr ⟨h.safe, List.forall_mem_singleton.mpr hholds⟩
  · rw [hsame]
  · rw [hsame]
    exact h.flags q
  · rw [hsame]
    exact h.once

theorem Inv.addReference (h : Inv owners v) (hk : owners[k]? = some none) (hp : some p ∈ owners)
    (hroom : owners.count (some p) < maxCount) :
    Inv (owners.set k (some p)) (v.addReference p) := by
  have hcount := h.lives.counts p
  have hadded := toInt_increment (h.lives.counts.nonneg p) (by omega)
  have hadd : v.addReference p = v.setCount p ((v.objects p).refCount + 1) :=
    if_neg (by simp [h.alive hp])
  rw [hadd]
  refine ⟨h.safe, (h.lives.take hk hp).congr (fun q => ?_) (fun _ => Iff.rfl) fun _ => Iff.rfl,
    fun q => ?_, h.once⟩
  · rw [setCount_refCount, hadded]
  · rw [setCount_deleted]
    exact h.flags q

theorem Inv.removeReference (h : Inv owners v) (hk : owners[k]? = some (some p)) :
    Inv (owners.set k none) (v.removeReference p) := by
  have hp : some p ∈ owners := List.mem_of_getElem? hk
  have hnew : p ∉ deletions v.trace := fun hmem => ((h.lives.gone p).mp hmem).2 hp
  obtain ⟨hnonneg, hlives⟩ := h.lives.drop hk
  have hdropped := toInt_decrement hnonneg
  unfold Memory.removeReference
  rw [if_neg (by simp [h.alive hp])]
  dsimp only
  split
  · next hlast =>
    have hzero : (v.objects p).refCount - 1 = 0 :=
      Int32.toInt.inj (hdropped.trans (hlast.trans Int32.toInt_zero.symm))
    have htrace : (((v.setCount p ((v.objects p).refCount - 1)).emit
        (.dcheck (decide (0 ≤ (v.objects p).refCount.toInt - 1)))).delete p).trace =
        v.trace ++ [.dcheck true, .dcheck true, .delete p] := by
      simp [Memory.delete, Memory.emit, Memory.setDeleted, Memory.setCount, hlast, hzero]
    have hdeletions : deletions (v.trace ++ [.dcheck true, .dcheck true, .delete p]) =
        deletions v.trace ++ [p] := deletions_append _ _
    refine ⟨?_, hlives.congr (fun q => ?_) (fun _ => Iff.rfl) fun q => ?_, fun q => ?_, ?_⟩
    · rw [htrace]
      exact List.forall_mem_append.mpr ⟨h.safe, by simp [MemoryEffect.ok]⟩
    · rw [← hdropped, ← setCount_refCount]
      simp only [Memory.delete, Memory.emit, Memory.setDeleted, Function.update_apply]
      split
      · next hq => rw [hq]
      · rfl
    · rw [htrace, hdeletions]
      simp [hlast]
    · rw [htrace, hdeletions, List.mem_append, List.mem_singleton, ← h.flags q]
      by_cases hq : q = p
      · simp [Memory.delete, Memory.setDeleted, hq]
      · simp [Memory.delete, Memory.emit, Memory.setDeleted, Memory.setCount, hq]
    · rw [htrace, hdeletions]
      exact List.nodup_append.mpr ⟨h.once, by simp, by
        rintro q hq q' hq' rfl
        exact hnew (List.mem_singleton.mp hq' ▸ hq)⟩
  · next hlast =>
    have hcounted : Inv (owners.set k none) (v.setCount p ((v.objects p).refCount - 1)) := by
      refine ⟨h.safe, hlives.congr (fun q => ?_) (fun _ => Iff.rfl) fun q => ?_, fun q => ?_, h.once⟩
      · rw [setCount_refCount, hdropped]
      · exact (or_iff_left fun hgone => hlast hgone.2).symm
      · rw [setCount_deleted]
        exact h.flags q
    exact hcounted.check (decide_eq_true hnonneg)

theorem Inv.allocate (h : Inv owners v) (hk : owners[k]? = some none) :
    Inv (owners.set k (some v.made)) v.allocate := by
  have hnew : v.made ∉ deletions v.trace := fun hmem =>
    Nat.lt_irrefl _ ((h.lives.gone v.made).mp hmem).1
  refine ⟨h.safe, (h.lives.make hk (Nat.lt_irrefl _)).congr (fun q => ?_) (fun q => ?_)
    fun _ => Iff.rfl, fun q => ?_, h.once⟩
  · simp only [Memory.allocate, Function.update_apply]
    split <;> rfl
  · exact Nat.lt_succ_iff_lt_or_eq
  · change _ ↔ q ∈ deletions v.trace
    by_cases hq : q = v.made
    · subst hq
      exact iff_of_false (by simp [Memory.allocate]) hnew
    · rw [← h.flags q]
      simp [Memory.allocate, hq]

end Objects

section Pointers
variable {v u : Memory} {k j : ℕ} {o : Option ObjectId}

theorem addReference_pointers (v : Memory) (p : ObjectId) : (v.addReference p).pointers = v.pointers := by
  unfold Memory.addReference
  split <;> rfl

theorem removeReference_pointers (v : Memory) (p : ObjectId) :
    (v.removeReference p).pointers = v.pointers := by
  unfold Memory.removeReference
  split
  · rfl
  · dsimp only
    split <;> rfl

theorem pointerRemoveReference_made (v : Memory) (k : ℕ) :
    (v.pointerRemoveReference k).made = v.made := by
  unfold Memory.pointerRemoveReference
  cases v.get k with
  | none => rfl
  | some p =>
    change (v.removeReference p).made = v.made
    unfold Memory.removeReference
    split
    · rfl
    · dsimp only
      split <;> rfl

theorem get_of_lt (hk : k < v.pointers.length) : v.pointers[k]? = some (v.get k) := by
  unfold Memory.get
  rw [List.getElem?_eq_getElem hk]
  rfl

structure Points (pointers : List (Option ObjectId)) (v : Memory) : Prop where
  same : v.pointers = pointers
  inv : Inv pointers v

theorem Inv.setObject {owners : List (Option ObjectId)} (h : Inv owners v) :
    Inv owners (v.setObject k o) := ⟨h.safe, h.lives, h.flags, h.once⟩

theorem Points.sound {pointers : List (Option ObjectId)} (h : Points pointers v) : Inv v.pointers v := by
  rw [h.same]
  exact h.inv

theorem pointerRemoveReference_inv {extra : List (Option ObjectId)} (h : Inv (v.pointers ++ extra) v)
    (hk : k < v.pointers.length) : (v.pointerRemoveReference k).pointers = v.pointers.set k none ∧
      Inv (v.pointers.set k none ++ extra) (v.pointerRemoveReference k) := by
  have hget := get_of_lt hk
  have howner : (v.pointers ++ extra)[k]? = some (v.get k) := by
    rw [List.getElem?_append_left hk, hget]
  have hset : (v.pointers ++ extra).set k none = v.pointers.set k none ++ extra :=
    List.set_append_left k none hk
  unfold Memory.pointerRemoveReference
  cases hobject : v.get k with
  | none =>
    rw [hobject] at hget
    dsimp only
    rw [set_same hget]
    exact ⟨rfl, h⟩
  | some p =>
    rw [hobject] at howner
    have hinv := h.removeReference howner
    rw [hset] at hinv
    exact ⟨congrArg (fun l => l.set k none) (removeReference_pointers v p), hinv.setObject⟩

theorem pointerRemoveReference_points (h : Inv v.pointers v) (hk : k < v.pointers.length) :
    Points (v.pointers.set k none) (v.pointerRemoveReference k) := by
  have hextra : Inv (v.pointers ++ []) v := by
    rw [List.append_nil]
    exact h
  obtain ⟨hsame, hinv⟩ := pointerRemoveReference_inv hextra hk
  rw [List.append_nil] at hinv
  exact ⟨hsame, hinv⟩

theorem takeReference_points {pointers : List (Option ObjectId)} (h : Points pointers v)
    (hk : pointers[k]? = some none) (ho : ∀ p, o = some p → some p ∈ pointers)
    (hroom : ∀ p, o = some p → pointers.count (some p) < maxCount) :
    Points (pointers.set k o) ((v.setObject k o).pointerAddReference k) := by
  have hlt := (List.getElem?_eq_some_iff.mp hk).1
  have hget : (v.setObject k o).get k = o := by
    unfold Memory.get Memory.setObject
    rw [h.same, List.getElem?_set_self hlt]
    rfl
  have hpointers : (v.setObject k o).pointers = pointers.set k o :=
    congrArg (fun l => l.set k o) h.same
  unfold Memory.pointerAddReference
  rw [hget]
  cases o with
  | none =>
    refine ⟨hpointers, ?_⟩
    rw [set_same hk]
    exact h.inv.setObject
  | some p =>
    exact ⟨(addReference_pointers _ p).trans hpointers,
      h.inv.setObject.addReference hk (ho p rfl) (hroom p rfl)⟩

/-- The copy assignment is sound unless it drops the only reference before it takes it. -/
theorem copyAssign_points (h : Inv v.pointers v) (hk : k < v.pointers.length)
    (ho : ∀ p, v.get j = some p → some p ∈ v.pointers.set k none)
    (hroom : Room v (v.pointers.set k none) j) :
    Points ((v.pointers.set k none).set k (v.get j)) (v.copyAssign k j) := by
  have hnone : (v.pointers.set k none)[k]? = some none := List.getElem?_set_self hk
  exact takeReference_points (pointerRemoveReference_points h hk) hnone ho hroom

theorem get_beyond (hj : v.pointers.length ≤ j) : v.get j = none := by
  unfold Memory.get
  rw [List.getElem?_eq_none hj]
  rfl

theorem Points.move {pointers : List (Option ObjectId)} (h : Points pointers v)
    (hk : pointers[k]? = some none) (hj : pointers[j]? = some o ∨ pointers.length ≤ j ∧ o = none)
    (hne : k ≠ j) : Points ((pointers.set k o).set j none) ((v.setObject k o).setObject j none) := by
  have hpointers : ((v.setObject k o).setObject j none).pointers = (pointers.set k o).set j none := by
    change (v.pointers.set k o).set j none = _
    rw [h.same]
  refine ⟨hpointers, ?_⟩
  rcases hj with hj | ⟨hlen, rfl⟩
  · exact (h.inv.move hk hj hne).setObject.setObject
  · rw [set_same hk, List.set_eq_of_length_le hlen]
    exact h.inv.setObject.setObject

theorem moveAssign_points (h : Inv v.pointers v) (hk : k < v.pointers.length) (j : ℕ) :
    Inv (v.moveAssign k j).pointers (v.moveAssign k j) := by
  have hremoved := (pointerRemoveReference_points h hk)
  have hnone : (v.pointers.set k none)[k]? = some none := List.getElem?_set_self hk
  change Inv _ (((v.pointerRemoveReference k).setObject k (v.get j)).setObject j none)
  by_cases hkj : k = j
  · subst hkj
    have hpointers : (v.moveAssign k k).pointers = v.pointers.set k none := by
      change ((v.pointerRemoveReference k).pointers.set k _).set k none = _
      rw [hremoved.same, List.set_set, List.set_set]
    rw [hpointers]
    exact hremoved.inv.setObject.setObject
  · refine (hremoved.move hnone ?_ hkj).sound
    rw [List.getElem?_set_ne hkj, List.length_set]
    by_cases hj : j < v.pointers.length
    · exact Or.inl (get_of_lt hj)
    · exact Or.inr ⟨Nat.not_lt.mp hj, get_beyond (Nat.not_lt.mp hj)⟩

theorem get_some {p : ObjectId} (h : v.get j = some p) : v.pointers[j]? = some (some p) :=
  Option.join_eq_some_iff.mp h

theorem mem_set_of_get {p : ObjectId} (h : v.get j = some p) (hne : j ≠ k) :
    some p ∈ v.pointers.set k none := by
  refine List.mem_of_getElem? (i := j) ?_
  rw [List.getElem?_set_ne hne.symm]
  exact get_some h

theorem assignNull_inv (h : Inv v.pointers v) (k : ℕ) :
    Inv (v.assignRaw k none).pointers (v.assignRaw k none) := by
  change Inv ((v.pointerRemoveReference k).pointers.set k none)
    ((v.pointerRemoveReference k).setObject k none)
  by_cases hk : k < v.pointers.length
  · have hremoved := pointerRemoveReference_points h hk
    rw [hremoved.same, List.set_set]
    exact hremoved.inv.setObject
  · have hsame : v.pointerRemoveReference k = v := by
      unfold Memory.pointerRemoveReference
      rw [get_beyond (Nat.not_lt.mp hk)]
    rw [hsame, List.set_eq_of_length_le (Nat.not_lt.mp hk)]
    exact h.setObject

theorem convertingMoveAssign_inv (h : Inv v.pointers v) (hk : k < v.pointers.length) (hkj : k ≠ j)
    (hroom : Room v (v.pointers.set k none) j) :
    Inv (v.convertingMoveAssign k j).pointers (v.convertingMoveAssign k j) :=
  assignNull_inv (copyAssign_points h hk (fun _ hp => mem_set_of_get hp hkj.symm) hroom).sound j

theorem assignNew_inv (h : Inv v.pointers v) (hk : k < v.pointers.length) :
    Inv (v.assignNew k).pointers (v.assignNew k) := by
  have hpush : (v.pointers ++ [none])[v.pointers.length]? = some none := by simp
  have hnew : Inv (v.pointers ++ [some v.made]) v.allocate := by
    have hallocated := (inv_push.mpr h).allocate hpush
    rw [List.set_append_right _ _ (Nat.le_refl _), Nat.sub_self] at hallocated
    exact hallocated
  obtain ⟨hsame, hremoved⟩ := pointerRemoveReference_inv (v := v.allocate) hnew hk
  have hsamePointers : v.allocate.pointers = v.pointers := rfl
  rw [hsamePointers] at hsame hremoved
  have hfree : some v.made ∉ v.pointers.set k none := by
    intro hmem
    rcases List.mem_or_eq_of_mem_set hmem with hmem | heq
    · exact Nat.lt_irrefl _ (h.lives.known _ hmem)
    · cases heq
  have hunique : ((v.allocate.pointerRemoveReference k).objects v.made).refCount = 1 := by
    refine Int32.toInt.inj ((hremoved.lives.counts v.made).trans ?_)
    rw [List.count_append, List.count_eq_zero.mpr hfree]
    simp
  have hlen : (v.pointers.set k none).length = v.pointers.length := List.length_set
  have hmoved := hremoved.move (k := k) (j := v.pointers.length) (o := some v.made)
    (by rw [List.getElem?_append_left (hlen ▸ hk)]; exact List.getElem?_set_self hk)
    (by rw [← hlen]; exact List.getElem?_concat_length) (Nat.ne_of_lt hk)
  have hset : ((v.pointers.set k none ++ [some v.made]).set k (some v.made)).set v.pointers.length none =
      v.pointers.set k (some v.made) ++ [none] := by
    rw [List.set_append_left _ _ (hlen ▸ hk), List.set_append_right _ _ (by simp), List.set_set]
    simp
  rw [hset, inv_push] at hmoved
  have hpointers : (v.assignNew k).pointers = v.pointers.set k (some v.made) := by
    change (v.allocate.pointerRemoveReference k).pointers.set k (some v.made) = _
    rw [hsame, List.set_set]
  rw [hpointers]
  exact hmoved.setObject.check (decide_eq_true hunique)

theorem declare_inv (h : Inv v.pointers v) : Inv v.declare.pointers v.declare := by
  have hpush := inv_push.mpr h
  exact ⟨hpush.safe, hpush.lives, hpush.flags, hpush.once⟩

theorem declare_lt (v : Memory) : v.pointers.length < v.declare.pointers.length := by
  simp [Memory.declare]

theorem declare_get (v : Memory) (j : ℕ) : v.declare.get j = v.get j := by
  unfold Memory.get Memory.declare
  dsimp only
  by_cases hj : j < v.pointers.length
  · rw [List.getElem?_append_left hj]
  · rw [List.getElem?_append_right (Nat.not_lt.mp hj), List.getElem?_eq_none (Nat.not_lt.mp hj)]
    cases j - v.pointers.length <;> rfl

theorem declare_null (v : Memory) : v.declare.get v.pointers.length = none := by
  rw [declare_get]
  exact get_beyond (Nat.le_refl _)

theorem removeReference_null (hk : v.get k = none) : v.pointerRemoveReference k = v := by
  unfold Memory.pointerRemoveReference
  rw [hk]

theorem copyConstruct_eq (v : Memory) (j : ℕ) :
    v.copyConstruct j = v.declare.copyAssign v.pointers.length j := by
  unfold Memory.copyConstruct Memory.copyAssign
  rw [declare_get]

theorem moveConstruct_eq (v : Memory) (j : ℕ) :
    v.moveConstruct j = v.declare.moveAssign v.pointers.length j := by
  unfold Memory.moveConstruct Memory.moveAssign Memory.assignObject
  rw [declare_get, removeReference_null (declare_null v)]

theorem convertingMoveConstruct_eq (v : Memory) (j : ℕ) :
    v.convertingMoveConstruct j = v.declare.convertingMoveAssign v.pointers.length j := by
  unfold Memory.convertingMoveConstruct Memory.convertingMoveAssign Memory.assignObject
  rw [declare_get, removeReference_null (declare_null v)]

theorem construct_eq (v : Memory) : v.construct = v.declare.assignNew v.pointers.length := by
  have hnull : v.declare.allocate.get v.pointers.length = none := declare_null v
  unfold Memory.construct Memory.assignNew Memory.assignRaw Memory.assignObject
  rw [removeReference_null hnull]
  rfl

theorem declare_owned {p : ObjectId} (hp : v.declare.get j = some p) :
    some p ∈ v.declare.pointers.set v.pointers.length none := by
  refine mem_set_of_get hp ?_
  rintro rfl
  rw [declare_null] at hp
  cases hp

theorem declare_room (v : Memory) (j : ℕ) :
    Room v.declare (v.declare.pointers.set v.pointers.length none) j ↔ Room v v.pointers j := by
  have hcount : ∀ p : ObjectId, (v.declare.pointers.set v.pointers.length none).count (some p) =
      v.pointers.count (some p) := by
    intro p
    change ((v.pointers ++ [none]).set v.pointers.length none).count (some p) = _
    rw [List.set_append_right _ _ (Nat.le_refl _), Nat.sub_self]
    simp
  unfold Room
  simp only [declare_get, hcount]

theorem copyConstruct_inv (h : Inv v.pointers v) (hroom : Room v v.pointers j) :
    Inv (v.copyConstruct j).pointers (v.copyConstruct j) := by
  rw [copyConstruct_eq]
  exact (copyAssign_points (declare_inv h) (declare_lt v) (fun _ => declare_owned)
    ((declare_room v j).mpr hroom)).sound

theorem convertingMoveConstruct_inv (h : Inv v.pointers v) (hroom : Room v v.pointers j) :
    Inv (v.convertingMoveConstruct j).pointers (v.convertingMoveConstruct j) := by
  rw [convertingMoveConstruct_eq]
  have hcopied := copyConstruct_inv h hroom
  rw [copyConstruct_eq] at hcopied
  exact assignNull_inv hcopied j

theorem owned_of_not_unique
    (hself : k = j → ∀ p, v.get k = some p → some p ∈ v.pointers.set k none) :
    ∀ p, v.get j = some p → some p ∈ v.pointers.set k none := by
  intro p hp
  by_cases hkj : k = j
  · subst hkj
    exact hself rfl p hp
  · exact mem_set_of_get hp (Ne.symm hkj)

theorem step_inv (h : Inv v.pointers v) {e : PointerEvent} (he : Countable v e) :
    Inv (v.step e).pointers (v.step e) := by
  cases e with
  | defaultConstruct => exact declare_inv h
  | construct =>
    change Inv v.construct.pointers v.construct
    rw [construct_eq]
    exact assignNew_inv (declare_inv h) (declare_lt v)
  | copyConstruct j => exact copyConstruct_inv h he
  | moveConstruct j =>
    change Inv (v.moveConstruct j).pointers (v.moveConstruct j)
    rw [moveConstruct_eq]
    exact moveAssign_points (declare_inv h) (declare_lt v) j
  | convertingMoveConstruct j => exact convertingMoveConstruct_inv h he
  | copyAssign k j =>
    unfold Memory.step
    dsimp only
    split
    · next hk =>
      obtain ⟨hself, hroom⟩ := he hk
      exact (copyAssign_points h hk (owned_of_not_unique hself) hroom).sound
    · exact h
  | moveAssign k j =>
    unfold Memory.step
    dsimp only
    split
    · next hk => exact moveAssign_points h hk j
    · exact h
  | convertingMoveAssign k j =>
    unfold Memory.step
    dsimp only
    split
    · next hk => exact convertingMoveAssign_inv h hk.1 hk.2 (he hk.1 hk.2)
    · exact h
  | assignNew k =>
    unfold Memory.step
    dsimp only
    split
    · next hk => exact assignNew_inv h hk
    · exact h
  | assignNull k =>
    unfold Memory.step
    dsimp only
    split
    · exact assignNull_inv h k
    · exact h
  | destroy k =>
    unfold Memory.step
    dsimp only
    split
    · next hk => exact (pointerRemoveReference_points h hk).sound
    · exact h

theorem assignObject_pointers (h : Inv v.pointers v) (hk : k < v.pointers.length)
    (o : Option ObjectId) : (v.assignObject k o).pointers = v.pointers.set k o := by
  change (v.pointerRemoveReference k).pointers.set k o = _
  rw [(pointerRemoveReference_points h hk).same, List.set_set]

theorem assignObject_get (h : Inv v.pointers v) (hk : k < v.pointers.length) (o : Option ObjectId) :
    (v.assignObject k o).get k = o := by
  unfold Memory.get
  rw [assignObject_pointers h hk, List.getElem?_set_self hk]
  rfl

/-- The only reference is removed, and the object deleted, before the reference is added again. -/
theorem selfCopy_broken {p : ObjectId} (h : Inv v.pointers v) (hp : v.get k = some p)
    (hunique : some p ∉ v.pointers.set k none) : .useAfterDelete p ∈ (v.copyAssign k k).trace := by
  have hk : k < v.pointers.length := (List.getElem?_eq_some_iff.mp (get_some hp)).1
  have hremoved := pointerRemoveReference_points h hk
  have hdeleted : ((v.pointerRemoveReference k).objects p).deleted = true := by
    rw [hremoved.inv.flags p, hremoved.inv.lives.gone p, pointerRemoveReference_made]
    exact ⟨h.lives.known p (List.mem_of_getElem? (get_some hp)), hunique⟩
  have hget : (v.assignObject k (v.get k)).get k = some p := (assignObject_get h hk _).trans hp
  have hcopy : v.copyAssign k k = (v.assignObject k (v.get k)).emit (.useAfterDelete p) := by
    unfold Memory.copyAssign Memory.pointerAddReference
    rw [hget]
    exact if_pos hdeleted
  rw [hcopy]
  exact List.mem_append_right _ (List.mem_singleton.mpr rfl)

structure Wrapped (p : ObjectId) (k : ℕ) (v u : Memory) : Prop where
  pointers : u.pointers = v.pointers.set k (some p)
  negative : (u.objects p).refCount.toInt < 0

theorem copyAssign_wraps {p : ObjectId} (h : Inv v.pointers v) (hk : k < v.pointers.length)
    (hp : v.get j = some p) (howned : some p ∈ v.pointers.set k none)
    (hfull : (v.pointers.set k none).count (some p) = maxCount) : Wrapped p k v (v.copyAssign k j) := by
  have hremoved := pointerRemoveReference_points h hk
  have halive : ((v.pointerRemoveReference k).objects p).deleted = false := hremoved.inv.alive howned
  have hcounted : ((v.pointerRemoveReference k).objects p).refCount.toInt = maxCount := by
    rw [← hfull]
    exact hremoved.inv.lives.counts p
  have hcopy : v.copyAssign k j = (v.assignObject k (some p)).setCount p
      (((v.pointerRemoveReference k).objects p).refCount + 1) := by
    unfold Memory.copyAssign Memory.pointerAddReference
    rw [hp, assignObject_get h hk]
    exact if_neg (by simp [Memory.assignObject, Memory.setObject, halive])
  rw [hcopy]
  refine ⟨assignObject_pointers h hk _, ?_⟩
  rw [setCount_refCount, Function.update_self (β := fun _ => ℤ)]
  exact toInt_wrap hcounted

theorem Wrapped.not_owned {p : ObjectId} {u : Memory} (h : Wrapped p k v u) : ¬ Owned u := by
  intro howned
  have hnonneg := howned.counts.nonneg p
  have hnegative := h.negative
  omega

theorem Wrapped.release {p : ObjectId} {u : Memory} (h : Wrapped p k v u) (hp : v.get j = some p)
    (hkj : k ≠ j) : ¬ Owned (u.assignRaw j none) := by
  have hget : u.get j = some p := by
    unfold Memory.get
    rw [h.pointers, List.getElem?_set_ne hkj]
    exact hp
  have hunsafe : ∃ e ∈ (u.removeReference p).trace, e.ok = false := by
    have hnegative := h.negative
    unfold Memory.removeReference
    split
    · exact ⟨.useAfterDelete p, List.mem_append_right _ (List.mem_singleton.mpr rfl), rfl⟩
    · dsimp only
      rw [if_neg (by omega)]
      exact ⟨.dcheck (decide (0 ≤ (u.objects p).refCount.toInt - 1)),
        List.mem_append_right _ (List.mem_singleton.mpr rfl), decide_eq_false (by omega)⟩
  have htrace : (u.assignRaw j none).trace = (u.removeReference p).trace := by
    change (u.pointerRemoveReference j).trace = _
    unfold Memory.pointerRemoveReference
    rw [hget]
    rfl
  obtain ⟨e, he, hbad⟩ := hunsafe
  intro howned
  have hok := howned.safe e (htrace ▸ he)
  rw [hbad] at hok
  cases hok

theorem full_of_not_room (h : Inv v.pointers v) (hroom : ¬ Room v (v.pointers.set k none) j) :
    ∃ p, v.get j = some p ∧ (v.pointers.set k none).count (some p) = maxCount := by
  simp only [Room, not_forall, Nat.not_lt] at hroom
  obtain ⟨p, hp, hfull⟩ := hroom
  refine ⟨p, hp, Nat.le_antisymm ?_ hfull⟩
  have hcount := h.lives.counts p
  have hlt := (v.objects p).refCount.toInt_lt
  have hle : (v.pointers.set k none).count (some p) ≤ v.pointers.count (some p) := by
    by_cases hk : k < v.pointers.length
    · have hset : ((v.pointers.set k none).count (some p) : ℤ) = _ :=
        count_set_owner (get_of_lt hk) p
      rw [if_neg (Option.some_ne_none p).symm] at hset
      split at hset <;> omega
    · exact Nat.le_of_eq (by rw [List.set_eq_of_length_le (Nat.not_lt.mp hk)])
  unfold maxCount
  omega

theorem copyAssign_full (h : Inv v.pointers v) (hk : k < v.pointers.length)
    (hroom : ¬ Room v (v.pointers.set k none) j) :
    ∃ p, v.get j = some p ∧ Wrapped p k v (v.copyAssign k j) := by
  obtain ⟨p, hp, hfull⟩ := full_of_not_room h hroom
  have howned : some p ∈ v.pointers.set k none := by
    rw [← List.count_pos_iff, hfull]
    decide
  exact ⟨p, hp, copyAssign_wraps h hk hp howned hfull⟩

theorem step_broken (h : Inv v.pointers v) {e : PointerEvent} (he : ¬ Countable v e) :
    ¬ Owned (v.step e) := by
  cases e with
  | copyConstruct j =>
    have hroom := mt (declare_room v j).mp he
    obtain ⟨p, hp, hwrapped⟩ := copyAssign_full (declare_inv h) (declare_lt v) hroom
    change ¬ Owned (v.copyConstruct j)
    rw [copyConstruct_eq]
    exact hwrapped.not_owned
  | convertingMoveConstruct j =>
    have hroom := mt (declare_room v j).mp he
    obtain ⟨p, hp, hwrapped⟩ := copyAssign_full (declare_inv h) (declare_lt v) hroom
    change ¬ Owned (v.convertingMoveConstruct j)
    rw [convertingMoveConstruct_eq]
    refine hwrapped.release hp ?_
    rintro rfl
    rw [declare_null] at hp
    cases hp
  | copyAssign k j =>
    simp only [Countable, Classical.not_imp, not_and_or] at he
    obtain ⟨hk, hself | hroom⟩ := he
    · simp only [not_forall] at hself
      obtain ⟨rfl, p, hp, hunique⟩ := hself
      have hmem := selfCopy_broken h hp hunique
      rw [Memory.step, if_pos hk]
      exact fun howned => absurd (howned.safe _ hmem) Bool.false_ne_true
    · obtain ⟨p, hp, hwrapped⟩ := copyAssign_full h hk hroom
      rw [Memory.step, if_pos hk]
      exact hwrapped.not_owned
  | convertingMoveAssign k j =>
    simp only [Countable, Classical.not_imp] at he
    obtain ⟨hk, hkj, hroom⟩ := he
    obtain ⟨p, hp, hwrapped⟩ := copyAssign_full h hk hroom
    rw [Memory.step, if_pos ⟨hk, hkj⟩]
    exact hwrapped.release hp hkj
  | _ => exact absurd trivial he

end Pointers

theorem new_inv : Inv Memory.new.pointers .new where
  safe := List.forall_mem_nil _
  lives := ⟨fun _ => rfl, fun _ hp => absurd hp List.not_mem_nil,
    fun p => iff_of_false List.not_mem_nil fun hp => Nat.not_lt_zero p hp.1⟩
  flags _ := iff_of_false Bool.false_ne_true List.not_mem_nil
  once := List.nodup_nil

/-- For objects that own no pointers themselves: in every run, the counts, the deletions and all
    accesses are right in every state exactly when no pointer with the only reference to its object is
    copied to itself, and no count is full when a pointer is copied. -/
theorem counted_always_iff (events : List PointerEvent) :
    Always Memory.step Owned .new events ↔ Each Memory.step Countable .new events := by
  refine always_iff_each (A := fun _ _ => True) (I := fun v => Inv v.pointers v) ?_ ?_ ?_ new_inv
    (each_of_labels _ fun _ _ => trivial)
  · intro v h
    exact ⟨h.safe, h.lives.counts, h.lives.gone, h.once⟩
  · intro v e h _ he
    exact step_inv h he
  · intro v e h _ he
    exact step_broken h he

end QuailServer.ReferenceCounted
