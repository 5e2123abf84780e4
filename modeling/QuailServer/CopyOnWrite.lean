import QuailServer.Library.OwnerCount
import QuailServer.Library.StepMachine

set_option autoImplicit false

namespace QuailServer.CopyOnWrite
open OwnerCount StepMachine

structure Payload (T : Type) where
  count : ℤ
  value : T
  deleted : Bool

/-- The payloads in the order in which they were made, and `m_data` of the variables. Temporaries
    are the last variables while they live. -/
structure Memory (T : Type) where
  payloads : List (Payload T)
  mData : List (Option ℕ)
  /-- A null pointer, or a payload that was deleted, has been used. -/
  undefined : Bool

namespace Memory
variable {T : Type}

def new : Memory T := ⟨[], [], false⟩

def get (k : ℕ) (v : Memory T) : Option ℕ := (v.mData[k]?).join

def setData (k : ℕ) (p : Option ℕ) (v : Memory T) : Memory T := { v with mData := v.mData.set k p }

def payload (p : ℕ) (v : Memory T) : Option (Payload T) := (v.payloads[p]?).filter fun x => !x.deleted

def access (k : ℕ) (f : Payload T → Payload T) (v : Memory T) : Memory T :=
  match v.get k with
  | none => { v with undefined := true }
  | some p =>
    if (v.payload p).isSome then { v with payloads := v.payloads.modify p f }
    else { v with undefined := true }

def pop (v : Memory T) : Memory T := { v with mData := v.mData.dropLast }

/-- `copy_on_write(U && x)` and the default constructor. -/
def construct (x : T) (v : Memory T) : Memory T :=
  { v with payloads := v.payloads ++ [⟨1, x, false⟩], mData := v.mData ++ [some v.payloads.length] }

def increment (x : Payload T) : Payload T := { x with count := x.count + 1 }

/-- `--m_data->count`, and `delete m_data` if that is 0. -/
def decrement (x : Payload T) : Payload T := ⟨x.count - 1, x.value, decide (x.count - 1 = 0)⟩

def copyConstruct (j : ℕ) (v : Memory T) : Memory T :=
  access v.mData.length increment { v with mData := v.mData ++ [v.get j] }

def moveConstruct (j : ℕ) (v : Memory T) : Memory T :=
  setData j none { v with mData := v.mData ++ [v.get j] }

def destroy (k : ℕ) (v : Memory T) : Memory T :=
  match v.get k with
  | none => v
  | some _ => (v.access k decrement).setData k none

def swap (k j : ℕ) (v : Memory T) : Memory T := (v.setData k (v.get j)).setData j (v.get k)

/-- `operator=(copy_on_write && x)`, with its variable `tmp`. -/
def moveAssign (k j : ℕ) (v : Memory T) : Memory T :=
  let tmp := v.mData.length
  (((v.moveConstruct j).swap k tmp).destroy tmp).pop

def assignTemporary (k : ℕ) (v : Memory T) : Memory T :=
  let temporary := v.mData.length - 1
  ((v.moveAssign k temporary).destroy temporary).pop

def copyAssign (k j : ℕ) (v : Memory T) : Memory T :=
  if j = k then v else (v.copyConstruct j).assignTemporary k

def unique (k : ℕ) (v : Memory T) : Bool :=
  ((v.get k).bind fun p => v.payload p).any fun x => decide (x.count = 1)

def read (k : ℕ) (v : Memory T) : Option T :=
  ((v.get k).bind fun p => v.payload p).map Payload.value

/-- `write`, and what is done with the reference it returns. -/
def write (k : ℕ) (f : T → T) (v : Memory T) : Memory T :=
  match v.read k with
  | none => { v with undefined := true }
  | some x =>
    let v := if v.unique k then v else (v.construct x).assignTemporary k
    v.access k fun x => { x with value := f x.value }

end Memory

inductive CowEvent (T : Type) where
  | construct (x : T)
  | copyConstruct (j : ℕ)
  | moveConstruct (j : ℕ)
  | copyAssign (k j : ℕ)
  | moveAssign (k j : ℕ)
  | write (k : ℕ) (f : T → T)
  | destroy (k : ℕ)

variable {T : Type}

def Memory.step (v : Memory T) : CowEvent T → Memory T
  | .construct x => v.construct x
  | .copyConstruct j => v.copyConstruct j
  | .moveConstruct j => v.moveConstruct j
  | .copyAssign k j => v.copyAssign k j
  | .moveAssign k j => v.moveAssign k j
  | .write k f => v.write k f
  | .destroy k => v.destroy k

/-- The same events on plain values. A variable that was moved from has none. -/
def valueStep (values : List (Option T)) : CowEvent T → List (Option T)
  | .construct x => values ++ [some x]
  | .copyConstruct j => values ++ [(values[j]?).join]
  | .moveConstruct j => (values ++ [(values[j]?).join]).set j none
  | .copyAssign k j => values.set k (values[j]?).join
  | .moveAssign k j => if j = k then values else (values.set k (values[j]?).join).set j none
  | .write k f => values.modify k (Option.map f)
  | .destroy k => values.set k none

/-- The events of the language: the variables exist, and what is copied or written was not moved
    from. -/
def Usable (v : Memory T) : CowEvent T → Prop
  | .construct _ => True
  | .copyConstruct j => (v.get j).isSome = true
  | .moveConstruct j => j < v.mData.length
  | .copyAssign k j => k < v.mData.length ∧ (v.get j).isSome = true
  | .moveAssign k j => k < v.mData.length ∧ j < v.mData.length
  | .write k _ => (v.get k).isSome = true
  | .destroy k => k < v.mData.length

def countOf (ps : List (Payload T)) (p : ℕ) : ℤ := (ps[p]?).elim 0 Payload.count

def Deleted (ps : List (Payload T)) (p : ℕ) : Prop := (ps[p]?).any Payload.deleted = true

def valueOf (ps : List (Payload T)) (o : Option ℕ) : Option T :=
  o.bind fun p => (ps[p]?).map Payload.value

/-- The counts are right, and exactly the payloads that no variable shares are deleted. -/
def Lives (owners : List (Option ℕ)) (ps : List (Payload T)) : Prop :=
  Lifetimes owners (countOf ps) (· < ps.length) (Deleted ps)

section Payloads
variable {owners : List (Option ℕ)} {ps : List (Payload T)} {p k j : ℕ} {x : Payload T}
  {f : Payload T → Payload T}

theorem Lives.payload (h : Lives owners ps) (hp : some p ∈ owners) :
    ∃ x, ps[p]? = some x ∧ x.deleted = false := by
  have hlt := h.known p hp
  have hgone := mt (h.gone p).mp fun hgone => hgone.2 hp
  rw [Deleted, List.getElem?_eq_getElem hlt] at hgone
  exact ⟨ps[p], List.getElem?_eq_getElem hlt, by simpa using hgone⟩

theorem countOf_modify (hx : ps[p]? = some x) (q : ℕ) :
    countOf (ps.modify p f) q = Function.update (countOf ps) p (f x).count q := by
  unfold countOf
  rw [List.getElem?_modify, Function.update_apply]
  by_cases hq : q = p
  · subst hq
    simp [hx]
  · simp [hq, Ne.symm hq]

theorem deleted_modify (hx : ps[p]? = some x) (q : ℕ) :
    Deleted (ps.modify p f) q ↔ if q = p then (f x).deleted = true else Deleted ps q := by
  unfold Deleted
  rw [List.getElem?_modify]
  by_cases hq : q = p
  · subst hq
    simp [hx]
  · simp [hq, Ne.symm hq]

theorem valueOf_modify (hf : ∀ x, (f x).value = x.value) (o : Option ℕ) :
    valueOf (ps.modify p f) o = valueOf ps o := by
  unfold valueOf
  cases o with
  | none => rfl
  | some q =>
    simp only [Option.bind_some, List.getElem?_modify]
    cases ps[q]? with
    | none => rfl
    | some x =>
      by_cases hq : p = q
      · simp [hq, hf]
      · simp [hq]

theorem Lives.take (h : Lives owners ps) (hk : owners[k]? = some none) (hp : some p ∈ owners) :
    Lives (owners.set k (some p)) (ps.modify p Memory.increment) := by
  obtain ⟨x, hx, hdeleted⟩ := h.payload hp
  refine (Lifetimes.take h hk hp).congr (fun q => ?_) (fun q => ?_) fun q => ?_
  · rw [countOf_modify hx]
    simp [Memory.increment, countOf, hx]
  · rw [List.length_modify]
  · rw [deleted_modify hx]
    by_cases hq : q = p
    · subst hq
      simp [Memory.increment, Deleted, hx]
    · rw [if_neg hq]

theorem Lives.drop (h : Lives owners ps) (hk : owners[k]? = some (some p)) :
    Lives (owners.set k none) (ps.modify p Memory.decrement) := by
  obtain ⟨x, hx, hdeleted⟩ := h.payload (List.mem_of_getElem? hk)
  have hcount : countOf ps p = x.count := by simp [countOf, hx]
  refine (Lifetimes.drop h hk).2.congr (fun q => ?_) (fun q => ?_) fun q => ?_
  · rw [countOf_modify hx, hcount]
    rfl
  · rw [List.length_modify]
  · rw [deleted_modify hx, hcount]
    by_cases hq : q = p
    · subst hq
      simp [Memory.decrement, Deleted, hx, hdeleted]
    · simp [hq]

theorem getElem?_push (ps : List (Payload T)) (x : Payload T) (q : ℕ) :
    (ps ++ [x])[q]? = if q = ps.length then some x else ps[q]? := by
  split
  · next hq => rw [hq, List.getElem?_concat_length]
  · next hq =>
    rcases Nat.lt_or_gt_of_ne hq with hlt | hgt
    · rw [List.getElem?_append_left hlt]
    · rw [List.getElem?_eq_none (Nat.le_of_lt hgt), List.getElem?_eq_none]
      rw [List.length_append, List.length_singleton]
      exact hgt

theorem Lives.make (h : Lives owners ps) (hk : owners[k]? = some none) (value : T) :
    Lives (owners.set k (some ps.length)) (ps ++ [⟨1, value, false⟩]) := by
  refine (Lifetimes.make h hk (Nat.lt_irrefl _)).congr (fun q => ?_) (fun q => ?_) fun q => ?_
  · unfold countOf
    rw [getElem?_push, Function.update_apply]
    split <;> rfl
  · rw [List.length_append, List.length_singleton, Nat.lt_succ_iff_lt_or_eq]
  · unfold Deleted
    rw [getElem?_push]
    split
    · next hq => simp [hq]
    · rfl

theorem Lives.write (h : Lives owners ps) {x : Payload T} (hx : ps[p]? = some x) (f : T → T) :
    Lives owners (ps.modify p fun x => { x with value := f x.value }) := by
  refine Lifetimes.congr h (fun q => ?_) (fun q => ?_) fun q => ?_
  · rw [countOf_modify hx]
    have hcount : x.count = countOf ps p := by simp [countOf, hx]
    rw [hcount, Function.update_eq_self]
  · rw [List.length_modify]
  · rw [deleted_modify hx]
    by_cases hq : q = p
    · subst hq
      simp [Deleted, hx]
    · rw [if_neg hq]

end Payloads

def release (o : Option ℕ) (ps : List (Payload T)) : List (Payload T) :=
  o.elim ps fun p => ps.modify p Memory.decrement

section Operations
variable {v : Memory T} {data : List (Option ℕ)} {o : Option ℕ} {k j : ℕ}

theorem access_eq {p : ℕ} (hget : v.get k = some p)
    (hp : ∃ x, v.payloads[p]? = some x ∧ x.deleted = false) (f : Payload T → Payload T) :
    v.access k f = { v with payloads := v.payloads.modify p f } := by
  obtain ⟨x, hx, hdeleted⟩ := hp
  have hpayload : v.payload p = some x := by
    unfold Memory.payload
    rw [hx]
    simp [hdeleted]
  unfold Memory.access
  rw [hget]
  exact if_pos (by rw [hpayload]; rfl)

theorem destroy_eq
    (hp : ∀ p, v.get k = some p → ∃ x, v.payloads[p]? = some x ∧ x.deleted = false) :
    v.destroy k = { v with payloads := release (v.get k) v.payloads, mData := v.mData.set k none } := by
  unfold Memory.destroy
  cases hget : v.get k with
  | none =>
    rw [set_null hget]
    rfl
  | some p =>
    dsimp only
    rw [access_eq hget (hp p hget)]
    rfl

theorem release_lives {owners : List (Option ℕ)} {ps : List (Payload T)} (h : Lives owners ps)
    (hk : owners[k]? = some o) : Lives (owners.set k none) (release o ps) := by
  cases o with
  | none =>
    rw [set_same hk]
    exact h
  | some p => exact h.drop hk

def replaced (k : ℕ) (data : List (Option ℕ)) (o : Option ℕ) (v : Memory T) : Memory T :=
  { v with payloads := release (data[k]?).join v.payloads, mData := data.set k o }

theorem swap_destroyed (h : Lives v.mData v.payloads) (hdata : v.mData = data ++ [o])
    (hk : k < data.length) : ((v.swap k data.length).destroy data.length).pop = replaced k data o v := by
  have hlast : v.get data.length = o := by
    unfold Memory.get
    rw [hdata, List.getElem?_concat_length]
    rfl
  have hget : v.get k = (data[k]?).join := by
    unfold Memory.get
    rw [hdata, List.getElem?_append_left hk]
  have hswapped : (v.swap k data.length).mData = data.set k o ++ [(data[k]?).join] := by
    change (v.mData.set k (v.get data.length)).set data.length (v.get k) = _
    rw [hlast, hget, hdata, List.set_append_left _ _ hk, List.set_append_right _ _ (by simp)]
    simp
  have hdestroyed : (v.swap k data.length).get data.length = (data[k]?).join := by
    unfold Memory.get
    have hlen : data.length = (data.set k o).length := List.length_set.symm
    rw [hswapped, hlen, List.getElem?_concat_length]
    rfl
  rw [destroy_eq, hdestroyed, hswapped]
  · unfold Memory.pop replaced
    dsimp only
    rw [List.set_append_right _ _ (by simp)]
    simp [Memory.swap, Memory.setData]
  · intro p hp
    rw [hdestroyed] at hp
    refine h.payload ?_
    rw [hdata]
    exact List.mem_append_left _ (List.mem_of_getElem? (Option.join_eq_some_iff.mp hp))

theorem get_of_lt (hk : k < v.mData.length) : v.mData[k]? = some (v.get k) := by
  unfold Memory.get
  rw [List.getElem?_eq_getElem hk]
  rfl

theorem construct_lives (h : Lives v.mData v.payloads) (x : T) :
    Lives (v.construct x).mData (v.construct x).payloads := by
  have hmade := Lives.make (lifetimes_push.mpr h) (List.getElem?_concat_length) x
  rw [List.set_append_right _ _ (Nat.le_refl _), Nat.sub_self] at hmade
  exact hmade

theorem moveConstruct_data (hj : j < v.mData.length) :
    (v.moveConstruct j).mData = v.mData.set j none ++ [v.get j] :=
  List.set_append_left _ _ hj

theorem moveConstruct_lives (h : Lives v.mData v.payloads) (hj : j < v.mData.length) :
    Lives (v.moveConstruct j).mData (v.moveConstruct j).payloads := by
  have hjget : (v.mData ++ [none])[j]? = some (v.get j) := by
    rw [List.getElem?_append_left hj, get_of_lt hj]
  have hmoved := (lifetimes_push.mpr h).move List.getElem?_concat_length hjget (Nat.ne_of_gt hj)
  rw [List.set_append_right _ _ (Nat.le_refl _), Nat.sub_self] at hmoved
  exact hmoved

theorem copyConstruct_eq (h : Lives v.mData v.payloads) {p : ℕ} (hj : v.get j = some p) :
    v.copyConstruct j = { v with
      payloads := v.payloads.modify p Memory.increment, mData := v.mData ++ [some p] } := by
  unfold Memory.copyConstruct
  rw [hj]
  have hget : Memory.get v.mData.length { v with mData := v.mData ++ [some p] } = some p := by
    unfold Memory.get
    rw [List.getElem?_concat_length]
    rfl
  exact access_eq hget (h.payload (List.mem_of_getElem? (Option.join_eq_some_iff.mp hj))) _

theorem copyConstruct_lives (h : Lives v.mData v.payloads) {p : ℕ} (hj : v.get j = some p) :
    Lives (v.mData ++ [some p]) (v.payloads.modify p Memory.increment) := by
  have hmem : some p ∈ v.mData ++ [none] :=
    List.mem_append_left _ (List.mem_of_getElem? (Option.join_eq_some_iff.mp hj))
  have htaken := Lives.take (lifetimes_push.mpr h) List.getElem?_concat_length hmem
  rw [List.set_append_right _ _ (Nat.le_refl _), Nat.sub_self] at htaken
  exact htaken

theorem moveAssign_eq (h : Lives v.mData v.payloads) (hk : k < v.mData.length)
    (hj : j < v.mData.length) :
    v.moveAssign k j = replaced k (v.mData.set j none) (v.get j) (v.moveConstruct j) := by
  have hlen : v.mData.length = (v.mData.set j none).length := List.length_set.symm
  unfold Memory.moveAssign
  dsimp only
  rw [hlen]
  exact swap_destroyed (moveConstruct_lives h hj) (moveConstruct_data hj) (hlen ▸ hk)

theorem assignTemporary_eq (h : Lives v.mData v.payloads) (hdata : v.mData = data ++ [o])
    (hk : k < data.length) : v.assignTemporary k = replaced k data o v := by
  have hlen : v.mData.length = data.length + 1 := by rw [hdata]; simp
  have hlast : v.get data.length = o := by
    unfold Memory.get
    rw [hdata, List.getElem?_concat_length]
    rfl
  have hmoved := moveAssign_eq h (k := k) (j := data.length) (by omega) (by omega)
  have hset : v.mData.set data.length none = data ++ [none] := by
    rw [hdata, List.set_append_right _ _ (Nat.le_refl _), Nat.sub_self]
    rfl
  rw [hset, hlast] at hmoved
  have hmovedData : (v.moveAssign k data.length).mData = data.set k o ++ [none] := by
    rw [hmoved]
    exact List.set_append_left _ _ hk
  have hnull : (v.moveAssign k data.length).get data.length = none := by
    unfold Memory.get
    have hsame : data.length = (data.set k o).length := List.length_set.symm
    rw [hmovedData, hsame, List.getElem?_concat_length]
    rfl
  unfold Memory.assignTemporary
  dsimp only
  rw [hlen, Nat.add_sub_cancel]
  unfold Memory.destroy
  rw [hnull]
  dsimp only
  unfold Memory.pop
  rw [hmovedData, List.dropLast_concat, hmoved]
  unfold replaced Memory.moveConstruct Memory.setData
  dsimp only
  rw [List.getElem?_append_left hk]

theorem replaced_lives (h : Lives (data ++ [o]) v.payloads) (hk : k < data.length) :
    Lives (data.set k o) (release (data[k]?).join v.payloads) := by
  have hget : (data ++ [o])[k]? = some (data[k]?).join := by
    rw [List.getElem?_append_left hk, List.getElem?_eq_getElem hk]
    rfl
  have hreleased := release_lives h hget
  rw [List.set_append_left _ _ hk] at hreleased
  have hlen : data.length = (data.set k none).length := List.length_set.symm
  have hmoved := Lifetimes.move hreleased (k := k) (j := data.length) (o := o)
    (by rw [List.getElem?_append_left (hlen ▸ hk)]; exact List.getElem?_set_self hk)
    (by rw [hlen]; exact List.getElem?_concat_length) (Nat.ne_of_lt hk)
  rw [List.set_append_left _ _ (hlen ▸ hk), List.set_set,
    List.set_append_right _ _ (by simp)] at hmoved
  refine lifetimes_push.mp ?_
  simpa using hmoved

def values (v : Memory T) : List (Option T) := v.mData.map (valueOf v.payloads)

theorem values_get (v : Memory T) (j : ℕ) : ((values v)[j]?).join = valueOf v.payloads (v.get j) := by
  unfold values Memory.get
  rw [List.getElem?_map]
  cases v.mData[j]? <;> rfl

theorem release_value (o o' : Option ℕ) (ps : List (Payload T)) :
    valueOf (release o ps) o' = valueOf ps o' := by
  cases o with
  | none => rfl
  | some p => exact valueOf_modify (f := Memory.decrement) (fun _ => rfl) o'

theorem replaced_values (k : ℕ) (data : List (Option ℕ)) (o : Option ℕ) (v : Memory T) :
    values (replaced k data o v) = (data.map (valueOf v.payloads)).set k (valueOf v.payloads o) := by
  unfold values replaced
  dsimp only
  rw [List.map_congr_left fun o' _ => release_value _ o' v.payloads, List.map_set]

theorem valueOf_push {owners : List (Option ℕ)} {ps : List (Payload T)} (h : Lives owners ps)
    (x : Payload T) {o : Option ℕ} (ho : o ∈ owners) : valueOf (ps ++ [x]) o = valueOf ps o := by
  cases o with
  | none => rfl
  | some p =>
    unfold valueOf
    rw [Option.bind_some, Option.bind_some, List.getElem?_append_left (h.known p ho)]

theorem construct_values (h : Lives v.mData v.payloads) (x : T) :
    values (v.construct x) = values v ++ [some x] := by
  unfold values Memory.construct
  dsimp only
  rw [List.map_append, List.map_congr_left fun o ho => valueOf_push h _ ho]
  simp [valueOf]

theorem copyConstruct_values (h : Lives v.mData v.payloads) {p : ℕ} (hj : v.get j = some p) :
    values (v.copyConstruct j) = values v ++ [valueOf v.payloads (some p)] := by
  rw [copyConstruct_eq h hj]
  unfold values
  dsimp only
  rw [List.map_congr_left fun o _ => valueOf_modify (f := Memory.increment) (fun _ => rfl) o,
    List.map_append]
  rfl

theorem sole_owner (h : Lives v.mData v.payloads) {p : ℕ} (hk : v.get k = some p)
    (hone : countOf v.payloads p = 1) {i : ℕ} (hi : v.mData[i]? = some (some p)) : i = k := by
  by_contra hne
  have hgone := (Lifetimes.drop h (Option.join_eq_some_iff.mp hk)).2.counts.owned_iff p
  rw [Function.update_self, hone] at hgone
  refine hgone.mp (List.mem_of_getElem? (i := i) ?_) rfl
  rw [List.getElem?_set_ne (Ne.symm hne)]
  exact hi

theorem write_sole (h : Lives v.mData v.payloads) {p : ℕ} (hk : v.get k = some p)
    (hone : countOf v.payloads p = 1) (f : T → T) :
    let u := v.access k fun x => { x with value := f x.value }
    Lives u.mData u.payloads ∧ u.undefined = v.undefined ∧
      values u = (values v).modify k (Option.map f) := by
  have hpayload := h.payload (List.mem_of_getElem? (Option.join_eq_some_iff.mp hk))
  have hx := hpayload
  obtain ⟨x, hx, -⟩ := hx
  rw [access_eq hk hpayload]
  refine ⟨h.write hx f, rfl, ?_⟩
  unfold values
  dsimp only
  refine List.ext_getElem? fun i => ?_
  rw [List.getElem?_map, List.getElem?_modify, List.getElem?_map]
  by_cases hi : k = i
  · subst hi
    rw [Option.join_eq_some_iff.mp hk]
    simp [valueOf, hx]
  · simp only [hi, if_false]
    cases howner : v.mData[i]? with
    | none => rfl
    | some o =>
      cases o with
      | none => rfl
      | some q =>
        have hq : p ≠ q := by
          rintro rfl
          exact hi (sole_owner h hk hone howner).symm
        simp [valueOf, hq]

/-- A payload that is shared is copied first, so that the write is to a payload with one owner. -/
theorem write_shared (h : Lives v.mData v.payloads) {p : ℕ} (hk : v.get k = some p) {x : Payload T}
    (hx : v.payloads[p]? = some x) :
    let u := (v.construct x.value).assignTemporary k
    Lives u.mData u.payloads ∧ u.undefined = v.undefined ∧ values u = values v ∧
      u.get k = some v.payloads.length ∧ countOf u.payloads v.payloads.length = 1 := by
  have howner := Option.join_eq_some_iff.mp hk
  have hlt : k < v.mData.length := (List.getElem?_eq_some_iff.mp howner).1
  have hmade := construct_lives h x.value
  have hlives : Lives (v.mData.set k (some v.payloads.length))
      (release (v.mData[k]?).join (v.construct x.value).payloads) := replaced_lives hmade hlt
  have hfree : some v.payloads.length ∉ v.mData := fun hmem => Nat.lt_irrefl _ (h.known _ hmem)
  rw [assignTemporary_eq hmade rfl hlt]
  refine ⟨hlives, rfl, ?_, ?_, ?_⟩
  · rw [replaced_values]
    have hsame : v.mData.map (valueOf (v.construct x.value).payloads) = values v :=
      List.map_congr_left fun o ho => valueOf_push h _ ho
    rw [hsame]
    refine set_same ?_
    unfold values
    rw [List.getElem?_map, howner]
    simp [valueOf, hx, Memory.construct]
  · unfold replaced Memory.get
    dsimp only
    rw [List.getElem?_set_self hlt]
    rfl
  · refine (hlives.counts v.payloads.length).trans ?_
    rw [count_set_owner howner, List.count_eq_zero.mpr hfree]
    have hne : p ≠ v.payloads.length := Nat.ne_of_lt (h.known p (List.mem_of_getElem? howner))
    simp [hne]

theorem write_refines (h : Lives v.mData v.payloads) {p : ℕ} (hk : v.get k = some p) (f : T → T) :
    Lives (v.write k f).mData (v.write k f).payloads ∧ (v.write k f).undefined = v.undefined ∧
      values (v.write k f) = (values v).modify k (Option.map f) := by
  obtain ⟨x, hx, hdeleted⟩ := h.payload (List.mem_of_getElem? (Option.join_eq_some_iff.mp hk))
  have hpayload : v.payload p = some x := by
    unfold Memory.payload
    rw [hx]
    simp [hdeleted]
  have hread : v.read k = some x.value := by
    unfold Memory.read
    rw [hk, Option.bind_some, hpayload]
    rfl
  have hunique : v.unique k = decide (x.count = 1) := by
    unfold Memory.unique
    rw [hk, Option.bind_some, hpayload]
    rfl
  unfold Memory.write
  rw [hread, hunique]
  dsimp only
  by_cases hone : x.count = 1
  · rw [decide_eq_true hone, if_pos rfl]
    exact write_sole h hk (by simp [countOf, hx, hone]) f
  · rw [decide_eq_false hone, if_neg Bool.false_ne_true]
    obtain ⟨hlives, hundefined, hvalues, hget, hcount⟩ := write_shared h hk hx
    obtain ⟨hlives', hundefined', hvalues'⟩ := write_sole hlives hget hcount f
    exact ⟨hlives', hundefined'.trans hundefined, hvalues'.trans (congrArg _ hvalues)⟩

structure Holds (v : Memory T) (s : List (Option T)) : Prop where
  lives : Lives v.mData v.payloads
  defined : v.undefined = false
  same : values v = s

theorem Holds.get {s : List (Option T)} (h : Holds v s) (j : ℕ) :
    (s[j]?).join = valueOf v.payloads (v.get j) := by
  rw [← h.same]
  exact values_get v j

theorem moveConstruct_holds {s : List (Option T)} (h : Holds v s) (hj : j < v.mData.length) :
    Holds (v.moveConstruct j) ((s ++ [(s[j]?).join]).set j none) := by
  refine ⟨moveConstruct_lives h.lives hj, h.defined, ?_⟩
  have hlen : j < s.length := by
    rw [← h.same]
    simpa [values] using hj
  rw [h.get, List.set_append_left _ _ hlen, ← h.same]
  unfold values
  rw [moveConstruct_data hj, List.map_append, List.map_set]
  rfl

theorem copyAssign_holds {s : List (Option T)} (h : Holds v s) (hk : k < v.mData.length)
    (hj : (v.get j).isSome = true) : Holds (v.copyAssign k j) (s.set k (s[j]?).join) := by
  unfold Memory.copyAssign
  by_cases hjk : j = k
  · subst hjk
    have hsame : s.set j (s[j]?).join = s := by
      refine set_same ?_
      rw [← h.same]
      unfold values
      rw [List.getElem?_map, get_of_lt hk]
      rfl
    rw [if_pos rfl, hsame]
    exact h
  · obtain ⟨p, hp⟩ := Option.isSome_iff_exists.mp hj
    have hcopied := copyConstruct_lives h.lives hp
    rw [if_neg hjk, h.get, hp, copyConstruct_eq h.lives hp, assignTemporary_eq hcopied rfl hk]
    refine ⟨replaced_lives hcopied hk, h.defined, ?_⟩
    rw [replaced_values, ← h.same]
    unfold values
    dsimp only
    rw [List.map_congr_left fun o _ => valueOf_modify (f := Memory.increment) (fun _ => rfl) o,
      valueOf_modify (f := Memory.increment) fun _ => rfl]

theorem moveAssign_holds {s : List (Option T)} (h : Holds v s) (hk : k < v.mData.length)
    (hj : j < v.mData.length) :
    Holds (v.moveAssign k j) (if j = k then s else (s.set k (s[j]?).join).set j none) := by
  have hmoved := moveConstruct_lives h.lives hj
  have hlen : k < (v.mData.set j none).length := by rwa [List.length_set]
  rw [moveConstruct_data hj] at hmoved
  rw [moveAssign_eq h.lives hk hj]
  refine ⟨replaced_lives hmoved hlen, h.defined, ?_⟩
  have hvalues : values (replaced k (v.mData.set j none) (v.get j) (v.moveConstruct j)) =
      (s.set j none).set k (s[j]?).join := by
    rw [replaced_values, h.get, ← h.same, List.map_set]
    rfl
  rw [hvalues]
  split
  · next hjk =>
    subst hjk
    rw [List.set_set]
    refine set_same ?_
    rw [← h.same]
    unfold values
    rw [List.getElem?_map, get_of_lt hk]
    rfl
  · next hjk => exact List.set_comm _ _ hjk

theorem destroy_holds {s : List (Option T)} (h : Holds v s) (hk : k < v.mData.length) :
    Holds (v.destroy k) (s.set k none) := by
  rw [destroy_eq fun p hp => h.lives.payload (List.mem_of_getElem? (Option.join_eq_some_iff.mp hp))]
  refine ⟨release_lives h.lives (get_of_lt hk), h.defined, ?_⟩
  rw [← h.same]
  unfold values
  dsimp only
  rw [List.map_congr_left fun o _ => release_value _ o v.payloads, List.map_set]
  rfl

theorem step_holds {s : List (Option T)} {e : CowEvent T} (he : Usable v e) (h : Holds v s) :
    Holds (v.step e) (valueStep s e) := by
  cases e with
  | construct x =>
    exact ⟨construct_lives h.lives x, h.defined, (construct_values h.lives x).trans (by rw [h.same]; rfl)⟩
  | copyConstruct j =>
    obtain ⟨p, hp⟩ := Option.isSome_iff_exists.mp he
    have hlives := copyConstruct_lives h.lives hp
    have hvalues := copyConstruct_values h.lives hp
    rw [h.same] at hvalues
    change Holds (v.copyConstruct j) (s ++ [(s[j]?).join])
    rw [h.get, hp]
    refine ⟨?_, ?_, hvalues⟩
    · rw [copyConstruct_eq h.lives hp]
      exact hlives
    · rw [copyConstruct_eq h.lives hp]
      exact h.defined
  | moveConstruct j => exact moveConstruct_holds h he
  | copyAssign k j => exact copyAssign_holds h he.1 he.2
  | moveAssign k j => exact moveAssign_holds h he.1 he.2
  | write k f =>
    obtain ⟨p, hp⟩ := Option.isSome_iff_exists.mp he
    obtain ⟨hlives, hundefined, hvalues⟩ := write_refines h.lives hp f
    exact ⟨hlives, hundefined.trans h.defined, hvalues.trans (by rw [h.same]; rfl)⟩
  | destroy k => exact destroy_holds h he

theorem read_eq (h : Lives v.mData v.payloads) (k : ℕ) : v.read k = valueOf v.payloads (v.get k) := by
  unfold Memory.read valueOf
  cases hget : v.get k with
  | none => rfl
  | some p =>
    obtain ⟨x, hx, hdeleted⟩ := h.payload (List.mem_of_getElem? (Option.join_eq_some_iff.mp hget))
    rw [Option.bind_some, Option.bind_some]
    unfold Memory.payload
    rw [hx]
    simp [hdeleted]

end Operations

/-- Variables that share payloads read as plain values: a write to one of them changes no other.
    No payload is used after it was deleted, and none is kept that no variable has. -/
theorem reads_as_values (events : List (CowEvent T))
    (usable : Each Memory.step Usable (.new : Memory T) events) :
    let v := after Memory.step (.new : Memory T) events
    v.undefined = false ∧ (∀ k, v.read k = ((after valueStep [] events)[k]?).join) ∧
      ∀ p x, v.payloads[p]? = some x → (x.deleted = true ↔ some p ∉ v.mData) := by
  have hnew : Holds (.new : Memory T) [] := by
    refine ⟨⟨fun _ => rfl, fun _ hp => absurd hp List.not_mem_nil, fun p => ?_⟩, rfl, rfl⟩
    exact iff_of_false (by simp [Deleted, Memory.new]) fun hp => Nat.not_lt_zero p hp.1
  have hstep : ∀ (v : Memory T) (s : List (Option T)) (e : CowEvent T), Usable v e → Holds v s →
      Holds (v.step e) (valueStep s e) := fun v s e he h => step_holds he h
  have h := simulation_of_each hstep hnew usable
  refine ⟨h.defined, fun k => ?_, fun p x hx => ?_⟩
  · rw [read_eq h.lives, h.get]
  · have hgone := h.lives.gone p
    have hlt : p < (after Memory.step (.new : Memory T) events).payloads.length :=
      (List.getElem?_eq_some_iff.mp hx).1
    unfold Deleted at hgone
    rw [hx] at hgone
    simpa [hlt] using hgone

def emission : List (CowEvent (List ℕ)) :=
  [.construct [3, 4], .copyConstruct 0, .write 0 fun slots => slots ++ [5], .write 0 List.tail]

theorem reads_as_values_emission :
    (after Memory.step (.new : Memory (List ℕ)) emission).read 1 = some [3, 4] ∧
      (after Memory.step (.new : Memory (List ℕ)) emission).read 0 = some [4, 5] := by
  have usable : Each Memory.step Usable (.new : Memory (List ℕ)) emission :=
    ⟨trivial, rfl, rfl, rfl, trivial⟩
  obtain ⟨-, hreads, -⟩ := reads_as_values emission usable
  exact ⟨hreads 1, hreads 0⟩

end QuailServer.CopyOnWrite
