import QuailServer.SigslotInvariant

set_option autoImplicit false

namespace QuailServer.SigslotSteps
open Sigslot SigslotInvariant

variable {K A : Type}

def rest (v : SignalBase K A) (e : ℕ) : List SlotId := (v.emissions[e]?.map Emission.rest).getD []

def called (v : SignalBase K A) (e : ℕ) : List SlotId :=
  (v.calls.filter fun call => decide (call.emission = e)).map Call.slot

def listening (v : SignalBase K A) (s : SlotId) : Bool :=
  v.slots[s]?.any fun slot => slot.connected && !slot.blocked

def orphan (v : SignalBase K A) (s : SlotId) : Bool := v.slots[s]?.any v.gone

/-- The step ends the connection of the slot for good. -/
def silences (v : SignalBase K A) : Op K A → SlotId → Bool
  | .disconnect t, s => decide (t = s) && v.alive s
  | .advance e, s => decide ((rest v e).head? = some s) && listening v s && orphan v s
  | _, _ => false

def removes (v : SignalBase K A) : Op K A → SlotId → Bool
  | .disconnectIf cond, s => cond s
  | .disconnectGroup gid, s => v.slots[s]?.any fun slot => decide (slot.group = gid)
  | .disconnectAll, _ => true
  | op, s => silences v op s

def makes (v : SignalBase K A) : Op K A → List SlotId
  | .connect .. => [v.slots.length]
  | _ => []

def invokes (v : SignalBase K A) (e : ℕ) : Op K A → List SlotId
  | .advance e' =>
    if e' = e then (rest v e).head?.toList.filter fun s => listening v s && !orphan v s else []
  | _ => []

def restAfter (v : SignalBase K A) (e : ℕ) : Op K A → List SlotId
  | .advance e' => if e' = e then (rest v e).tail else rest v e
  | _ => rest v e

def blockedBy (s : SlotId) (v : SignalBase K A) (blocked : Bool) : Op K A → Bool
  | .setBlocked t now => if t = s ∧ v.alive s = true then now else blocked
  | _ => blocked

structure Inv (v : SignalBase K A) : Prop where
  ordered : Ordered v.slots v.groups
  live : ∀ s ∈ order v.groups, ∀ slot, v.slots[s]? = some slot → slot.connected = true
  held : ∀ x ∈ v.emissions, ∀ s ∈ x.held, s < v.slots.length
  suffix : ∀ x ∈ v.emissions, x.rest <:+ x.held

theorem inv_new : Inv (SignalBase.new : SignalBase K A) :=
  ⟨⟨List.Pairwise.nil, by simp [SignalBase.new]⟩, by simp [SignalBase.new, order],
    by simp [SignalBase.new], by simp [SignalBase.new]⟩

theorem Inv.made {v : SignalBase K A} (h : Inv v) {s : SlotId} (hs : s ∈ order v.groups) :
    s < v.slots.length := by
  obtain ⟨-, -, slot, hslot, -⟩ := h.ordered.stored hs
  exact (List.getElem?_eq_some_iff.mp hslot).1

def Became (v : SignalBase K A) (s : SlotId) (slot : SlotBase K) (connected blocked : Bool) : Prop :=
  ∃ index, v.slots[s]? = some { slot with index := index, connected := connected, blocked := blocked }

section Regrouping
variable {v : SignalBase K A} {slots₀ slots : List (SlotBase K)} {groups : List GroupType}
  {keep : SlotId → Bool} {s t : SlotId} {slot : SlotBase K}

theorem kept_live (kept : Kept keep slots₀ v.groups slots groups)
    (live : ∀ s ∈ order v.groups, keep s = true → ∀ slot, slots₀[s]? = some slot → slot.connected = true) :
    ∀ s ∈ order groups, ∀ slot, slots[s]? = some slot → slot.connected = true := by
  intro s hs slot hslot
  obtain ⟨hold, hkeep⟩ := List.mem_filter.mp (kept.order.mem_iff.mp hs)
  have hlt : s < slots₀.length := by
    rw [← kept.reindexed.1]
    exact (List.getElem?_eq_some_iff.mp hslot).1
  obtain ⟨index, hindex, -⟩ := kept.reindexed.2 s _ (List.getElem?_eq_getElem hlt)
  have hlive := live s hold hkeep _ (List.getElem?_eq_getElem hlt)
  rw [← Option.some.inj (hindex.symm.trans hslot)]
  exact hlive

theorem Inv.kept (h : Inv v) (kept : Kept keep slots₀ v.groups slots groups)
    (made : slots₀.length = v.slots.length)
    (live : ∀ s ∈ order v.groups, keep s = true → ∀ slot, slots₀[s]? = some slot → slot.connected = true) :
    Inv { v with slots := slots, groups := groups } where
  ordered := kept.ordered
  live := kept_live kept live
  held x hx s hs := by
    have hlt := h.held x hx s hs
    rw [← made, ← kept.reindexed.1] at hlt
    exact hlt
  suffix := h.suffix

theorem Kept.became (kept : Kept keep slots₀ v.groups slots groups) (found : slots₀[s]? = some slot) :
    Became { v with slots := slots, groups := groups } s slot slot.connected slot.blocked := by
  obtain ⟨index, hindex, -⟩ := kept.reindexed.2 s slot found
  exact ⟨index, hindex⟩

theorem disconnectSlot_of_connected (h : Inv v) (found : v.slots[s]? = some slot)
    (connected : slot.connected = true) : ∃ slots groups,
      v.disconnectSlot s = ({ v with slots := slots, groups := groups }, true) ∧
      Kept (· ≠ s) (v.slots.modify s ({ · with connected := false })) v.groups slots groups := by
  have hordered : Ordered (v.slots.modify s ({ · with connected := false })) v.groups :=
    h.ordered.modify fun slot => ⟨rfl, rfl⟩
  have hfound : (v.slots.modify s ({ · with connected := false }))[s]? =
      some { slot with connected := false } := by
    rw [List.getElem?_modify, found]
    simp
  refine ⟨_, _, ?_, clean_kept hordered hfound⟩
  unfold SignalBase.disconnectSlot
  rw [found]
  simp [connected]

theorem modify_connected (found : v.slots[t]? = some slot) :
    (v.slots.modify s ({ · with connected := false }))[t]? =
      some { slot with connected := slot.connected && decide (t ≠ s) } := by
  rw [List.getElem?_modify, found]
  by_cases hst : s = t
  · subst hst
    simp
  · have hts : t ≠ s := fun heq => hst heq.symm
    simp [hst, hts]

/-- What `slot_state::disconnect` changes, whether the slot was connected or not. -/
structure Disconnected (v : SignalBase K A) (s : SlotId) (v' : SignalBase K A) : Prop where
  inv : Inv v'
  order : (order v'.groups).Perm ((Sigslot.order v.groups).filter (· ≠ s))
  became : ∀ t slot, v.slots[t]? = some slot →
    Became v' t slot (slot.connected && decide (t ≠ s)) slot.blocked
  length : v'.slots.length = v.slots.length
  frame : v'.emissions = v.emissions ∧ v'.calls = v.calls ∧ v'.block = v.block ∧
    v'.expired = v.expired

theorem disconnected_of_silent (h : Inv v)
    (silent : ∀ slot, v.slots[s]? = some slot → slot.connected = false) : Disconnected v s v where
  inv := h
  order := by
    have hs : s ∉ Sigslot.order v.groups := by
      intro hs
      obtain ⟨-, -, slot, hslot, -⟩ := h.ordered.stored hs
      have hlive := h.live s hs slot hslot
      rw [silent slot hslot] at hlive
      cases hlive
    rw [filter_ne_of_not_mem hs]
  became t slot ht := by
    refine ⟨slot.index, ?_⟩
    rw [ht]
    by_cases hts : t = s
    · subst hts
      have hfalse := silent slot ht
      cases slot
      simp_all
    · simp [hts]
  length := rfl
  frame := ⟨rfl, rfl, rfl, rfl⟩

theorem disconnectSlot_disconnected (h : Inv v) : Disconnected v s (v.disconnectSlot s).1 := by
  cases hfound : v.slots[s]? with
  | none =>
    have hsame : v.disconnectSlot s = (v, false) := by
      unfold SignalBase.disconnectSlot
      rw [hfound]
    rw [hsame]
    exact disconnected_of_silent h fun slot hslot => by rw [hfound] at hslot; cases hslot
  | some slot =>
    cases hconnected : slot.connected with
    | false =>
      have hsame : v.disconnectSlot s = (v, false) := by
        unfold SignalBase.disconnectSlot
        rw [hfound]
        simp [hconnected]
      rw [hsame]
      refine disconnected_of_silent h fun slot' hslot' => ?_
      rw [← Option.some.inj (hfound.symm.trans hslot')]
      exact hconnected
    | true =>
      obtain ⟨slots, groups, heq, hkept⟩ := disconnectSlot_of_connected h hfound hconnected
      rw [heq]
      have hlength : (v.slots.modify s ({ · with connected := false })).length = v.slots.length :=
        List.length_modify ..
      refine ⟨h.kept hkept hlength ?_, hkept.order, ?_, hkept.reindexed.1.trans hlength,
        rfl, rfl, rfl, rfl⟩
      · intro t ht hkeep slot' hslot'
        obtain ⟨-, -, old, hold, -⟩ := h.ordered.stored ht
        rw [modify_connected hold] at hslot'
        rw [← Option.some.inj hslot']
        simpa [h.live t ht old hold] using hkeep
      · intro t slot' ht
        exact Kept.became hkept (modify_connected ht)

end Regrouping

/-- All that a step can do. -/
structure Stepped (v : SignalBase K A) (op : Op K A) (v' : SignalBase K A) : Prop where
  inv : Inv v'
  order : (order v'.groups).Perm ((Sigslot.order v.groups).filter (!removes v op ·) ++ makes v op)
  became : ∀ s slot, v.slots[s]? = some slot →
    Became v' s slot (slot.connected && !silences v op s) (blockedBy s v slot.blocked op)
  length : v'.slots.length = v.slots.length + (makes v op).length
  emissions : v.emissions.length ≤ v'.emissions.length
  rest : ∀ e < v.emissions.length, rest v' e = restAfter v e op
  begun : ∀ e ≥ v.emissions.length, ∀ s ∈ SigslotSteps.rest v' e, s ∈ Sigslot.order v.groups
  called : ∀ e, called v' e = called v e ++ invokes v e op

section Cases
variable {v : SignalBase K A} {s : SlotId}

theorem filter_all {xs : List SlotId} : xs.filter (fun _ => true) = xs :=
  List.filter_eq_self.mpr fun _ _ => rfl

theorem became_self {v' : SignalBase K A} {slot : SlotBase K} (found : v'.slots[s]? = some slot) :
    Became v' s slot (slot.connected && !false) slot.blocked :=
  ⟨slot.index, by rw [found, Bool.not_false, Bool.and_true]⟩

theorem begun_nothing {v' : SignalBase K A} (same : v'.emissions.length = v.emissions.length) :
    ∀ e ≥ v.emissions.length, ∀ s ∈ rest v' e, s ∈ order v.groups := by
  intro e he s hs
  unfold rest at hs
  rw [List.getElem?_eq_none (by omega)] at hs
  cases hs

theorem connect_stepped (h : Inv v) (callable : K) (tracked : Option ℕ) (gid : Int) :
    Stepped v (.connect callable tracked gid) (v.connect callable tracked gid) where
  inv := by
    have hmade : (v.slots ++ [⟨callable, tracked, (addSlot v.slots.length gid v.groups).2, gid, true,
        false⟩])[v.slots.length]? = some ⟨callable, tracked,
          (addSlot v.slots.length gid v.groups).2, gid, true, false⟩ := List.getElem?_concat_length
    refine ⟨addSlot_ordered h.ordered.append hmade rfl rfl, ?_, ?_, h.suffix⟩
    · intro s hs slot hslot
      obtain rfl | hold := List.mem_cons.mp (addSlot_order.mem_iff.mp hs)
      · rw [← Option.some.inj (hmade.symm.trans hslot)]
      · refine h.live s hold slot ?_
        rwa [SignalBase.connect, List.getElem?_append_left (h.made hold)] at hslot
    · intro x hx s hs
      have hlt := h.held x hx s hs
      rw [SignalBase.connect, List.length_append]
      exact Nat.lt_add_right _ hlt
  order := by
    have hall : (Sigslot.order v.groups).filter
        (!removes v (.connect callable tracked gid) ·) = Sigslot.order v.groups := filter_all
    rw [hall]
    exact addSlot_order.trans (List.perm_append_singleton _ _).symm
  became s slot hs := by
    refine became_self ?_
    rw [SignalBase.connect, List.getElem?_append_left (List.getElem?_eq_some_iff.mp hs).1, hs]
  length := List.length_append
  emissions := Nat.le_refl _
  rest _ _ := rfl
  begun := begun_nothing rfl
  called _ := (List.append_nil _).symm

theorem stepped_of_same {v' : SignalBase K A} {op : Op K A} (h : Inv v)
    (slots : v'.slots = v.slots) (groups : v'.groups = v.groups)
    (emissions : v'.emissions = v.emissions) (calls : v'.calls = v.calls)
    (stays : ∀ s ∈ Sigslot.order v.groups, removes v op s = false) (makes : makes v op = [])
    (silences : ∀ s, SigslotSteps.silences v op s = false)
    (blocked : ∀ s slot, v.slots[s]? = some slot → blockedBy s v slot.blocked op = slot.blocked)
    (waits : ∀ e, restAfter v e op = SigslotSteps.rest v e) (calls_none : ∀ e, invokes v e op = []) :
    Stepped v op v' where
  inv := ⟨by rw [slots, groups]; exact h.ordered, by rw [slots, groups]; exact h.live,
    by rw [slots, emissions]; exact h.held, by rw [emissions]; exact h.suffix⟩
  order := by
    rw [groups, makes, List.append_nil, List.filter_eq_self.mpr fun s hs => by simp [stays s hs]]
  became s slot hs := by
    rw [silences, blocked s slot hs]
    exact became_self (by rw [slots, hs])
  length := by rw [slots, makes]; rfl
  emissions := by rw [emissions]
  rest e _ := by
    rw [waits]
    unfold SigslotSteps.rest
    rw [emissions]
  begun := begun_nothing (by rw [emissions])
  called e := by
    rw [calls_none, List.append_nil]
    unfold SigslotSteps.called
    rw [calls]

theorem disconnected_stepped {v' : SignalBase K A} {op : Op K A} (h : Disconnected v s v')
    (removes : ∀ t, removes v op t = decide (t = s)) (silences : ∀ t, silences v op t = decide (t = s))
    (makes : makes v op = []) (blocked : ∀ t b, blockedBy t v b op = b)
    (waits : ∀ e, restAfter v e op = SigslotSteps.rest v e) (calls_none : ∀ e, invokes v e op = []) :
    Stepped v op v' where
  inv := h.inv
  order := by
    rw [makes, List.append_nil]
    have hkeep : (fun t => !SigslotSteps.removes v op t) = fun t => decide (t ≠ s) := by
      funext t
      rw [removes, decide_not]
    rw [hkeep]
    exact h.order
  became t slot ht := by
    rw [silences, blocked, ← decide_not]
    exact h.became t slot ht
  length := by rw [h.length, makes]; rfl
  emissions := by rw [h.frame.1]
  rest e _ := by
    rw [waits]
    unfold SigslotSteps.rest
    rw [h.frame.1]
  begun := begun_nothing (by rw [h.frame.1])
  called e := by
    rw [calls_none, List.append_nil]
    unfold SigslotSteps.called
    rw [h.frame.2.1]

theorem disconnect_stepped (h : Inv v) (s : SlotId) : Stepped v (.disconnect s) (v.disconnect s).1 := by
  unfold SignalBase.disconnect
  cases halive : v.alive s with
  | true =>
    rw [if_pos rfl]
    have hsilences : ∀ t, silences v (.disconnect s : Op K A) t = decide (t = s) := by
      intro t
      unfold silences
      by_cases hts : t = s
      · subst hts
        simp [halive]
      · have hst : s ≠ t := fun heq => hts heq.symm
        simp [hts, hst]
    exact disconnected_stepped (disconnectSlot_disconnected h) hsilences hsilences rfl
      (fun _ _ => rfl) (fun _ => rfl) fun _ => rfl
  | false =>
    rw [if_neg Bool.false_ne_true]
    have hsilences : ∀ t, silences v (.disconnect s : Op K A) t = false := by
      intro t
      unfold silences
      by_cases hst : s = t
      · subst hst
        simp [halive]
      · simp [hst]
    exact stepped_of_same h rfl rfl rfl rfl (fun t _ => hsilences t) rfl hsilences
      (fun _ _ _ => rfl) (fun _ => rfl) fun _ => rfl

theorem removeIf_stepped (h : Inv v) (cond : SlotId → Bool) :
    Stepped v (.disconnectIf cond) (v.removeIf cond).1 := by
  obtain ⟨hkept, -⟩ := disconnectIf_kept cond h.ordered
  refine ⟨h.kept hkept rfl fun s hs _ => h.live s hs, ?_, ?_, hkept.reindexed.1, Nat.le_refl _,
    fun _ _ => rfl, begun_nothing rfl, fun _ => (List.append_nil _).symm⟩
  · exact (List.append_nil _).symm ▸ hkept.order
  · intro s slot hs
    have hsame : (slot.connected && !silences v (.disconnectIf cond : Op K A) s) = slot.connected :=
      Bool.and_true _
    rw [hsame]
    exact Kept.became hkept hs

theorem removeGroup_stepped (h : Inv v) (gid : Int) :
    Stepped v (.disconnectGroup gid) (v.removeGroup gid).1 := by
  obtain ⟨hkept, -⟩ := clearGroup_kept gid
    (!removes v (.disconnectGroup gid : Op K A) ·) h.ordered (fun s slot hs => by
      simp [removes, hs])
  refine ⟨h.kept hkept rfl fun s hs _ => h.live s hs, ?_, ?_, rfl, Nat.le_refl _,
    fun _ _ => rfl, begun_nothing rfl, fun _ => (List.append_nil _).symm⟩
  · exact (List.append_nil _).symm ▸ hkept.order
  · intro s slot hs
    exact became_self hs

theorem disconnectAll_stepped (h : Inv v) :
    Stepped v (.disconnectAll : Op K A) v.disconnectAll where
  inv := ⟨⟨List.Pairwise.nil, by simp [SignalBase.disconnectAll]⟩,
    by simp [SignalBase.disconnectAll, Sigslot.order], h.held, h.suffix⟩
  order := by
    have hnone : (Sigslot.order v.groups).filter (!removes v (.disconnectAll : Op K A) ·) = [] :=
      List.filter_eq_nil_iff.mpr fun _ _ => by simp [removes]
    rw [hnone]
    exact List.Perm.refl _
  became s slot hs := became_self hs
  length := rfl
  emissions := Nat.le_refl _
  rest _ _ := rfl
  begun := begun_nothing rfl
  called _ := (List.append_nil _).symm

theorem setBlocked_stepped (h : Inv v) (s : SlotId) (blocked : Bool) :
    Stepped v (.setBlocked s blocked) (v.setBlocked s blocked) := by
  unfold SignalBase.setBlocked
  cases halive : v.alive s with
  | false =>
    rw [if_neg Bool.false_ne_true]
    refine stepped_of_same h rfl rfl rfl rfl (fun _ _ => rfl) rfl (fun _ => rfl) ?_ (fun _ => rfl)
      fun _ => rfl
    intro t slot _
    refine if_neg ?_
    rintro ⟨rfl, h⟩
    rw [halive] at h
    cases h
  | true =>
    rw [if_pos rfl]
    have hat : ∀ (t : SlotId) (slot : SlotBase K), v.slots[t]? = some slot →
        (v.slots.modify s ({ · with blocked := blocked }))[t]? =
          some { slot with blocked := blockedBy t v slot.blocked (.setBlocked s blocked : Op K A) } := by
      intro t slot ht
      unfold blockedBy
      rw [List.getElem?_modify, ht]
      by_cases hst : s = t
      · subst hst
        simp [halive]
      · simp [hst]
    refine ⟨⟨h.ordered.modify fun _ => ⟨rfl, rfl⟩, ?_, ?_, h.suffix⟩, ?_, ?_, List.length_modify ..,
      Nat.le_refl _, fun _ _ => rfl, begun_nothing rfl, fun _ => (List.append_nil _).symm⟩
    · intro t ht slot hslot
      obtain ⟨-, -, old, hold, -⟩ := h.ordered.stored ht
      rw [← Option.some.inj ((hat t old hold).symm.trans hslot)]
      exact h.live t ht old hold
    · intro x hx t ht
      exact (List.length_modify ..).symm ▸ h.held x hx t ht
    · exact (List.append_nil _).symm ▸ filter_all.symm ▸ List.Perm.refl _
    · intro t slot ht
      exact ⟨slot.index, by rw [hat t slot ht]; simp [silences]⟩

theorem rest_append {x : List (Emission A)} {e : ℕ} (he : e < v.emissions.length) :
    rest { v with emissions := v.emissions ++ x } e = rest v e := by
  unfold rest
  rw [List.getElem?_append_left he]

theorem emit_stepped (h : Inv v) (args : A) : Stepped v (.emit args) (v.emit args) where
  inv := by
    refine ⟨h.ordered, h.live, ?_, ?_⟩
    · intro x hx s hs
      obtain hold | hnew := List.mem_append.mp hx
      · exact h.held x hold s hs
      · obtain rfl := List.mem_singleton.mp hnew
        refine h.made ?_
        by_cases hblock : v.block = true
        · simp [hblock] at hs
        · simpa [hblock] using hs
    · intro x hx
      obtain hold | hnew := List.mem_append.mp hx
      · exact h.suffix x hold
      · obtain rfl := List.mem_singleton.mp hnew
        exact List.suffix_rfl
  order := (List.append_nil _).symm ▸ filter_all.symm ▸ List.Perm.refl _
  became s slot hs := became_self hs
  length := rfl
  emissions := by
    unfold SignalBase.emit
    rw [List.length_append]
    exact Nat.le_add_right _ _
  rest e he := rest_append he
  begun e he s hs := by
    unfold SigslotSteps.rest SignalBase.emit at hs
    rw [List.getElem?_append_right he] at hs
    cases he' : e - v.emissions.length with
    | zero =>
      by_cases hblock : v.block = true
      · simp [he', hblock] at hs
      · simpa [he', hblock] using hs
    | succ n => simp [he'] at hs
  called _ := (List.append_nil _).symm

end Cases

section Turns
variable {v : SignalBase K A} {e : ℕ} {x : Emission A} {s : SlotId}

def moved (v : SignalBase K A) (e : ℕ) (x : Emission A) : SignalBase K A :=
  { v with emissions := v.emissions.set e x }

theorem moved_inv (h : Inv v) (held : ∀ s ∈ x.held, s < v.slots.length) (suffix : x.rest <:+ x.held) :
    Inv (moved v e x) where
  ordered := h.ordered
  live := h.live
  held y hy := by
    obtain hold | rfl := List.mem_or_eq_of_mem_set hy
    · exact h.held y hold
    · exact held
  suffix y hy := by
    obtain hold | rfl := List.mem_or_eq_of_mem_set hy
    · exact h.suffix y hold
    · exact suffix

theorem moved_rest {old : Emission A} (found : v.emissions[e]? = some old)
    (tail : x.rest = old.rest.tail) {e' : ℕ} :
    rest (moved v e x) e' = restAfter v e' (.advance e : Op K A) := by
  change ((v.emissions.set e x)[e']?.map Emission.rest).getD [] =
    if e = e' then (rest v e').tail else rest v e'
  rw [List.getElem?_set]
  split
  · rename_i hee'
    subst hee'
    unfold rest
    rw [if_pos (List.getElem?_eq_some_iff.mp found).1, found]
    exact tail
  · rfl

theorem rest_of_emission (found : v.emissions[e]? = some x) : rest v e = x.rest := by
  unfold rest
  rw [found]
  rfl

theorem called_append (call : Call A) (e' : ℕ) :
    called { v with calls := v.calls ++ [call] } e' =
      called v e' ++ if call.emission = e' then [call.slot] else [] := by
  unfold called
  rw [List.filter_append, List.map_append]
  by_cases he : call.emission = e'
  · simp [he]
  · simp [he]

theorem callSlot_of_none {args : A} (h : v.slots[s]? = none) : v.callSlot e s args = v := by
  unfold SignalBase.callSlot
  rw [h]

theorem callSlot_of_some {slot : SlotBase K} {args : A} (h : v.slots[s]? = some slot) :
    v.callSlot e s args =
      if slot.connected && !slot.blocked then
        if v.gone slot then (v.disconnectSlot s).1 else { v with calls := v.calls ++ [⟨e, s, args⟩] }
      else v := by
  unfold SignalBase.callSlot
  rw [h]

theorem moved_stepped {old : Emission A} {v' : SignalBase K A}
    (found : v.emissions[e]? = some old) (tail : x.rest = old.rest.tail)
    (inv : Inv (moved v e x)) (slots : v'.slots = v.slots) (groups : v'.groups = v.groups)
    (emissions : v'.emissions = v.emissions.set e x)
    (silent : ∀ t, silences v (.advance e : Op K A) t = false)
    (calls : ∀ e', called v' e' = called v e' ++ invokes v e' (.advance e : Op K A)) :
    Stepped v (.advance e) v' where
  inv := ⟨by rw [slots, groups]; exact inv.ordered, by rw [slots, groups]; exact inv.live,
    by rw [slots, emissions]; exact inv.held, by rw [emissions]; exact inv.suffix⟩
  order := by
    have hall : ∀ s ∈ Sigslot.order v.groups, (!removes v (.advance e : Op K A) s) = true := by
      intro s _
      rw [Bool.not_eq_true']
      exact silent s
    rw [groups, List.filter_eq_self.mpr hall]
    exact (List.append_nil _).symm ▸ List.Perm.refl _
  became s slot hs := by
    rw [silent s]
    exact became_self (by rw [slots, hs])
  length := by rw [slots]; rfl
  emissions := by rw [emissions, List.length_set]
  rest e' _ := by
    rw [← moved_rest found tail]
    unfold SigslotSteps.rest moved
    rw [emissions]
  begun := begun_nothing (by rw [emissions, List.length_set])
  called := calls

theorem gone_iff {slot : SlotBase K} (found : v.slots[s]? = some slot) : orphan v s = v.gone slot := by
  unfold orphan
  rw [found]
  rfl

/-- A turn at which the slot that is next is disconnected, its object being gone. -/
theorem orphaned_stepped {old : Emission A} {v' : SignalBase K A} (found : v.emissions[e]? = some old)
    (tail : x.rest = old.rest.tail)
    (silences : ∀ t, silences v (.advance e : Op K A) t = decide (t = s))
    (calls_none : ∀ e', invokes v e' (.advance e : Op K A) = [])
    (h : Disconnected (moved v e x) s v') : Stepped v (.advance e) v' where
  inv := h.inv
  order := by
    have hkeep : (fun t => !removes v (.advance e : Op K A) t) = fun t => decide (t ≠ s) := by
      funext t
      rw [decide_not, ← silences t]
      rfl
    rw [hkeep]
    exact (List.append_nil _).symm ▸ h.order
  became t slot ht := by
    rw [silences, ← decide_not]
    exact h.became t slot ht
  length := h.length
  emissions := by
    rw [h.frame.1]
    exact Nat.le_of_eq (List.length_set ..).symm
  rest e' _ := by
    rw [← moved_rest found tail]
    unfold SigslotSteps.rest
    rw [h.frame.1]
  begun := begun_nothing (by
    rw [h.frame.1]
    exact List.length_set ..)
  called e' := by
    rw [calls_none, List.append_nil]
    unfold SigslotSteps.called
    rw [h.frame.2.1]
    rfl

theorem turn_stepped {tail : List SlotId} (found : v.emissions[e]? = some x) (htail : tail = x.rest.tail)
    (hrest : rest v e = s :: tail) (inv : Inv (moved v e ⟨x.args, x.held, tail⟩)) :
    Stepped v (.advance e) ((moved v e ⟨x.args, x.held, tail⟩).callSlot e s x.args) := by
  have hsilences : ∀ t, silences v (.advance e : Op K A) t =
      (decide (t = s) && (listening v s && orphan v s)) := by
    intro t
    simp only [silences, hrest, List.head?_cons]
    by_cases hts : t = s
    · subst hts
      simp
    · have hst : s ≠ t := fun heq => hts heq.symm
      simp [hts, hst]
  have hinvokes : ∀ e', invokes v e' (.advance e : Op K A) =
      if e = e' then if listening v s && !orphan v s then [s] else [] else [] := by
    intro e'
    change (if e = e' then _ else _) = _
    by_cases hee' : e = e'
    · subst hee'
      rw [if_pos rfl, if_pos rfl, hrest, List.head?_cons, Option.toList_some, List.filter_singleton,
        Bool.cond_eq_ite]
    · rw [if_neg hee', if_neg hee']
  -- Nobody is listening: the slot is passed over.
  have passed (deaf : listening v s = false) :
      Stepped v (.advance e) (moved v e ⟨x.args, x.held, tail⟩) := by
    refine moved_stepped found htail inv rfl rfl rfl (fun t => ?_) fun e' => ?_
    · rw [hsilences, deaf, Bool.false_and, Bool.and_false]
    · rw [hinvokes, deaf, Bool.false_and, if_neg Bool.false_ne_true, ite_self, List.append_nil]
      rfl
  cases hslot : v.slots[s]? with
  | none =>
    have hsame : (moved v e ⟨x.args, x.held, tail⟩).slots[s]? = none := hslot
    rw [callSlot_of_none hsame]
    refine passed ?_
    unfold listening
    rw [hslot]
    rfl
  | some slot =>
    have hlistening : listening v s = (slot.connected && !slot.blocked) := by
      unfold listening
      rw [hslot]
      rfl
    have horphan : orphan v s = v.gone slot := gone_iff hslot
    have hsame : (moved v e ⟨x.args, x.held, tail⟩).slots[s]? = some slot := hslot
    rw [callSlot_of_some hsame]
    cases hheard : listening v s with
    | false =>
      have hdeaf := hheard
      rw [hlistening] at hheard
      rw [hheard, if_neg Bool.false_ne_true]
      exact passed hdeaf
    | true =>
      have hheard' := hheard
      rw [hlistening] at hheard'
      rw [hheard', if_pos rfl]
      cases hgone : v.gone slot with
      | false =>
        have hstays : (moved v e ⟨x.args, x.held, tail⟩).gone slot = false := hgone
        rw [hstays, if_neg Bool.false_ne_true]
        rw [hgone] at horphan
        refine moved_stepped found htail inv rfl rfl rfl (fun t => ?_) fun e' => ?_
        · rw [hsilences, horphan, Bool.and_false, Bool.and_false]
        · rw [hinvokes, hheard, horphan]
          exact called_append (v := moved v e ⟨x.args, x.held, tail⟩) _ e'
      | true =>
        have hends : (moved v e ⟨x.args, x.held, tail⟩).gone slot = true := hgone
        rw [hends, if_pos rfl]
        rw [hgone] at horphan
        exact orphaned_stepped found htail (fun t => by rw [hsilences, hheard, horphan]; simp)
          (fun e' => by rw [hinvokes, hheard, horphan]; simp) (disconnectSlot_disconnected inv)

theorem advance_stepped (h : Inv v) (e : ℕ) : Stepped v (.advance e) (v.advance e) := by
  unfold SignalBase.advance
  cases found : v.emissions[e]? with
  | none =>
    have hnil : rest v e = [] := by
      unfold rest
      rw [found]
      rfl
    have hsilent : ∀ t, silences v (.advance e : Op K A) t = false := by
      intro t
      simp [silences, hnil]
    refine stepped_of_same h rfl rfl rfl rfl (fun t _ => hsilent t) rfl hsilent (fun _ _ _ => rfl) ?_ ?_
    · intro e'
      change (if e = e' then (rest v e').tail else rest v e') = rest v e'
      split
      · rename_i hee'
        rw [← hee', hnil]
        rfl
      · rfl
    · intro e'
      simp only [invokes]
      split
      · rename_i hee'
        rw [← hee', hnil]
        rfl
      · rfl
  | some x =>
    have hmem : x ∈ v.emissions := List.mem_of_getElem? found
    have hrest := rest_of_emission found
    cases hx : x.rest with
    | nil =>
      rw [hx] at hrest
      have hsilent : ∀ t, silences v (.advance e : Op K A) t = false := by
        intro t
        simp [silences, hrest]
      simp only [hx]
      refine moved_stepped (x := ⟨x.args, [], []⟩) found (by rw [hx]; rfl)
        (moved_inv h (by simp) List.suffix_rfl) rfl rfl rfl hsilent fun e' => ?_
      simp only [invokes]
      split
      · rename_i hee'
        rw [← hee', hrest]
        exact (List.append_nil _).symm
      · exact (List.append_nil _).symm
    | cons s tail =>
      rw [hx] at hrest
      have htail : tail = x.rest.tail := by rw [hx]; rfl
      have hinv : Inv (moved v e ⟨x.args, x.held, tail⟩) :=
        moved_inv h (h.held x hmem) ((List.suffix_cons s tail).trans (hx ▸ h.suffix x hmem))
      simp only [hx]
      exact turn_stepped found htail hrest hinv

end Turns

section Steps
variable {v : SignalBase K A}

theorem step_stepped (h : Inv v) (op : Op K A) : Stepped v op (step v op) := by
  cases op with
  | connect callable tracked gid => exact connect_stepped h callable tracked gid
  | disconnect s => exact disconnect_stepped h s
  | setBlocked s blocked => exact setBlocked_stepped h s blocked
  | disconnectIf cond => exact removeIf_stepped h cond
  | disconnectGroup gid => exact removeGroup_stepped h gid
  | disconnectAll => exact disconnectAll_stepped h
  | block blocked =>
    exact stepped_of_same h rfl rfl rfl rfl (fun _ _ => rfl) rfl (fun _ => rfl) (fun _ _ _ => rfl)
      (fun _ => rfl) fun _ => rfl
  | expire object =>
    exact stepped_of_same h rfl rfl rfl rfl (fun _ _ => rfl) rfl (fun _ => rfl) (fun _ _ _ => rfl)
      (fun _ => rfl) fun _ => rfl
  | emit args => exact emit_stepped h args
  | advance e => exact advance_stepped h e

theorem disconnectSlot_log (s : SlotId) :
    (v.disconnectSlot s).1.emissions = v.emissions ∧ (v.disconnectSlot s).1.calls = v.calls := by
  unfold SignalBase.disconnectSlot
  repeat' split
  all_goals exact ⟨rfl, rfl⟩

theorem callSlot_log (e : ℕ) (s : SlotId) (args : A) :
    (v.callSlot e s args).emissions = v.emissions ∧
    ((v.callSlot e s args).calls = v.calls ∨ (v.callSlot e s args).calls = v.calls ++ [⟨e, s, args⟩]) := by
  unfold SignalBase.callSlot
  repeat' split
  · exact ⟨(disconnectSlot_log s).1, .inl (disconnectSlot_log s).2⟩
  · exact ⟨rfl, .inr rfl⟩
  · exact ⟨rfl, .inl rfl⟩
  · exact ⟨rfl, .inl rfl⟩

def Faithful (v : SignalBase K A) : Prop :=
  ∀ call ∈ v.calls, v.emissions[call.emission]?.map Emission.args = some call.args

theorem faithful_of_same {v' : SignalBase K A} (h : Faithful v) (emissions : v'.emissions = v.emissions)
    (calls : v'.calls = v.calls) : Faithful v' := by
  intro call hcall
  rw [calls] at hcall
  rw [emissions]
  exact h call hcall

theorem set_args {e : ℕ} {x y : Emission A} (found : v.emissions[e]? = some x) (same : y.args = x.args)
    (e' : ℕ) : (v.emissions.set e y)[e']?.map Emission.args = v.emissions[e']?.map Emission.args := by
  rw [List.getElem?_set]
  split
  · rename_i hee'
    subst hee'
    rw [if_pos (List.getElem?_eq_some_iff.mp found).1, found, Option.map_some, Option.map_some, same]
  · rfl

theorem append_args {x : Emission A} {e : ℕ} {args : A}
    (h : v.emissions[e]?.map Emission.args = some args) :
    (v.emissions ++ [x])[e]?.map Emission.args = some args := by
  obtain ⟨y, hy, hargs⟩ := Option.map_eq_some_iff.mp h
  rw [List.getElem?_append_left (List.getElem?_eq_some_iff.mp hy).1, hy, Option.map_some, hargs]

theorem advance_faithful (h : Faithful v) (e : ℕ) : Faithful (v.advance e) ∧
    ∀ e' : ℕ, (v.advance e).emissions[e']?.map Emission.args = v.emissions[e']?.map Emission.args := by
  unfold SignalBase.advance
  split
  · rename_i x found
    split
    · have hset := set_args (y := ⟨x.args, [], []⟩) found rfl
      exact ⟨fun call hcall => (hset _).trans (h call hcall), hset⟩
    · rename_i s tail _
      have hset := set_args (y := ⟨x.args, x.held, tail⟩) found rfl
      obtain ⟨hemissions, hcalls⟩ := callSlot_log
        (v := { v with emissions := v.emissions.set e ⟨x.args, x.held, tail⟩ }) e s x.args
      rw [hemissions]
      refine ⟨fun call hcall => ?_, hset⟩
      rw [hemissions, hset]
      obtain hsame | hnew := hcalls
      · rw [hsame] at hcall
        exact h call hcall
      · rw [hnew] at hcall
        obtain hold | hlast := List.mem_append.mp hcall
        · exact h call hold
        · obtain rfl := List.mem_singleton.mp hlast
          rw [found]
          rfl
  · exact ⟨h, fun _ => rfl⟩

theorem step_faithful (h : Faithful v) (op : Op K A) : Faithful (step v op) ∧
    ∀ (e : ℕ) (args : A), v.emissions[e]?.map Emission.args = some args →
      (step v op).emissions[e]?.map Emission.args = some args := by
  cases op with
  | disconnect s =>
    change Faithful (v.disconnect s).1 ∧ ∀ (e : ℕ) args, _ → (v.disconnect s).1.emissions[e]?.map _ = _
    unfold SignalBase.disconnect
    split
    · obtain ⟨hemissions, hcalls⟩ := disconnectSlot_log (v := v) s
      exact ⟨faithful_of_same h hemissions hcalls, fun _ _ he => hemissions ▸ he⟩
    · exact ⟨h, fun _ _ he => he⟩
  | setBlocked s blocked =>
    change Faithful (v.setBlocked s blocked) ∧
      ∀ (e : ℕ) args, _ → (v.setBlocked s blocked).emissions[e]?.map _ = _
    unfold SignalBase.setBlocked
    split
    · exact ⟨faithful_of_same h rfl rfl, fun _ _ he => he⟩
    · exact ⟨h, fun _ _ he => he⟩
  | emit args =>
    exact ⟨fun call hcall => append_args (h call hcall), fun _ _ he => append_args he⟩
  | advance e =>
    obtain ⟨hfaithful, hargs⟩ := advance_faithful h e
    exact ⟨hfaithful, fun e' _ he => (hargs e').trans he⟩
  | _ => exact ⟨faithful_of_same h rfl rfl, fun _ _ he => he⟩

theorem disconnectSlot_expired (s : SlotId) : (v.disconnectSlot s).1.expired = v.expired := by
  unfold SignalBase.disconnectSlot
  repeat' split
  all_goals rfl

theorem step_expired {op : Op K A} (other : ∀ object, op ≠ .expire object) :
    (step v op).expired = v.expired := by
  cases op with
  | disconnect s =>
    change (v.disconnect s).1.expired = v.expired
    unfold SignalBase.disconnect
    split
    · exact disconnectSlot_expired s
    · rfl
  | setBlocked s blocked =>
    change (v.setBlocked s blocked).expired = v.expired
    unfold SignalBase.setBlocked
    split <;> rfl
  | expire object => exact absurd rfl (other object)
  | advance e =>
    change (v.advance e).expired = v.expired
    unfold SignalBase.advance SignalBase.callSlot
    repeat' split
    all_goals first | rfl | exact disconnectSlot_expired _
  | connect _ _ _ => rfl
  | disconnectIf _ => rfl
  | disconnectGroup _ => rfl
  | disconnectAll => rfl
  | block _ => rfl
  | emit _ => rfl

theorem alive_of_held {x : Emission A} {s : SlotId} (hx : x ∈ v.emissions) (hs : s ∈ x.held) :
    v.alive s = true := by
  unfold SignalBase.alive
  rw [Bool.or_eq_true, List.any_eq_true]
  exact Or.inr ⟨x, hx, decide_eq_true hs⟩

theorem alive_of_order {s : SlotId} (hs : s ∈ order v.groups) : v.alive s = true := by
  unfold SignalBase.alive
  rw [decide_eq_true hs, Bool.true_or]

theorem step_held (op : Op K A) {x : Emission A} {s : SlotId} (hx : x ∈ (step v op).emissions)
    (hs : s ∈ x.held) : v.alive s = true := by
  cases op with
  | disconnect t =>
    change x ∈ (v.disconnect t).1.emissions at hx
    unfold SignalBase.disconnect at hx
    split at hx
    · rw [(disconnectSlot_log t).1] at hx
      exact alive_of_held hx hs
    · exact alive_of_held hx hs
  | setBlocked t blocked =>
    change x ∈ (v.setBlocked t blocked).emissions at hx
    unfold SignalBase.setBlocked at hx
    split at hx
    · exact alive_of_held hx hs
    · exact alive_of_held hx hs
  | emit args =>
    rcases List.mem_append.mp hx with hx | hx
    · exact alive_of_held hx hs
    · obtain rfl := List.mem_singleton.mp hx
      dsimp only at hs
      split at hs
      · exact absurd hs List.not_mem_nil
      · exact alive_of_order hs
  | advance e =>
    change x ∈ (v.advance e).emissions at hx
    unfold SignalBase.advance at hx
    split at hx
    · next y hy =>
      split at hx
      · rcases List.mem_or_eq_of_mem_set hx with hx | rfl
        · exact alive_of_held hx hs
        · exact absurd hs List.not_mem_nil
      · rw [(callSlot_log ..).1] at hx
        rcases List.mem_or_eq_of_mem_set hx with hx | rfl
        · exact alive_of_held hx hs
        · exact alive_of_held (List.mem_of_getElem? hy) hs
    · exact alive_of_held hx hs
  | _ => exact alive_of_held hx hs

theorem step_alive (h : Inv v) (op : Op K A) {s : SlotId} (made : s < v.slots.length)
    (halive : (step v op).alive s = true) : v.alive s = true := by
  unfold SignalBase.alive at halive
  rw [Bool.or_eq_true, decide_eq_true_eq, List.any_eq_true] at halive
  rcases halive with hs | ⟨x, hx, hs⟩
  · rcases List.mem_append.mp ((step_stepped h op).order.mem_iff.mp hs) with hs | hs
    · exact alive_of_order (List.mem_filter.mp hs).1
    · have hnew : makes v op ⊆ [v.slots.length] := by cases op <;> simp [makes]
      exact absurd (List.mem_singleton.mp (hnew hs)) (Nat.ne_of_lt made)
  · exact step_held op hx (of_decide_eq_true hs)

theorem after_inv {v : SignalBase K A} (h : Inv v) (ops : List (Op K A)) :
    Inv (StepMachine.after step v ops) :=
  StepMachine.invariant_after (I := Inv) (fun _ op h => (step_stepped h op).inv) h ops

theorem run_inv (ops : List (Op K A)) : Inv (run ops) := after_inv inv_new ops

end Steps

end QuailServer.SigslotSteps
