import Mathlib.Data.List.Induction
import QuailServer.SigslotSteps

set_option autoImplicit false

namespace QuailServer.SigslotRuns
open Sigslot SigslotInvariant SigslotSteps

variable {K A : Type}

theorem run_concat (ops : List (Op K A)) (op : Op K A) : run (ops ++ [op]) = step (run ops) op :=
  StepMachine.after_concat step _ ops op

theorem run_append (before after : List (Op K A)) :
    run (before ++ after) = StepMachine.after step (run before) after :=
  StepMachine.after_append step _ before after

/-- The slot was made in the run, and no step since has removed it. -/
def Registered (s : SlotId) (ops : List (Op K A)) : Prop :=
  ∃ before callable tracked gid since,
    ops = before ++ .connect callable tracked gid :: since ∧ s = (run before).slots.length ∧
    StepMachine.Each step (fun v op => removes v op s = false)
      (run (before ++ [.connect callable tracked gid])) since

theorem makes_iff {v : SignalBase K A} {op : Op K A} {s : SlotId} :
    s ∈ makes v op ↔ ∃ callable tracked gid, op = .connect callable tracked gid ∧ s = v.slots.length := by
  constructor
  · intro hs
    cases op with
    | connect callable tracked gid => exact ⟨callable, tracked, gid, rfl, List.mem_singleton.mp hs⟩
    | _ => cases hs
  · rintro ⟨callable, tracked, gid, rfl, rfl⟩
    exact List.mem_singleton_self _

theorem registered_concat {s : SlotId} {ops : List (Op K A)} {op : Op K A} :
    Registered s (ops ++ [op]) ↔
      (Registered s ops ∧ removes (run ops) op s = false) ∨ s ∈ makes (run ops) op := by
  constructor
  · rintro ⟨before, callable, tracked, gid, since, heq, hs, heach⟩
    obtain rfl | ⟨since, last, rfl⟩ := List.eq_nil_or_concat since
    · obtain ⟨rfl, hop⟩ := List.append_inj' heq rfl
      exact .inr (makes_iff.mpr ⟨callable, tracked, gid, (List.singleton_inj.mp hop), hs⟩)
    · rw [List.concat_eq_append, ← List.cons_append, ← List.append_assoc] at heq
      obtain ⟨rfl, hop⟩ := List.append_inj' heq rfl
      obtain rfl := List.singleton_inj.mp hop
      rw [List.concat_eq_append, StepMachine.each_append] at heach
      refine .inl ⟨⟨before, callable, tracked, gid, since, rfl, hs, heach.1⟩, ?_⟩
      have hlast := heach.2.1
      rw [← run_append, List.append_assoc] at hlast
      exact hlast
  · rintro (⟨⟨before, callable, tracked, gid, since, rfl, hs, heach⟩, hstays⟩ | hmade)
    · refine ⟨before, callable, tracked, gid, since ++ [op], by simp, hs, ?_⟩
      rw [StepMachine.each_append]
      refine ⟨heach, ?_, trivial⟩
      rw [← run_append, List.append_assoc]
      exact hstays
    · obtain ⟨callable, tracked, gid, rfl, hs⟩ := makes_iff.mp hmade
      exact ⟨ops, callable, tracked, gid, [], rfl, hs, trivial⟩

theorem stored_iff_registered (ops : List (Op K A)) (s : SlotId) :
    s ∈ order (run ops).groups ↔ Registered s ops := by
  induction ops using List.reverseRecOn with
  | nil =>
    refine iff_of_false (by simp [run, SignalBase.new, order]) ?_
    rintro ⟨before, callable, tracked, gid, since, heq, -⟩
    simp at heq
  | append_singleton ops op ih =>
    rw [registered_concat, ← ih, run_concat, (step_stepped (run_inv ops) op).order.mem_iff,
      List.mem_append, List.mem_filter, Bool.not_eq_true']

/-- A signal keeps exactly the slots connected and not removed since, each of them once, in the
    group of its id, at the index that its state says; and the groups ascend. -/
theorem slots_kept (ops : List (Op K A)) :
    ((run ops).groups.Pairwise fun g g' => g.gid < g'.gid) ∧
    (∀ g ∈ (run ops).groups, ∀ (i : ℕ) s, g.slts[i]? = some s →
      ∃ slot, (run ops).slots[s]? = some slot ∧ slot.index = i ∧ slot.group = g.gid) ∧
    (order (run ops).groups).Nodup ∧
    ∀ s, s ∈ order (run ops).groups ↔ Registered s ops :=
  have h := (run_inv ops).ordered
  ⟨h.ascending, h.placed, h.nodup, stored_iff_registered ops⟩

section Emissions
variable {v w : SignalBase K A} {e : ℕ} {op : Op K A} {s : SlotId} {args : A}

theorem turn_cases (v : SignalBase K A) (e : ℕ) (op : Op K A) :
    (restAfter v e op = rest v e ∧ invokes v e op = []) ∨
    ∃ s tail, op = .advance e ∧ rest v e = s :: tail ∧ restAfter v e op = tail ∧
      invokes v e op = if listening v s && !orphan v s then [s] else [] := by
  cases op with
  | advance e' =>
    by_cases he : e' = e
    · subst he
      have hturn : restAfter v e' (.advance e' : Op K A) = (rest v e').tail := if_pos rfl
      have hcall : invokes v e' (.advance e' : Op K A) =
          (rest v e').head?.toList.filter fun s => listening v s && !orphan v s := if_pos rfl
      rw [hturn, hcall]
      cases hrest : rest v e' with
      | nil => exact .inl ⟨rfl, rfl⟩
      | cons s tail =>
        refine .inr ⟨s, tail, rfl, rfl, rfl, ?_⟩
        rw [List.head?_cons, Option.toList_some, List.filter_singleton, Bool.cond_eq_ite]
    · exact .inl ⟨if_neg he, if_neg he⟩
  | _ => exact .inl ⟨rfl, rfl⟩

/-- The emission has come through the slots `done` of `ref` and called some of them. -/
structure Follows (ref : List SlotId) (args : A) (e : ℕ) (w : SignalBase K A) : Prop where
  inv : Inv w
  faithful : Faithful w
  begun : e < w.emissions.length
  args : w.emissions[e]?.map Emission.args = some args
  done : ∃ done, ref = done ++ rest w e ∧ (called w e).Sublist done

theorem follows_step {ref : List SlotId} (op : Op K A) (h : Follows ref args e w) :
    Follows ref args e (step w op) := by
  have hstep := step_stepped h.inv op
  obtain ⟨hfaithful, hargs⟩ := step_faithful h.faithful op
  refine ⟨hstep.inv, hfaithful, Nat.lt_of_lt_of_le h.begun hstep.emissions, hargs e args h.args, ?_⟩
  rw [hstep.rest e h.begun, hstep.called e]
  obtain ⟨done, href, hsub⟩ := h.done
  obtain ⟨hsame, hnone⟩ | ⟨s, tail, -, hrest, htail, hcall⟩ := turn_cases w e op
  · exact ⟨done, by rw [hsame, href], by rwa [hnone, List.append_nil]⟩
  · refine ⟨done ++ [s], by rw [htail, href, hrest]; simp, ?_⟩
    have hcalled : (invokes w e op).Sublist [s] := by
      rw [hcall]
      split
      · exact List.Sublist.refl _
      · exact List.nil_sublist _
    exact hsub.append hcalled

theorem run_faithful (ops : List (Op K A)) : Faithful (run ops) :=
  StepMachine.invariant_after (I := Faithful) (fun _ op h => (step_faithful h op).1)
    (by simp [Faithful, SignalBase.new]) ops

def reference (v : SignalBase K A) : List SlotId := if v.block then [] else order v.groups

theorem follows_emit (ops : List (Op K A)) (args : A) :
    Follows (reference (run ops)) args (run ops).emissions.length ((run ops).emit args) := by
  have h := run_inv ops
  have hfaithful := run_faithful ops
  refine ⟨(emit_stepped h args).inv, (step_faithful hfaithful (.emit args)).1, ?_, ?_, [], ?_, ?_⟩
  · unfold SignalBase.emit
    rw [List.length_append]
    exact Nat.lt_succ_self _
  · unfold SignalBase.emit
    rw [List.getElem?_concat_length]
    rfl
  · unfold SignalBase.emit rest
    rw [List.getElem?_concat_length]
    rfl
  · have hnone : called (run ops) (run ops).emissions.length = [] := by
      unfold called
      rw [List.filter_eq_nil_iff.mpr, List.map_nil]
      intro call hcall
      obtain ⟨x, hx, -⟩ := Option.map_eq_some_iff.mp (hfaithful call hcall)
      have hlt := (List.getElem?_eq_some_iff.mp hx).1
      simpa using Nat.ne_of_lt hlt
    exact hnone ▸ List.Sublist.refl _

theorem follows_run (before after : List (Op K A)) (args : A) :
    Follows (reference (run before)) args (run before).emissions.length
      (run (before ++ .emit args :: after)) := by
  rw [run_append, StepMachine.after_cons]
  exact StepMachine.invariant_after (I := Follows _ args _) (fun _ op h => follows_step op h)
    (follows_emit before args) after

theorem Follows.called_sublist {ref : List SlotId} (h : Follows ref args e w) :
    (called w e).Sublist ref := by
  obtain ⟨done, href, hsub⟩ := h.done
  rw [href]
  exact hsub.trans (List.sublist_append_left ..)

theorem reference_sublist (v : SignalBase K A) : (reference v).Sublist (order v.groups) := by
  unfold reference
  split
  · exact List.nil_sublist _
  · exact List.Sublist.refl _

/-- Whatever happens while it is under way, an emission calls slots of the list it took, in the
    order of the list and none twice, with its own arguments. The groups are called in ascending
    order, and a blocked signal calls nobody. -/
theorem emission_in_order (before after : List (Op K A)) (args : A) :
    (called (run (before ++ .emit args :: after)) (run before).emissions.length).Sublist
      (if (run before).block then [] else order (run before).groups) ∧
    (called (run (before ++ .emit args :: after)) (run before).emissions.length).Nodup ∧
    (called (run (before ++ .emit args :: after)) (run before).emissions.length).Pairwise
      (GroupLE (run before).slots) ∧
    ∀ call ∈ (run (before ++ .emit args :: after)).calls,
      call.emission = (run before).emissions.length → call.args = args := by
  have h := follows_run before after args
  have hordered := (run_inv before).ordered
  have hsub := h.called_sublist.trans (reference_sublist (run before))
  refine ⟨h.called_sublist, hordered.nodup.sublist hsub, hordered.groups_ascend.sublist hsub,
    fun call hcall he => ?_⟩
  have hargs := h.faithful call hcall
  rw [he, h.args] at hargs
  exact (Option.some.inj hargs).symm

/-- The step leaves the connection of a slot with this object alone. -/
def Undisturbed (s : SlotId) (tracked : Option ℕ) (op : Op K A) : Prop :=
  op ≠ .disconnect s ∧ op ≠ .setBlocked s true ∧ ∀ object, tracked = some object → op ≠ .expire object

structure Heard (s : SlotId) (tracked : Option ℕ) (v : SignalBase K A) : Prop where
  slot : ∃ slot, v.slots[s]? = some slot ∧ slot.connected = true ∧ slot.blocked = false ∧
    slot.tracked = tracked
  object : ∀ object, tracked = some object → object ∉ v.expired

theorem Heard.listening {tracked : Option ℕ} (h : Heard s tracked v) : listening v s = true := by
  obtain ⟨slot, hslot, hconnected, hblocked, -⟩ := h.slot
  unfold SigslotSteps.listening
  rw [hslot]
  simp [hconnected, hblocked]

theorem Heard.orphan {tracked : Option ℕ} (h : Heard s tracked v) : orphan v s = false := by
  obtain ⟨slot, hslot, -, -, htracked⟩ := h.slot
  rw [gone_iff hslot]
  unfold SignalBase.gone
  rw [htracked]
  cases tracked with
  | none => rfl
  | some object => simpa using h.object object rfl

theorem heard_step {tracked : Option ℕ} (inv : Inv v) (h : Heard s tracked v)
    (undisturbed : Undisturbed s tracked op) : Heard s tracked (step v op) := by
  obtain ⟨hstays, hopen, hkept⟩ := undisturbed
  obtain ⟨slot, hslot, hconnected, hblocked, htracked⟩ := h.slot
  have hsilences : silences v op s = false := by
    cases op with
    | disconnect t =>
      have hts : t ≠ s := by
        rintro rfl
        exact hstays rfl
      simp [silences, hts]
    | advance e => simp [silences, h.orphan]
    | _ => rfl
  have hblockedBy : blockedBy s v slot.blocked op = false := by
    cases op with
    | setBlocked t now =>
      change (if t = s ∧ v.alive s = true then now else slot.blocked) = false
      split
      · rename_i ht
        cases now with
        | false => rfl
        | true => exact absurd (ht.1 ▸ rfl) hopen
      · exact hblocked
    | _ => exact hblocked
  constructor
  · obtain ⟨index, hindex⟩ := (step_stepped inv op).became s slot hslot
    exact ⟨_, hindex, by rw [hconnected, hsilences]; rfl, hblockedBy, htracked⟩
  · intro object hobject
    by_cases hop : ∃ o, op = .expire o
    · obtain ⟨o, rfl⟩ := hop
      intro hmem
      obtain rfl | hold := List.mem_cons.mp hmem
      · exact hkept object hobject rfl
      · exact h.object object hobject hold
    · rw [step_expired fun o ho => hop ⟨o, ho⟩]
      exact h.object object hobject

theorem passed_step {ref : List SlotId} {tracked : Option ℕ} (h : Follows ref args e w)
    (heard : Heard s tracked w) (passed : s ∈ ref → s ∉ rest w e → s ∈ called w e) (op : Op K A) :
    s ∈ ref → s ∉ rest (step w op) e → s ∈ called (step w op) e := by
  intro hs hgone
  have hstep := step_stepped h.inv op
  rw [hstep.rest e h.begun] at hgone
  rw [hstep.called e]
  obtain ⟨hsame, hnone⟩ | ⟨t, tail, -, hrest, htail, hcall⟩ := turn_cases w e op
  · rw [hsame] at hgone
    exact List.mem_append_left _ (passed hs hgone)
  · by_cases hst : s = t
    · subst hst
      rw [hcall, heard.listening, heard.orphan]
      exact List.mem_append_right _ (List.mem_singleton_self _)
    · rw [htail] at hgone
      refine List.mem_append_left _ (passed hs ?_)
      rw [hrest]
      exact fun hmem => hgone ((List.mem_cons.mp hmem).resolve_left hst)

/-- A slot that an open signal has when an emission begins is called by it exactly once, if its
    connection is left alone until the emission is through. Removing it by its group, its callable,
    its object or with all others does not stop the call. -/
theorem called_once (before after : List (Op K A)) (args : A) (s : SlotId) (tracked : Option ℕ)
    (stored : s ∈ order (run before).groups) (heard : Heard s tracked (run before))
    (unblocked : (run before).block = false) (undisturbed : ∀ op ∈ after, Undisturbed s tracked op)
    (through : rest (run (before ++ .emit args :: after)) (run before).emissions.length = []) :
    (called (run (before ++ .emit args :: after)) (run before).emissions.length).count s = 1 := by
  have hstart := follows_emit before args
  have hs : s ∈ reference (run before) := by
    unfold reference
    rw [unblocked]
    exact stored
  have hfresh : s ∉ rest ((run before).emit args) (run before).emissions.length → s ∈
      called ((run before).emit args) (run before).emissions.length := by
    intro hgone
    refine absurd ?_ hgone
    unfold SignalBase.emit rest
    rw [List.getElem?_concat_length]
    exact hs
  obtain ⟨hfollows, -, hpassed⟩ := StepMachine.after_of_labels (P := Undisturbed s tracked)
    (I := fun w => Follows (reference (run before)) args (run before).emissions.length w ∧
      Heard s tracked w ∧ (s ∈ reference (run before) →
        s ∉ rest w (run before).emissions.length → s ∈ called w (run before).emissions.length))
    (fun w op hop hw => ⟨follows_step op hw.1, heard_step hw.1.inv hw.2.1 hop,
      passed_step hw.1 hw.2.1 hw.2.2 op⟩)
    ⟨hstart, ⟨heard.slot, heard.object⟩, fun _ => hfresh⟩ undisturbed
  have hrun : run (before ++ .emit args :: after) =
      StepMachine.after step ((run before).emit args) after := by
    rw [run_append, StepMachine.after_cons]
    rfl
  rw [hrun] at through ⊢
  have hcalled := hpassed hs (by rw [through]; exact List.not_mem_nil)
  have hsub := hfollows.called_sublist.trans (reference_sublist (run before))
  exact List.count_eq_one_of_mem ((run_inv before).ordered.nodup.sublist hsub) hcalled

theorem called_once_cleared :
    (called (run ([.connect () none 0] ++ Op.emit 7 :: [.disconnectGroup 0, .advance 0])) 0).count 0 = 1 :=
  called_once [.connect () none 0] [.disconnectGroup 0, .advance 0] 7 0 none (by decide)
    ⟨⟨⟨(), none, 0, 0, true, false⟩, rfl, rfl, rfl, rfl⟩, by simp⟩ rfl
    (fun op hop => by
      obtain rfl | rfl : op = .disconnectGroup 0 ∨ op = .advance 0 := by simpa using hop
      all_goals exact ⟨by simp, by simp, by simp⟩) rfl

/-- A slot that was made will not be called again: it is disconnected, or neither the signal nor
    an emission has it. -/
def Mute (s : SlotId) (v : SignalBase K A) : Prop :=
  s < v.slots.length ∧ ((∀ slot, v.slots[s]? = some slot → slot.connected = false) ∨
    (s ∉ order v.groups ∧ ∀ e, s ∉ rest v e))

theorem mute_step (inv : Inv v) (h : Mute s v) (op : Op K A) : Mute s (step v op) := by
  have hstep := step_stepped inv op
  obtain ⟨hmade, hmute⟩ := h
  refine ⟨by rw [hstep.length]; exact Nat.lt_add_right _ hmade, ?_⟩
  obtain hsilent | ⟨hstored, hrest⟩ := hmute
  · left
    intro slot hslot
    have hold := List.getElem?_eq_getElem hmade
    obtain ⟨index, hindex⟩ := hstep.became s _ hold
    rw [← Option.some.inj (hindex.symm.trans hslot), hsilent _ hold]
    rfl
  · right
    constructor
    · intro hs
      obtain hkept | hnew := List.mem_append.mp (hstep.order.mem_iff.mp hs)
      · exact hstored (List.mem_filter.mp hkept).1
      · obtain ⟨-, -, -, -, rfl⟩ := makes_iff.mp hnew
        exact Nat.lt_irrefl _ hmade
    · intro e hs
      obtain he | he := Nat.lt_or_ge e v.emissions.length
      · rw [hstep.rest e he] at hs
        obtain ⟨hsame, -⟩ | ⟨t, tail, -, hrest', htail, -⟩ := turn_cases v e op
        · exact hrest e (hsame ▸ hs)
        · exact hrest e (hrest' ▸ List.mem_cons_of_mem _ (htail ▸ hs))
      · exact hstored (hstep.begun e he s hs)

theorem mute_not_called (h : Mute s v) (e : ℕ) (op : Op K A) : s ∉ invokes v e op := by
  obtain ⟨-, hnone⟩ | ⟨t, tail, -, hrest, -, hcall⟩ := turn_cases v e op
  · rw [hnone]
    exact List.not_mem_nil
  · rw [hcall]
    split
    · rename_i hheard
      intro hs
      obtain rfl := List.mem_singleton.mp hs
      obtain hsilent | ⟨-, hnot⟩ := h.2
      · unfold SigslotSteps.listening at hheard
        rw [List.getElem?_eq_getElem h.1] at hheard
        simp [hsilent _ (List.getElem?_eq_getElem h.1)] at hheard
      · exact hnot e (hrest ▸ List.mem_cons_self)
    · exact List.not_mem_nil

theorem mute_of_disconnect (inv : Inv v) (made : s < v.slots.length) :
    Mute s (step v (.disconnect s)) := by
  have hstep := step_stepped inv (.disconnect s)
  refine ⟨by rw [hstep.length]; exact made, ?_⟩
  cases halive : v.alive s with
  | true =>
    left
    intro slot hslot
    obtain ⟨index, hindex⟩ := hstep.became s _ (List.getElem?_eq_getElem made)
    rw [← Option.some.inj (hindex.symm.trans hslot)]
    simp [silences, halive]
  | false =>
    right
    have hsame : step v (.disconnect s) = v := by
      change (v.disconnect s).1 = v
      unfold SignalBase.disconnect
      rw [halive, if_neg Bool.false_ne_true]
    rw [hsame]
    unfold SignalBase.alive at halive
    rw [Bool.or_eq_false_iff, decide_eq_false_iff_not, List.any_eq_false] at halive
    refine ⟨halive.1, fun e hs => ?_⟩
    unfold rest at hs
    cases hx : v.emissions[e]? with
    | none =>
      rw [hx] at hs
      cases hs
    | some x =>
      rw [hx] at hs
      have hmem := List.mem_of_getElem? hx
      exact halive.2 x hmem (decide_eq_true ((inv.suffix x hmem).subset hs))

/-- After `disconnect` on a connection its slot is never called again, neither by a later emission
    nor by one under way. -/
theorem never_called_again (before after : List (Op K A)) (s : SlotId)
    (made : s < (run before).slots.length) (e : ℕ) :
    (called (run (before ++ .disconnect s :: after)) e).count s = (called (run before) e).count s := by
  have hinv := run_inv before
  have hquiet (w : SignalBase K A) (op : Op K A) (e : ℕ) (h : Inv w) (hmute : Mute s w) :
      (called (step w op) e).count s = (called w e).count s := by
    rw [(step_stepped h op).called e, List.count_append,
      List.count_eq_zero.mpr (mute_not_called hmute e op), Nat.add_zero]
  have hstep := step_stepped hinv (.disconnect s)
  have hfirst : called (step (run before) (.disconnect s)) e = called (run before) e := by
    rw [hstep.called e]
    exact List.append_nil _
  rw [run_append, StepMachine.after_cons]
  have hrun := StepMachine.invariant_after
    (I := fun w => Inv w ∧ Mute s w ∧ (called w e).count s = (called (run before) e).count s)
    (fun w op hw => ⟨(step_stepped hw.1 op).inv, mute_step hw.1 hw.2.1 op,
      (hquiet w op e hw.1 hw.2.1).trans hw.2.2⟩)
    ⟨hstep.inv, mute_of_disconnect hinv made, by rw [hfirst]⟩ after
  exact hrun.2.2

theorem never_called_again_nested :
    (called (run ([.connect () none 0, .emit 7] ++ Op.disconnect 0 :: [.advance 0])) 0).count 0 =
      (called (run [.connect () none 0, Op.emit 7]) 0).count 0 :=
  never_called_again [.connect () none 0, .emit 7] [.advance 0] 0 (by decide) 0

end Emissions

section Results
variable {v : SignalBase K A} {s : SlotId}

theorem slotCount_eq (v : SignalBase K A) : v.slotCount = (order v.groups).length :=
  List.length_flatMap.symm

theorem kept_count {keep : SlotId → Bool} {slots : List (SlotBase K)} {groups : List GroupType}
    (kept : Kept keep v.slots v.groups slots groups) :
    (order groups).length + (order v.groups).countP (!keep ·) = v.slotCount := by
  have hleft : (order groups).length = (order v.groups).countP keep := by
    rw [List.countP_eq_length_filter]
    exact kept.order.length_eq
  have hnot : (order v.groups).countP (!keep ·) = (order v.groups).countP fun s => decide ¬ keep s :=
    List.countP_congr fun s _ => by simp
  rw [hleft, hnot, slotCount_eq, ← List.length_eq_countP_add_countP]

theorem removeIf_count (h : Inv v) (cond : SlotId → Bool) :
    (v.removeIf cond).1.slotCount + (v.removeIf cond).2 = v.slotCount := by
  obtain ⟨hkept, hcount⟩ := disconnectIf_kept cond h.ordered
  have hremoved : (v.removeIf cond).2 = (order v.groups).countP fun s => !!cond s := by
    simp only [Bool.not_not]
    exact hcount
  rw [slotCount_eq, hremoved]
  exact kept_count hkept

theorem removeGroup_count (h : Inv v) (gid : Int) :
    (v.removeGroup gid).1.slotCount + (v.removeGroup gid).2 = v.slotCount := by
  obtain ⟨hkept, hcount⟩ := clearGroup_kept gid
    (!removes v (.disconnectGroup gid : Op K A) ·) h.ordered (fun s slot hs => by
      simp [removes, hs])
  rw [slotCount_eq, ← kept_count hkept, ← hcount]
  rfl

theorem alive_of_free (free : ∀ x ∈ v.emissions, s ∉ x.held) :
    v.alive s = decide (s ∈ order v.groups) := by
  unfold SignalBase.alive
  have hnone : (v.emissions.any fun x => decide (s ∈ x.held)) = false := by
    rw [List.any_eq_false]
    exact fun x hx => by simpa using free x hx
  rw [hnone, Bool.or_false]

theorem disconnect_returns (h : Inv v) (free : ∀ x ∈ v.emissions, s ∉ x.held) :
    (v.disconnect s).2 = true ↔ s ∈ order v.groups := by
  unfold SignalBase.disconnect
  rw [alive_of_free free]
  by_cases hs : s ∈ order v.groups
  · rw [decide_eq_true hs, if_pos rfl]
    obtain ⟨-, -, slot, hslot, -⟩ := h.ordered.stored hs
    obtain ⟨slots, groups, heq, -⟩ := disconnectSlot_of_connected h hslot (h.live s hs slot hslot)
    rw [heq]
    exact iff_of_true rfl hs
  · rw [decide_eq_false hs, if_neg Bool.false_ne_true]
    exact iff_of_false Bool.false_ne_true hs

theorem connected_iff (h : Inv v) (free : ∀ x ∈ v.emissions, s ∉ x.held) :
    v.connected s = true ↔ s ∈ order v.groups ∧ orphan v s = false := by
  unfold SignalBase.connected
  rw [alive_of_free free, Bool.and_eq_true, decide_eq_true_eq]
  refine and_congr_right fun hs => ?_
  obtain ⟨-, -, slot, hslot, -⟩ := h.ordered.stored hs
  rw [gone_iff hslot, hslot]
  simp [h.live s hs slot hslot]

/-- In every run: `disconnect` by callable, object or group returns the number of slots it takes
    from the signal. However a slot was removed, its connection then says so: outside an emission
    that holds the slot, `connected` is true only of a slot the signal has, and `disconnect` on
    the connection returns true just then. -/
theorem results_tell (ops : List (Op K A)) :
    (∀ cond, ((run ops).removeIf cond).1.slotCount + ((run ops).removeIf cond).2 =
      (run ops).slotCount) ∧
    (∀ gid, ((run ops).removeGroup gid).1.slotCount + ((run ops).removeGroup gid).2 =
      (run ops).slotCount) ∧
    ∀ s, (∀ x ∈ (run ops).emissions, s ∉ x.held) →
      (((run ops).disconnect s).2 = true ↔ s ∈ order (run ops).groups) ∧
      ((run ops).connected s = true ↔ s ∈ order (run ops).groups ∧ orphan (run ops) s = false) :=
  have h := run_inv ops
  ⟨removeIf_count h, removeGroup_count h,
    fun _ free => ⟨disconnect_returns h free, connected_iff h free⟩⟩

end Results

end QuailServer.SigslotRuns
