import Mathlib.Data.List.Flatten
import Mathlib.Data.List.Nodup
import QuailServer.Sigslot

set_option autoImplicit false

namespace QuailServer.SigslotInvariant
open Sigslot SwapRemove

section Indices
variable {K : Type} {slots slots' slots'' : List (SlotBase K)} {g : GroupType} {s i : ℕ}
  {p q : Int → Prop}

/-- Nothing but indices has changed, and those only of slots in the groups `p`. -/
def Reindexed (p : Int → Prop) (slots slots' : List (SlotBase K)) : Prop :=
  slots'.length = slots.length ∧ ∀ (s : SlotId) slot, slots[s]? = some slot →
    ∃ index, slots'[s]? = some { slot with index := index } ∧ (p slot.group ∨ index = slot.index)

theorem Reindexed.rfl : Reindexed p slots slots :=
  ⟨Eq.refl _, fun _ slot hs => ⟨slot.index, hs, .inr (Eq.refl _)⟩⟩

theorem Reindexed.trans (first : Reindexed p slots slots') (second : Reindexed p slots' slots'') :
    Reindexed p slots slots'' := by
  refine ⟨second.1.trans first.1, fun s slot hs => ?_⟩
  obtain ⟨k, hk, hkeep⟩ := first.2 s slot hs
  obtain ⟨m, hm, hkeep'⟩ := second.2 s _ hk
  refine ⟨m, hm, ?_⟩
  obtain hp | hk' := hkeep
  · exact .inl hp
  · exact hkeep'.imp_right fun hm' => hm'.trans hk'

theorem Reindexed.mono (h : Reindexed p slots slots') (weaker : ∀ gid, p gid → q gid) :
    Reindexed q slots slots' := by
  refine ⟨h.1, fun s slot hs => ?_⟩
  obtain ⟨k, hk, hkeep⟩ := h.2 s slot hs
  exact ⟨k, hk, hkeep.imp_left (weaker _)⟩

def Placed (slots : List (SlotBase K)) (g : GroupType) : Prop :=
  ∀ (i : ℕ) s, g.slts[i]? = some s → ∃ slot, slots[s]? = some slot ∧ slot.index = i ∧ slot.group = g.gid

theorem Placed.reindexed (placed : Placed slots g) (h : Reindexed p slots slots')
    (other : ¬ p g.gid) : Placed slots' g := by
  intro i s hs
  obtain ⟨slot, hslot, hindex, hgroup⟩ := placed i s hs
  obtain ⟨k, hk, hkeep⟩ := h.2 s slot hslot
  obtain hp | hsame := hkeep
  · exact absurd (hgroup ▸ hp) other
  · exact ⟨_, hk, hsame.trans hindex, hgroup⟩

theorem Placed.index_unique (placed : Placed slots g) {j : ℕ} (hi : g.slts[i]? = some s)
    (hj : g.slts[j]? = some s) : i = j := by
  obtain ⟨slot, hslot, hindex, -⟩ := placed i s hi
  obtain ⟨slot', hslot', hindex', -⟩ := placed j s hj
  obtain rfl : slot = slot' := Option.some.inj (hslot.symm.trans hslot')
  exact hindex.symm.trans hindex'

theorem Placed.nodup (placed : Placed slots g) : g.slts.Nodup := by
  rw [List.nodup_iff_getElem?_ne_getElem?]
  intro i j hij hj heq
  have hs : g.slts[j]? = some g.slts[j] := List.getElem?_eq_getElem hj
  exact absurd (placed.index_unique (heq.trans hs) hs) (Nat.ne_of_lt hij)

theorem reindexed_modify (found : slots[s]?.all fun slot => slot.group = g.gid) :
    Reindexed (· = g.gid) slots (slots.modify s ({ · with index := i })) := by
  refine ⟨List.length_modify .., fun t slot ht => ?_⟩
  rw [List.getElem?_modify, ht]
  by_cases hst : s = t
  · subst hst
    rw [ht] at found
    exact ⟨i, by simp, .inl (by simpa using found)⟩
  · exact ⟨slot.index, by simp [hst], .inr rfl⟩

/-- The slot that moves into the hole is told its new index; no other slot of the group moves. -/
theorem dropSlot_placed (placed : Placed slots g) (found : g.slts[i]? = some s) :
    g.slts.Perm (s :: (dropSlot i g.slts slots).1) ∧
    Reindexed (· = g.gid) slots (dropSlot i g.slts slots).2 ∧
    Placed (dropSlot i g.slts slots).2 ⟨(dropSlot i g.slts slots).1, g.gid⟩ := by
  have hlen : i < g.slts.length := (List.getElem?_eq_some_iff.mp found).1
  obtain ⟨last, hlast⟩ : ∃ last, g.slts.getLast? = some last := by
    cases h : g.slts.getLast? with
    | some last => exact ⟨last, rfl⟩
    | none =>
      rw [List.getLast?_eq_none_iff] at h
      rw [h] at hlen
      exact absurd hlen (Nat.not_lt_zero _)
  have hat : g.slts[g.slts.length - 1]? = some last := by
    rw [← List.getLast?_eq_getElem?]
    exact hlast
  have hdrop : dropSlot i g.slts slots =
      (swapRemove g.slts i, slots.modify last ({ · with index := i })) := by
    unfold dropSlot
    rw [hlast]
  rw [hdrop]
  obtain ⟨lastSlot, hslot, hindex, hgroup⟩ := placed _ _ hat
  refine ⟨swapRemove_perm found, reindexed_modify (by rw [hslot]; simpa using hgroup), ?_⟩
  intro j t ht
  have hshort := swapRemove_length hlen
  have hj : j < (swapRemove g.slts i).length := (List.getElem?_eq_some_iff.mp ht).1
  obtain ⟨hji, hold⟩ | ⟨rfl, hmoved⟩ := swapRemove_getElem? ht
  · obtain ⟨slot, hs, hindex', hgroup'⟩ := placed j t hold
    have hne : last ≠ t := by
      rintro rfl
      have := placed.index_unique hat hold
      omega
    exact ⟨slot, by rw [List.getElem?_modify, hs]; simp [hne], hindex', hgroup'⟩
  · obtain rfl : last = t := Option.some.inj (hlast.symm.trans hmoved)
    exact ⟨{ lastSlot with index := j }, by rw [List.getElem?_modify, hslot]; simp, rfl, hgroup⟩

end Indices

section Groups
variable {K : Type} {slots slots' : List (SlotBase K)} {g : GroupType} {groups groups' : List GroupType}
  {s i : ℕ} {gid : Int} {p : Int → Prop}

structure Ordered (slots : List (SlotBase K)) (groups : List GroupType) : Prop where
  ascending : groups.Pairwise fun g g' => g.gid < g'.gid
  placed : ∀ g ∈ groups, Placed slots g

theorem mem_order : s ∈ order groups ↔ ∃ g ∈ groups, s ∈ g.slts := List.mem_flatMap

@[simp] theorem order_cons : order (g :: groups) = g.slts ++ order groups := List.flatMap_cons

theorem Ordered.tail (h : Ordered slots (g :: groups)) : Ordered slots groups :=
  ⟨h.ascending.of_cons, fun g' hg' => h.placed g' (List.mem_cons_of_mem g hg')⟩

theorem Ordered.group_lt (h : Ordered slots (g :: groups)) {g' : GroupType} (hg' : g' ∈ groups) :
    g.gid < g'.gid := List.rel_of_pairwise_cons h.ascending hg'

theorem Ordered.stored (h : Ordered slots groups) (hs : s ∈ order groups) :
    ∃ g ∈ groups, ∃ slot, slots[s]? = some slot ∧ g.slts[slot.index]? = some s ∧
      slot.group = g.gid := by
  obtain ⟨g, hg, hmem⟩ := mem_order.mp hs
  obtain ⟨i, hi⟩ := List.mem_iff_getElem?.mp hmem
  obtain ⟨slot, hslot, rfl, hgroup⟩ := h.placed g hg i s hi
  exact ⟨g, hg, slot, hslot, hi, hgroup⟩

theorem Ordered.not_both (h : Ordered slots (g :: groups)) (hs : s ∈ g.slts) : s ∉ order groups := by
  intro hrest
  obtain ⟨g', hg', slot, hslot, -, hgroup⟩ := h.tail.stored hrest
  obtain ⟨i, hi⟩ := List.mem_iff_getElem?.mp hs
  obtain ⟨slot', hslot', -, hgroup'⟩ := h.placed g List.mem_cons_self i s hi
  obtain rfl : slot = slot' := Option.some.inj (hslot.symm.trans hslot')
  have hlt := h.group_lt hg'
  rw [← hgroup, ← hgroup'] at hlt
  exact Int.lt_irrefl _ hlt

theorem Ordered.nodup (h : Ordered slots groups) : (order groups).Nodup := by
  induction groups with
  | nil => exact List.nodup_nil
  | cons g groups ih =>
    rw [order_cons, List.nodup_append]
    refine ⟨(h.placed g List.mem_cons_self).nodup, ih h.tail, ?_⟩
    rintro s hs t ht rfl
    exact h.not_both hs ht

def GroupLE (slots : List (SlotBase K)) (s t : SlotId) : Prop :=
  ∀ slot slot', slots[s]? = some slot → slots[t]? = some slot' → slot.group ≤ slot'.group

theorem Ordered.group_of_mem (h : Ordered slots (g :: groups)) (hs : s ∈ g.slts) :
    ∃ slot, slots[s]? = some slot ∧ slot.group = g.gid := by
  obtain ⟨i, hi⟩ := List.mem_iff_getElem?.mp hs
  obtain ⟨slot, hslot, -, hgroup⟩ := h.placed g List.mem_cons_self i s hi
  exact ⟨slot, hslot, hgroup⟩

theorem Ordered.groups_ascend (h : Ordered slots groups) :
    (order groups).Pairwise (GroupLE slots) := by
  induction groups with
  | nil => exact List.Pairwise.nil
  | cons g groups ih =>
    rw [order_cons, List.pairwise_append]
    refine ⟨?_, ih h.tail, ?_⟩
    · refine List.pairwise_of_forall_mem_list fun s hs t ht slot slot' hslot hslot' => ?_
      obtain ⟨old, hold, hgroup⟩ := h.group_of_mem hs
      obtain ⟨old', hold', hgroup'⟩ := h.group_of_mem ht
      obtain rfl : old = slot := Option.some.inj (hold.symm.trans hslot)
      obtain rfl : old' = slot' := Option.some.inj (hold'.symm.trans hslot')
      exact Int.le_of_eq (hgroup.trans hgroup'.symm)
    · intro s hs t ht slot slot' hslot hslot'
      obtain ⟨old, hold, hgroup⟩ := h.group_of_mem hs
      obtain ⟨g', hg', old', hold', -, hgroup'⟩ := h.tail.stored ht
      obtain rfl : old = slot := Option.some.inj (hold.symm.trans hslot)
      obtain rfl : old' = slot' := Option.some.inj (hold'.symm.trans hslot')
      rw [hgroup, hgroup']
      exact Int.le_of_lt (h.group_lt hg')

theorem Ordered.cons (h : Ordered slots groups) (placed : Placed slots g)
    (first : ∀ g' ∈ groups, g.gid < g'.gid) : Ordered slots (g :: groups) :=
  ⟨List.pairwise_cons.mpr ⟨first, h.ascending⟩, List.forall_mem_cons.mpr ⟨placed, h.placed⟩⟩

theorem Ordered.reindexed (h : Ordered slots groups) (moved : Reindexed p slots slots')
    (other : ∀ g ∈ groups, ¬ p g.gid) : Ordered slots' groups :=
  ⟨h.ascending, fun g hg => (h.placed g hg).reindexed moved (other g hg)⟩

theorem first_of_gids (same : groups'.map GroupType.gid = groups.map GroupType.gid)
    (first : ∀ g' ∈ groups, gid < g'.gid) : ∀ g' ∈ groups', gid < g'.gid := by
  intro g' hg'
  have hmem : g'.gid ∈ groups.map GroupType.gid := same ▸ List.mem_map_of_mem hg'
  obtain ⟨g, hg, heq⟩ := List.mem_map.mp hmem
  exact heq ▸ first g hg

end Groups

section Removals
variable {K : Type} {slots slots' slots'' : List (SlotBase K)} {g : GroupType}
  {groups groups' : List GroupType} {slts : List SlotId} {s i : ℕ} {gid : Int}
  {keep cond : SlotId → Bool}

/-- Exactly the slots of `keep` are left, and the groups stay in order. -/
structure Kept (keep : SlotId → Bool) (slots : List (SlotBase K)) (groups : List GroupType)
    (slots' : List (SlotBase K)) (groups' : List GroupType) : Prop where
  ordered : Ordered slots' groups'
  reindexed : Reindexed (· ∈ groups.map GroupType.gid) slots slots'
  gids : groups'.map GroupType.gid = groups.map GroupType.gid
  order : (order groups').Perm ((order groups).filter keep)

theorem Ordered.gid_not_mem (h : Ordered slots (g :: groups)) : g.gid ∉ groups.map GroupType.gid := by
  intro hmem
  obtain ⟨g', hg', heq⟩ := List.mem_map.mp hmem
  exact Int.lt_irrefl _ (heq ▸ h.group_lt hg')

theorem Ordered.rest_reindexed (h : Ordered slots (g :: groups))
    (moved : Reindexed (· = g.gid) slots slots') : Ordered slots' groups :=
  h.tail.reindexed moved fun _ hg' heq => Int.ne_of_gt (h.group_lt hg') heq

theorem Kept.refl (h : Ordered slots groups) (all : ∀ s ∈ Sigslot.order groups, keep s = true) :
    Kept keep slots groups slots groups :=
  ⟨h, .rfl, rfl, by rw [List.filter_eq_self.mpr all]⟩

theorem Kept.cons (h : Ordered slots (g :: groups)) (head : slts.Perm (g.slts.filter keep))
    (placed : Placed slots' ⟨slts, g.gid⟩) (moved : Reindexed (· = g.gid) slots slots')
    (rest : Kept keep slots' groups slots'' groups') :
    Kept keep slots (g :: groups) slots'' (⟨slts, g.gid⟩ :: groups') where
  ordered := rest.ordered.cons (placed.reindexed rest.reindexed h.gid_not_mem)
    (first_of_gids rest.gids fun _ hg' => h.group_lt hg')
  reindexed := (moved.mono fun _ hgid => by simp [hgid]).trans
    (rest.reindexed.mono fun _ hgid => List.mem_cons_of_mem _ hgid)
  gids := by rw [List.map_cons, List.map_cons, rest.gids]
  order := by
    rw [order_cons, order_cons, List.filter_append]
    exact head.append rest.order

theorem filter_ne_of_not_mem {xs : List SlotId} (hs : s ∉ xs) : xs.filter (· ≠ s) = xs :=
  List.filter_eq_self.mpr fun t ht => by
    have hts : t ≠ s := by
      rintro rfl
      exact hs ht
    simpa using hts

theorem filter_ne_perm {xs ys : List SlotId} (nodup : xs.Nodup) (h : xs.Perm (s :: ys)) :
    ys.Perm (xs.filter (· ≠ s)) := by
  have hs : s ∉ ys := (List.nodup_cons.mp (h.nodup_iff.mp nodup)).1
  have hfilter := h.filter (· ≠ s)
  rw [List.filter_cons_of_neg (by simp), filter_ne_of_not_mem hs] at hfilter
  exact hfilter.symm

/-- `clean` finds the slot where its state says it is, if the signal still has it, and touches
    nothing else. -/
theorem clean_kept (h : Ordered slots groups) {slot : SlotBase K} (found : slots[s]? = some slot) :
    Kept (· ≠ s) slots groups (clean s slot.index slot.group groups slots).2
      (clean s slot.index slot.group groups slots).1 := by
  induction groups with
  | nil => exact .refl h (by simp [order])
  | cons g groups ih =>
    have hplaced := h.placed g List.mem_cons_self
    unfold clean
    split
    · rename_i hgid
      split
      · rename_i hat
        obtain ⟨hperm, hmoved, hdrop⟩ := dropSlot_placed hplaced hat
        have hrest : ∀ t ∈ order groups, decide (t ≠ s) = true := by
          intro t ht
          have hs := h.not_both (List.mem_of_getElem? hat)
          have hts : t ≠ s := by
            rintro rfl
            exact hs ht
          simpa using hts
        exact .cons h (filter_ne_perm hplaced.nodup hperm) hdrop hmoved
          (.refl (h.rest_reindexed hmoved) hrest)
      · rename_i hat
        refine .refl h fun t ht => ?_
        have hts : t ≠ s := by
          rintro rfl
          obtain ⟨g', hg', slot', hslot', hat', hgroup'⟩ := h.stored ht
          obtain rfl : slot = slot' := Option.some.inj (found.symm.trans hslot')
          obtain rfl | hg' := List.mem_cons.mp hg'
          · exact hat hat'
          · have hlt := h.group_lt hg'
            rw [← hgroup', hgid] at hlt
            exact Int.lt_irrefl _ hlt
        simpa using hts
    · rename_i hgid
      have hs : s ∉ g.slts := by
        intro hmem
        obtain ⟨i, hi⟩ := List.mem_iff_getElem?.mp hmem
        obtain ⟨slot', hslot', -, hgroup'⟩ := hplaced i s hi
        obtain rfl : slot = slot' := Option.some.inj (found.symm.trans hslot')
        exact hgid hgroup'.symm
      refine .cons h ?_ hplaced .rfl (ih h.tail)
      rw [filter_ne_of_not_mem hs]

theorem nothing_to_remove (before : ∀ j < i, ∀ s, slts[j]? = some s → cond s = false)
    (finished : slts.length ≤ i) :
    slts.Perm (slts.filter (!cond ·)) ∧ 0 = slts.countP cond := by
  have hall : ∀ s ∈ slts, cond s = false := by
    intro s hs
    obtain ⟨j, hj⟩ := List.mem_iff_getElem?.mp hs
    have hlt : j < slts.length := (List.getElem?_eq_some_iff.mp hj).1
    exact before j (by omega) s hj
  refine ⟨?_, (List.countP_eq_zero.mpr fun s hs => by simp [hall s hs]).symm⟩
  rw [List.filter_eq_self.mpr fun s hs => by simp [hall s hs]]

/-- A turn of the loop leaves the slots before `i` alone, all of which are to stay. -/
theorem disconnectIfLoop_kept (cond : SlotId → Bool) (n i : ℕ) (placed : Placed slots ⟨slts, gid⟩)
    (before : ∀ j < i, ∀ s, slts[j]? = some s → cond s = false) (enough : slts.length ≤ i + n) :
    (disconnectIfLoop cond n i slts slots).1.Perm (slts.filter (!cond ·)) ∧
    Reindexed (· = gid) slots (disconnectIfLoop cond n i slts slots).2.1 ∧
    Placed (disconnectIfLoop cond n i slts slots).2.1 ⟨(disconnectIfLoop cond n i slts slots).1, gid⟩ ∧
    (disconnectIfLoop cond n i slts slots).2.2 = slts.countP cond := by
  induction n generalizing i slts slots with
  | zero =>
    obtain ⟨hperm, hcount⟩ := nothing_to_remove before (by omega)
    exact ⟨hperm, .rfl, placed, hcount⟩
  | succ n ih =>
    unfold disconnectIfLoop
    cases hat : slts[i]? with
    | none =>
      obtain ⟨hperm, hcount⟩ := nothing_to_remove before (List.getElem?_eq_none_iff.mp hat)
      exact ⟨hperm, .rfl, placed, hcount⟩
    | some s =>
      cases hcond : cond s with
      | false =>
        simp only [hcond, Bool.false_eq_true, if_false]
        refine ih (i + 1) placed (fun j hj t ht => ?_) (by omega)
        obtain hlt | rfl := Nat.lt_succ_iff_lt_or_eq.mp hj
        · exact before j hlt t ht
        · obtain rfl : s = t := Option.some.inj (hat.symm.trans ht)
          exact hcond
      | true =>
        simp only [hcond, if_true]
        obtain ⟨hperm, hmoved, hplaced⟩ := dropSlot_placed placed hat
        have hsame : (dropSlot i slts slots).1 = swapRemove slts i := by
          unfold dropSlot
          split
          · rfl
          · rename_i hnil
            rw [List.getLast?_eq_none_iff.mp hnil] at hat
            cases hat
        have hlen : slts.length = (dropSlot i slts slots).1.length + 1 := hperm.length_eq
        obtain ⟨hfilter, hmoved', hplaced', hcount⟩ := ih i
          (show Placed _ ⟨(dropSlot i slts slots).1, gid⟩ from hplaced) (fun j hj t ht => by
          rw [hsame] at ht
          obtain ⟨-, hold⟩ | ⟨hji, -⟩ := swapRemove_getElem? ht
          · exact before j hj t hold
          · omega) (by omega)
        have hleft := hperm.filter (!cond ·)
        rw [List.filter_cons_of_neg (by simp [hcond])] at hleft
        have hremoved := hperm.countP_eq cond
        rw [List.countP_cons_of_pos hcond] at hremoved
        exact ⟨hfilter.trans hleft.symm, hmoved.trans hmoved', hplaced', by rw [hremoved, hcount]⟩

theorem disconnectIf_kept (cond : SlotId → Bool) (h : Ordered slots groups) :
    Kept (!cond ·) slots groups (disconnectIf cond groups slots).2.1 (disconnectIf cond groups slots).1 ∧
    (disconnectIf cond groups slots).2.2 = (order groups).countP cond := by
  induction groups generalizing slots with
  | nil => exact ⟨.refl h (by simp [order]), rfl⟩
  | cons g groups ih =>
    obtain ⟨hhead, hmoved, hplaced, hcount⟩ := disconnectIfLoop_kept cond
      g.slts.length 0 (h.placed g List.mem_cons_self) (fun j hj => absurd hj (Nat.not_lt_zero j))
      (by omega)
    obtain ⟨hrest, hcount'⟩ := ih (h.rest_reindexed hmoved)
    unfold disconnectIf
    refine ⟨.cons h hhead hplaced hmoved hrest, ?_⟩
    rw [order_cons, List.countP_append, ← hcount, ← hcount']

theorem clearGroup_kept (gid : Int) (keep : SlotId → Bool) (h : Ordered slots groups)
    (other : ∀ (s : SlotId) slot, slots[s]? = some slot → keep s = decide (slot.group ≠ gid)) :
    Kept keep slots groups slots (clearGroup gid groups).1 ∧
    (clearGroup gid groups).2 = (order groups).countP (!keep ·) := by
  induction groups with
  | nil => exact ⟨.refl h (by simp [order]), rfl⟩
  | cons g groups ih =>
    have hhead : ∀ s ∈ g.slts, keep s = decide (g.gid ≠ gid) := by
      intro s hs
      obtain ⟨slot, hslot, hgroup⟩ := h.group_of_mem hs
      rw [other s slot hslot, hgroup]
    unfold clearGroup
    split
    · rename_i hgid
      have hrest : ∀ s ∈ order groups, keep s = true := by
        intro s hs
        obtain ⟨g', hg', slot, hslot, -, hgroup⟩ := h.tail.stored hs
        have hlt := h.group_lt hg'
        rw [other s slot hslot, hgroup]
        exact decide_eq_true (by omega)
      have hgone : ∀ s ∈ g.slts, keep s = false := by
        intro s hs
        rw [hhead s hs]
        exact decide_eq_false (not_not_intro hgid)
      have hnone : g.slts.filter keep = [] :=
        List.filter_eq_nil_iff.mpr fun s hs => by simp [hgone s hs]
      have hall : g.slts.countP (!keep ·) = g.slts.length :=
        List.countP_eq_length.mpr fun s hs => by simp [hgone s hs]
      have hzero : (order groups).countP (!keep ·) = 0 :=
        List.countP_eq_zero.mpr fun s hs => by simp [hrest s hs]
      refine ⟨.cons h (by rw [hnone]) ?_ .rfl (.refl h.tail hrest), ?_⟩
      · intro i s hs
        simp at hs
      · rw [order_cons, List.countP_append, hall, hzero, Nat.add_zero]
    · rename_i hgid
      obtain ⟨hrest, hcount⟩ := ih h.tail
      have hall : ∀ s ∈ g.slts, keep s = true := by
        intro s hs
        rw [hhead s hs]
        exact decide_eq_true hgid
      have hzero : g.slts.countP (!keep ·) = 0 :=
        List.countP_eq_zero.mpr fun s hs => by simp [hall s hs]
      refine ⟨.cons h (by rw [List.filter_eq_self.mpr hall]) (h.placed g List.mem_cons_self) .rfl hrest, ?_⟩
      rw [order_cons, List.countP_append, hzero, Nat.zero_add]
      exact hcount

end Removals

section Additions
variable {K : Type} {slots : List (SlotBase K)} {slot : SlotBase K} {g : GroupType}
  {groups : List GroupType} {s i : ℕ} {gid : Int}

theorem Placed.append (placed : Placed slots g) : Placed (slots ++ [slot]) g := by
  intro i s hs
  obtain ⟨old, hold, hrest⟩ := placed i s hs
  exact ⟨old, by rw [List.getElem?_append_left (List.getElem?_eq_some_iff.mp hold).1, hold], hrest⟩

theorem Ordered.append (h : Ordered slots groups) : Ordered (slots ++ [slot]) groups :=
  ⟨h.ascending, fun g hg => (h.placed g hg).append⟩

theorem Placed.modify (placed : Placed slots g) {f : SlotBase K → SlotBase K}
    (same : ∀ slot, (f slot).index = slot.index ∧ (f slot).group = slot.group) :
    Placed (slots.modify s f) g := by
  intro i t ht
  obtain ⟨slot, hslot, hindex, hgroup⟩ := placed i t ht
  rw [List.getElem?_modify, hslot]
  by_cases hst : s = t
  · exact ⟨f slot, by simp [hst], (same slot).1.trans hindex, (same slot).2.trans hgroup⟩
  · exact ⟨slot, by simp [hst], hindex, hgroup⟩

theorem Ordered.modify (h : Ordered slots groups) {f : SlotBase K → SlotBase K}
    (same : ∀ slot, (f slot).index = slot.index ∧ (f slot).group = slot.group) :
    Ordered (slots.modify s f) groups :=
  ⟨h.ascending, fun g hg => (h.placed g hg).modify same⟩

theorem addSlot_order : (order (addSlot s gid groups).1).Perm (s :: order groups) := by
  induction groups with
  | nil => exact List.Perm.refl _
  | cons g groups ih =>
    unfold addSlot
    split
    · calc (order (g :: (addSlot s gid groups).1)).Perm (g.slts ++ s :: order groups) := by
            rw [order_cons]
            exact ih.append_left g.slts
        _ |>.Perm (s :: order (g :: groups)) := by
            rw [order_cons]
            exact List.perm_middle
    · split
      · exact List.Perm.refl _
      · rw [order_cons, order_cons, List.append_assoc]
        exact List.perm_middle

theorem addSlot_gid (hg : g ∈ (addSlot s gid groups).1) :
    g.gid = gid ∨ ∃ g' ∈ groups, g.gid = g'.gid := by
  induction groups with
  | nil => exact .inl (by simpa [addSlot] using congrArg GroupType.gid (List.mem_singleton.mp hg))
  | cons g' groups ih =>
    unfold addSlot at hg
    split at hg
    · obtain rfl | hg := List.mem_cons.mp hg
      · exact .inr ⟨g, List.mem_cons_self, rfl⟩
      · obtain h | ⟨g'', hg'', h⟩ := ih hg
        · exact .inl h
        · exact .inr ⟨g'', List.mem_cons_of_mem _ hg'', h⟩
    · split at hg
      · obtain rfl | hg := List.mem_cons.mp hg
        · exact .inl rfl
        · exact .inr ⟨g, hg, rfl⟩
      · obtain rfl | hg := List.mem_cons.mp hg
        · exact .inr ⟨g', List.mem_cons_self, rfl⟩
        · exact .inr ⟨g, List.mem_cons_of_mem _ hg, rfl⟩

theorem addSlot_ordered (h : Ordered slots groups) (made : slots[s]? = some slot)
    (group : slot.group = gid) (index : slot.index = (addSlot s gid groups).2) :
    Ordered slots (addSlot s gid groups).1 := by
  have single (hzero : slot.index = 0) : Placed slots ⟨[s], gid⟩ := by
    intro i t ht
    obtain ⟨hi, heq⟩ := List.getElem?_eq_some_iff.mp ht
    obtain rfl : i = 0 := by simpa using hi
    obtain rfl : s = t := heq
    exact ⟨slot, made, hzero, group⟩
  induction groups with
  | nil => exact h.cons (single index) (by simp)
  | cons g groups ih =>
    by_cases hlt : g.gid < gid
    · have hadd : addSlot s gid (g :: groups) =
          (g :: (addSlot s gid groups).1, (addSlot s gid groups).2) := by
        rw [addSlot, if_pos hlt]
      rw [hadd] at index ⊢
      refine (ih h.tail index).cons (h.placed g List.mem_cons_self) fun g' hg' => ?_
      obtain heq | ⟨g'', hg'', heq⟩ := addSlot_gid hg'
      · exact heq ▸ hlt
      · exact heq ▸ h.group_lt hg''
    · by_cases hgid : g.gid = gid
      · have hadd : addSlot s gid (g :: groups) =
            (⟨g.slts ++ [s], g.gid⟩ :: groups, g.slts.length) := by
          rw [addSlot, if_neg hlt, if_neg (not_not_intro hgid)]
        rw [hadd] at index ⊢
        refine h.tail.cons ?_ fun g' hg' => h.group_lt hg'
        intro i t ht
        rw [List.getElem?_append] at ht
        split at ht
        · exact h.placed g List.mem_cons_self i t ht
        · obtain ⟨hi, hst⟩ := List.getElem?_eq_some_iff.mp ht
          rw [List.length_singleton] at hi
          obtain rfl : s = t := by simpa using hst
          exact ⟨slot, made, by rw [index]; omega, group.trans hgid.symm⟩
      · have hadd : addSlot s gid (g :: groups) = (⟨[s], gid⟩ :: g :: groups, 0) := by
          rw [addSlot, if_neg hlt, if_pos hgid]
        rw [hadd] at index ⊢
        refine h.cons (single index) fun g' hg' => ?_
        have hfirst : gid < g.gid := by omega
        obtain rfl | hg' := List.mem_cons.mp hg'
        · exact hfirst
        · exact Int.lt_trans hfirst (h.group_lt hg')

end Additions

end QuailServer.SigslotInvariant
