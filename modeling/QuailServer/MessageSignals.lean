import QuailServer.SigslotRuns
import QuailServer.WebTransportServer

set_option autoImplicit false

namespace QuailServer.MessageSignals
open Sigslot SigslotInvariant SigslotSteps SigslotRuns WebTransportServer HeaderBlock WebTransport

section Connects
variable {K A : Type}

/-- A signal that has been connected to, in the group 0 of every slot without another. -/
def connects (callables : List K) : List (Op K A) := callables.map fun c => .connect c none 0

/-- `operator()` without interruption: one turn for each slot and one that ends the loops. -/
def emission (args : A) (n : ℕ) : List (Op K A) := .emit args :: List.replicate (n + 1) (.advance 0)

def delivered (v : SignalBase K A) (e : ℕ) : List (K × A) :=
  v.calls.filterMap fun call =>
    if call.emission = e then v.slots[call.slot]?.map fun slot => (slot.callable, call.args) else none

structure Connected (callables : List K) (v : SignalBase K A) : Prop where
  slots : v.slots = callables.mapIdx fun i c => ⟨c, none, i, 0, true, false⟩
  order : order v.groups = List.range callables.length
  gids : ∀ g ∈ v.groups, g.gid = 0
  block : v.block = false
  emissions : v.emissions = []
  calls : v.calls = []
  expired : v.expired = []

theorem addSlot_zero {groups : List GroupType} (gids : ∀ g ∈ groups, g.gid = 0)
    (ascending : groups.Pairwise fun g g' => g.gid < g'.gid) (s : SlotId) :
    order (addSlot s 0 groups).1 = order groups ++ [s] ∧
    (addSlot s 0 groups).2 = (order groups).length ∧ ∀ g ∈ (addSlot s 0 groups).1, g.gid = 0 := by
  cases groups with
  | nil => exact ⟨rfl, rfl, by simp [addSlot]⟩
  | cons g groups =>
    have hg : g.gid = 0 := gids g List.mem_cons_self
    have hnil : groups = [] := by
      cases groups with
      | nil => rfl
      | cons g' groups =>
        have hlt := List.rel_of_pairwise_cons ascending (List.mem_cons_self (a := g'))
        rw [hg, gids g' (by simp)] at hlt
        exact absurd hlt (Int.lt_irrefl 0)
    subst hnil
    have hadd : addSlot s 0 [g] = ([⟨g.slts ++ [s], g.gid⟩], g.slts.length) := by
      simp [addSlot, hg]
    rw [hadd]
    exact ⟨by simp [order], by simp [order], by simp [hg]⟩

theorem connected_connects (callables : List K) :
    Connected callables (run (connects callables) : SignalBase K A) := by
  induction callables using List.reverseRecOn with
  | nil => exact ⟨rfl, rfl, by simp [run, connects, SignalBase.new], rfl, rfl, rfl, rfl⟩
  | append_singleton callables c ih =>
    have hrun : (run (connects (callables ++ [c])) : SignalBase K A) =
        (run (connects callables)).connect c none 0 := by
      unfold connects
      rw [List.map_append, List.map_singleton, run_concat]
      rfl
    have hlength : (run (connects callables) : SignalBase K A).slots.length = callables.length := by
      rw [ih.slots, List.length_mapIdx]
    obtain ⟨horder, hindex, hgids⟩ := addSlot_zero ih.gids (run_inv _).ordered.ascending
      (run (connects callables) : SignalBase K A).slots.length
    rw [hrun]
    refine ⟨?_, ?_, hgids, ih.block, ih.emissions, ih.calls, ih.expired⟩
    · unfold SignalBase.connect
      simp only
      rw [hindex, ih.order, List.length_range, ih.slots, List.mapIdx_append]
      simp
    · unfold SignalBase.connect
      simp only
      rw [horder, ih.order, hlength, List.length_append, List.length_singleton, List.range_succ]

def turned (args : A) (n k : ℕ) (v : SignalBase K A) : SignalBase K A :=
  { v with
    emissions := [⟨args, List.range n, (List.range n).drop k⟩]
    calls := (List.range k).map fun s => ⟨0, s, args⟩ }

theorem turned_next {callables : List K} {v : SignalBase K A} (h : Connected callables v) (args : A)
    {k : ℕ} (hk : k < callables.length) :
    (turned args callables.length k v).advance 0 = turned args callables.length (k + 1) v := by
  have hdrop : (List.range callables.length).drop k = k :: (List.range callables.length).drop (k + 1) := by
    rw [List.drop_eq_getElem_cons (by rwa [List.length_range]), List.getElem_range]
  have hslot : v.slots[k]? = some ⟨callables[k], none, k, 0, true, false⟩ := by
    rw [h.slots, List.getElem?_mapIdx, List.getElem?_eq_getElem hk]
    rfl
  unfold SignalBase.advance turned
  simp only [hdrop, List.getElem?_cons_zero]
  unfold SignalBase.callSlot
  simp only [hslot, SignalBase.gone, Option.any_none, List.set_cons_zero, List.range_succ,
    List.map_append, List.map_cons, List.map_nil]
  rfl

theorem turned_run {callables : List K} {v : SignalBase K A} (h : Connected callables v) (args : A)
    (k : ℕ) (hk : k ≤ callables.length) :
    StepMachine.after step (v.emit args) (List.replicate k (.advance 0)) =
      turned args callables.length k v := by
  induction k with
  | zero =>
    rw [List.replicate_zero, StepMachine.after_nil]
    unfold SignalBase.emit turned
    rw [h.block, h.emissions, h.calls, h.order]
    rfl
  | succ k ih =>
    rw [List.replicate_succ', StepMachine.after_concat, ih (by omega)]
    exact turned_next h args (by omega)

theorem emission_run {callables : List K} {v : SignalBase K A} (h : Connected callables v) (args : A) :
    StepMachine.after step v (emission args callables.length) =
      { v with
        emissions := [⟨args, [], []⟩]
        calls := (List.range callables.length).map fun s => ⟨0, s, args⟩ } := by
  unfold emission
  rw [StepMachine.after_cons, List.replicate_succ', StepMachine.after_concat]
  change step (StepMachine.after step (v.emit args) _) _ = _
  rw [turned_run h args _ (Nat.le_refl _)]
  have hdrop : (List.range callables.length).drop callables.length = [] :=
    List.drop_eq_nil_of_le (by rw [List.length_range])
  change (turned args callables.length callables.length v).advance 0 = _
  unfold SignalBase.advance turned
  simp only [hdrop, List.getElem?_cons_zero, List.set_cons_zero]

theorem range_filterMap {B C : Type} (xs : List B) (f : B → C) :
    (List.range xs.length).filterMap (fun i => xs[i]?.map f) = xs.map f := by
  induction xs using List.reverseRecOn with
  | nil => rfl
  | append_singleton xs x ih =>
    have hfirst : (List.range xs.length).filterMap (fun i => (xs ++ [x])[i]?.map f) =
        (List.range xs.length).filterMap fun i => xs[i]?.map f :=
      List.filterMap_congr fun i hi => by
        rw [List.getElem?_append_left (List.mem_range.mp hi)]
    rw [List.length_append, List.length_singleton, List.range_succ, List.filterMap_append, hfirst, ih]
    simp

/-- A signal that has only been connected to delivers to all its callables, in the order in which
    they were connected. -/
theorem delivered_in_order (callables : List K) (args : A) :
    delivered (run (connects callables ++ emission args callables.length)) 0 =
      callables.map fun c => (c, args) := by
  have h := connected_connects (A := A) callables
  rw [run_append, emission_run h args]
  unfold delivered
  simp only [h.slots]
  rw [List.filterMap_map, ← range_filterMap]
  refine List.filterMap_congr fun i _ => ?_
  simp only [Function.comp_apply, if_pos, List.getElem?_mapIdx, Option.map_map]
  rfl

end Connects

/-- `QuitTransportStream::OnCanRead` of the server's model appends what the emission of its signal
    delivers. -/
theorem onCanRead_emits (x : StreamId) (visitor : QuitTransportStream) (v : Server) :
    (v.onCanRead x visitor).log = v.log ++
      (delivered (run (connects visitor.signalMessage ++
        emission (visitor.streamId, (v.streams x).unread) visitor.signalMessage.length)) 0).map
      fun delivery => .message (v.transport delivery.1) delivery.2.1 delivery.2.2 := by
  rw [delivered_in_order, List.map_map]
  rfl

end QuailServer.MessageSignals
