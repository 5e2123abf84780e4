import QuailServer.Library.StepMachine
import QuailServer.OutgoingStreams

set_option autoImplicit false

namespace QuailServer.UniReplies
open HeaderBlock OutgoingStreams StepMachine

/-- After its first accepted write a stream carries the reply, and carries it once. -/
def CarriesReply (x : OutgoingStream) : Prop :=
  x.bytes = if x.accepted = [] then [] else kReply

def RepliesOnce (s : UniSession) : Prop :=
  s.outgoing.length = min s.acceptedIncoming s.credit ∧ ∀ x ∈ s.outgoing, CarriesReply x

/-- No reply waits for credit when credit is granted, and no stream that has the reply takes
    another write. -/
def Answered (s : UniSession) : UniEvent → Prop
  | .creditGranted streams => 0 < streams → s.acceptedIncoming ≤ s.credit
  | .canWrite index unblocked =>
    unblocked = true → ∀ x, s.outgoing[index]? = some x → x.accepted = []
  | _ => True

structure Replying (s : UniSession) : Prop where
  opened : s.outgoing.length = min s.acceptedIncoming s.credit
  once : ∀ x ∈ s.outgoing, x.accepted = [] ∨ x.accepted = [kReply]

variable {s : UniSession}

theorem carriesReply_of_once {x : OutgoingStream} (h : x.accepted = [] ∨ x.accepted = [kReply]) :
    CarriesReply x := by
  unfold CarriesReply OutgoingStream.bytes
  rcases h with hnone | hone
  · simp [hnone]
  · simp [hone]

theorem Replying.repliesOnce (h : Replying s) : RepliesOnce s :=
  ⟨h.opened, fun x hx => carriesReply_of_once (h.once x hx)⟩

theorem onCanWrite_first {x : OutgoingStream} (h : x.accepted = []) (unblocked : Bool) :
    (x.onCanWrite unblocked).accepted = [] ∨ (x.onCanWrite unblocked).accepted = [kReply] := by
  cases unblocked with
  | false => exact Or.inl h
  | true =>
    right
    change x.accepted ++ [kReply] = [kReply]
    rw [h, List.nil_append]

theorem trySending_replying (unblocked : Bool)
    (hopened : s.outgoing.length = min (s.acceptedIncoming - 1) s.credit)
    (hsome : 0 < s.acceptedIncoming)
    (honce : ∀ x ∈ s.outgoing, x.accepted = [] ∨ x.accepted = [kReply]) :
    Replying (s.trySendingUnidirectionalStreams unblocked) := by
  unfold UniSession.trySendingUnidirectionalStreams
    UniSession.canOpenNextOutgoingUnidirectionalStream
  simp only [decide_eq_true_eq]
  by_cases hcredit : s.outgoing.length < s.credit
  · rw [if_pos hcredit]
    constructor
    · change (s.outgoing ++ [_]).length = min s.acceptedIncoming s.credit
      rw [List.length_append, List.length_singleton]
      omega
    · intro x hx
      rcases List.mem_append.mp hx with hold | hnew
      · exact honce x hold
      · rw [List.mem_singleton.mp hnew]
        exact onCanWrite_first rfl unblocked
  · rw [if_neg hcredit]
    constructor
    · omega
    · exact honce

theorem canWrite_replying (h : Replying s) {index : ℕ} {unblocked : Bool}
    (hfirst : unblocked = true → ∀ x, s.outgoing[index]? = some x → x.accepted = []) :
    Replying (s.step (.canWrite index unblocked)) := by
  constructor
  · change (s.outgoing.modify index _).length = _
    rw [List.length_modify]
    exact h.opened
  · intro y hy
    change y ∈ s.outgoing.modify index (OutgoingStream.onCanWrite unblocked) at hy
    obtain ⟨i, hi⟩ := List.mem_iff_getElem?.mp hy
    rw [List.getElem?_modify] at hi
    obtain ⟨x, hx, hxy⟩ := Option.map_eq_some_iff.mp hi
    have honce := h.once x (List.mem_of_getElem? hx)
    subst hxy
    split
    · next hindex =>
      subst hindex
      cases unblocked with
      | true => exact onCanWrite_first (hfirst rfl x hx) true
      | false => exact honce
    · exact honce

theorem step_replying (h : Replying s) {e : UniEvent} (he : Answered s e) :
    Replying (s.step e) := by
  cases e with
  | streamArrives => exact ⟨h.opened, h.once⟩
  | streamAvailable unblocked =>
    change Replying (s.onIncomingUnidirectionalStreamAvailable unblocked)
    unfold UniSession.onIncomingUnidirectionalStreamAvailable
    split
    · exact h
    · exact trySending_replying unblocked h.opened (Nat.succ_pos _) h.once
  | creditGranted streams =>
    refine ⟨?_, h.once⟩
    change s.outgoing.length = min s.acceptedIncoming (s.credit + streams)
    have hopened := h.opened
    rcases Nat.eq_zero_or_pos streams with hzero | hpos
    · rw [hzero, Nat.add_zero, hopened]
    · have hfits : s.acceptedIncoming ≤ s.credit := he hpos
      omega
  | canWrite index unblocked => exact canWrite_replying h he

theorem written_twice {x : OutgoingStream} (h : x.accepted = [kReply]) :
    ¬ CarriesReply (x.onCanWrite true) := by
  have haccepted : (x.onCanWrite true).accepted = [kReply, kReply] := by
    change x.accepted ++ [kReply] = [kReply, kReply]
    rw [h, List.singleton_append]
  unfold CarriesReply OutgoingStream.bytes
  rw [haccepted]
  decide

theorem step_unanswered (h : Replying s) {e : UniEvent} (he : ¬ Answered s e) :
    ¬ RepliesOnce (s.step e) := by
  rintro ⟨hopened, hreplies⟩
  cases e with
  | streamArrives => exact he trivial
  | streamAvailable unblocked => exact he trivial
  | creditGranted streams =>
    -- the replies that wait are not sent when credit is announced
    obtain ⟨hpos, hwaits⟩ := Classical.not_imp.mp he
    change s.outgoing.length = min s.acceptedIncoming (s.credit + streams) at hopened
    have hbefore := h.opened
    omega
  | canWrite index unblocked =>
    -- the stream carries the reply once already
    obtain ⟨hunblocked, hwritten⟩ := Classical.not_imp.mp he
    subst hunblocked
    obtain ⟨x, hx⟩ := not_forall.mp hwritten
    obtain ⟨hindex, hsome⟩ := Classical.not_imp.mp hx
    have hone := (h.once x (List.mem_of_getElem? hindex)).resolve_left hsome
    refine written_twice hone (hreplies _ (List.mem_of_getElem? (i := index) ?_))
    change (s.outgoing.modify index (OutgoingStream.onCanWrite true))[index]? = _
    rw [List.getElem?_modify_eq, hindex]
    rfl

/-- Every stream is answered once in a run exactly when no reply ever waits for credit that comes,
    and no stream takes a write after its first. -/
theorem replies_once_iff (credit : ℕ) (events : List UniEvent) :
    Always UniSession.step RepliesOnce (.new credit) events ↔
      Each UniSession.step Answered (.new credit) events := by
  have unrestricted : Each UniSession.step (fun _ _ => True) (.new credit) events :=
    each_of_labels (Q := fun _ => True) _ fun _ _ => trivial
  apply always_iff_each (I := Replying)
  · intro s h
    exact h.repliesOnce
  · intro s e h _ he
    exact step_replying h he
  · intro s e h _ he
    exact step_unanswered h he
  · exact ⟨(Nat.zero_min credit).symm, fun x hx => absurd hx List.not_mem_nil⟩
  · exact unrestricted

def creditAfterStream : List UniEvent := [.streamArrives, .streamAvailable true, .creditGranted 1]

def writtenTwice : List UniEvent := [.streamArrives, .streamAvailable true, .canWrite 0 true]

theorem unanswered_and_answered_twice :
    (after UniSession.step (.new 0) creditAfterStream).outgoing = [] ∧
      ¬ Always UniSession.step RepliesOnce (.new 0) creditAfterStream ∧
      (after UniSession.step (.new 1) writtenTwice).outgoing.map OutgoingStream.bytes =
        ["foo youfoo you".toList] ∧
      ¬ Always UniSession.step RepliesOnce (.new 1) writtenTwice := by
  refine ⟨rfl, fun h => ?_, rfl, fun h => ?_⟩
  · have hlast := h.last.1
    exact absurd hlast (by decide)
  · have hlast := h.last.2 _ List.mem_cons_self
    exact absurd hlast (written_twice rfl)

end QuailServer.UniReplies
