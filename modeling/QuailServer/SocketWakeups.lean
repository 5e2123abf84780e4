import Mathlib.Algebra.GroupWithZero.Nat
import QuailServer.SocketEvents

set_option autoImplicit false

namespace QuailServer.SocketWakeups
open SocketEvents QuitServer

def buffers (e : SocketEvent) : ℕ := (e.reads.map Read.chlos).sum

def leavesPending (e : SocketEvent) : Bool :=
  e.reads.foldl (fun _ r => r.hasPendingWrites) e.chlosPendingWrites

theorem reads_dispatcher (reads : List Read) (d : QuicDispatcher) :
    reads.foldl (fun d r => d.readAndDispatchPackets r) d =
      ⟨d.bufferedChlos + (reads.map Read.chlos).sum,
        reads.foldl (fun _ r => r.hasPendingWrites) d.hasPendingWrites⟩ := by
  induction reads generalizing d with
  | nil => rfl
  | cons r reads ih =>
    rw [List.foldl_cons, ih, List.map_cons, List.sum_cons, List.foldl_cons, ← Nat.add_assoc]
    rfl

theorem onReadable_dispatcher (e : SocketEvent) (s : QuitServer) :
    (s.onReadable e).dispatcher =
      ⟨s.dispatcher.bufferedChlos - min 16 s.dispatcher.bufferedChlos + buffers e, leavesPending e⟩ :=
  reads_dispatcher e.reads _

theorem onReadable_eventLoop (e : SocketEvent) (s : QuitServer) :
    (s.onReadable e).eventLoop =
      { s.eventLoop with
        armed := ⟨s.eventLoop.armed.readable || !s.eventLoop.supportsEdgeTriggered,
          s.eventLoop.armed.writable⟩
        artificial := ⟨s.eventLoop.artificial.readable ||
          (s.onReadable e).dispatcher.hasChlosBuffered, s.eventLoop.artificial.writable⟩ } := by
  obtain ⟨⟨edge, armed, artificial⟩, dispatcher⟩ := s
  unfold onReadable
  dsimp only
  generalize e.reads.foldl (fun d r => d.readAndDispatchPackets r)
    (dispatcher.processBufferedChlos kNumSessionsToCreatePerSocketEvent e.chlosPendingWrites) = d
  cases hmore : d.hasChlosBuffered <;> cases edge <;>
    simp [QuicEventLoop.artificiallyNotifyEvent, QuicEventLoop.rearmSocket,
      QuicSocketEventMask.union, kSocketEventReadable]

theorem onWritable_eventLoop (e : SocketEvent) (s : QuitServer) :
    (s.onWritable e).eventLoop =
      { s.eventLoop with
        armed := ⟨s.eventLoop.armed.readable, s.eventLoop.armed.writable ||
          (!s.eventLoop.supportsEdgeTriggered && e.writePendingWrites)⟩ } := by
  obtain ⟨⟨edge, armed, artificial⟩, dispatcher⟩ := s
  unfold onWritable QuicDispatcher.onCanWrite
  cases edge <;> cases e.writePendingWrites <;>
    simp [QuicEventLoop.rearmSocket, QuicSocketEventMask.union, kSocketEventWritable]

/-- A readable event is pending exactly while CHLOs are buffered, and it is never disarmed. -/
structure Handshakes (s : QuitServer) : Prop where
  pending : s.eventLoop.artificial.readable = true ↔ 0 < s.dispatcher.bufferedChlos
  armed : s.eventLoop.armed.readable = true

def backlog (e : SocketEvent) (s : QuitServer) : ℕ :=
  if (s.eventLoop.delivered e.ready).readable then
    s.dispatcher.bufferedChlos - min 16 s.dispatcher.bufferedChlos + buffers e
  else s.dispatcher.bufferedChlos

theorem onWritable_chlos (e : SocketEvent) (s : QuitServer) :
    (s.onWritable e).dispatcher.bufferedChlos = s.dispatcher.bufferedChlos := rfl

theorem turn_backlog (e : SocketEvent) (s : QuitServer) :
    (s.turn e).dispatcher.bufferedChlos = backlog e s := by
  unfold turn onSocketEvent backlog
  dsimp only
  cases (s.eventLoop.delivered e.ready).readable <;>
    cases (s.eventLoop.delivered e.ready).writable <;>
      simp [onWritable_chlos, onReadable_dispatcher]

theorem turn_readable {e : SocketEvent} {s : QuitServer}
    (h : (s.eventLoop.delivered e.ready).readable = true) :
    (s.turn e).eventLoop.artificial.readable = decide (0 < backlog e s) ∧
      (s.turn e).eventLoop.armed.readable =
        (s.eventLoop.armed.readable || !s.eventLoop.supportsEdgeTriggered) := by
  have hbacklog : backlog e s =
      s.dispatcher.bufferedChlos - min 16 s.dispatcher.bufferedChlos + buffers e := if_pos h
  rw [hbacklog]
  unfold turn onSocketEvent
  rw [h]
  cases hw : (s.eventLoop.delivered e.ready).writable <;>
    cases hedge : s.eventLoop.supportsEdgeTriggered <;>
      simp [onReadable_eventLoop, onWritable_eventLoop, onReadable_dispatcher,
        QuicDispatcher.hasChlosBuffered, QuicEventLoop.deliver, QuicSocketEventMask.minus, h, hedge]

theorem turn_not_readable {e : SocketEvent} {s : QuitServer}
    (h : (s.eventLoop.delivered e.ready).readable = false) :
    (s.turn e).eventLoop.artificial.readable = s.eventLoop.artificial.readable ∧
      (s.turn e).eventLoop.armed.readable = s.eventLoop.armed.readable := by
  unfold turn onSocketEvent
  rw [h]
  cases hw : (s.eventLoop.delivered e.ready).writable <;>
    cases hedge : s.eventLoop.supportsEdgeTriggered <;>
      simp [onWritable_eventLoop, QuicEventLoop.deliver, QuicSocketEventMask.minus, h, hedge]

def readableEvents (s : QuitServer) : List SocketEvent → ℕ
  | [] => 0
  | e :: events =>
    (if (s.eventLoop.delivered e.ready).readable then 1 else 0) + readableEvents (s.turn e) events

/-- A turn that delivers the readable event takes up to 16 CHLOs off the backlog and adds those of
    its reads. It asks for another event just if some are left, and rearms a one-shot loop. -/
structure Reads (s : QuitServer) (e : SocketEvent) : Prop where
  chlos : (s.turn e).dispatcher.bufferedChlos =
    s.dispatcher.bufferedChlos - min 16 s.dispatcher.bufferedChlos + buffers e
  requested : (s.turn e).eventLoop.artificial.readable = true ↔ 0 < (s.turn e).dispatcher.bufferedChlos
  armed : s.eventLoop.supportsEdgeTriggered = false → (s.turn e).eventLoop.armed.readable = true

/-- Any other turn leaves the backlog and the readable event as they are. -/
structure Waits (s : QuitServer) (e : SocketEvent) : Prop where
  chlos : (s.turn e).dispatcher.bufferedChlos = s.dispatcher.bufferedChlos
  requested : (s.turn e).eventLoop.artificial.readable = s.eventLoop.artificial.readable
  armed : (s.turn e).eventLoop.armed.readable = s.eventLoop.armed.readable

/-- In every state of a run a readable event is pending and armed while CHLOs are buffered, so that
    the next turn reads. The other parts are about any state, with any backlog. -/
structure NoStrandedHandshake (edge : Bool) : Prop where
  pending : ∀ events, 0 < (serve edge events).dispatcher.bufferedChlos →
    (serve edge events).eventLoop.artificial.readable = true ∧
      (edge = false → (serve edge events).eventLoop.armed.readable = true)
  woken : ∀ events (e : SocketEvent), 0 < (serve edge events).dispatcher.bufferedChlos →
    ((serve edge events).eventLoop.delivered e.ready).readable = true
  reads : ∀ (s : QuitServer) (e : SocketEvent), (s.eventLoop.delivered e.ready).readable = true → Reads s e
  waits : ∀ (s : QuitServer) (e : SocketEvent), (s.eventLoop.delivered e.ready).readable = false → Waits s e
  drained : ∀ (s : QuitServer) (further : List SocketEvent), (∀ e ∈ further, buffers e = 0) →
    (s.dispatcher.bufferedChlos + 15) / 16 ≤ readableEvents s further →
    (StepMachine.after turn s further).dispatcher.bufferedChlos = 0
  quiet : ∀ events further, (∀ e ∈ further, buffers e = 0) →
    ((serve edge events).dispatcher.bufferedChlos + 15) / 16 ≤ readableEvents (serve edge events) further →
    (StepMachine.after turn (serve edge events) further).eventLoop.artificial.readable = false

theorem turn_reads {s : QuitServer} {e : SocketEvent}
    (h : (s.eventLoop.delivered e.ready).readable = true) : Reads s e := by
  have hbacklog := turn_backlog e s
  obtain ⟨hartificial, harmed⟩ := turn_readable h
  refine ⟨hbacklog.trans (if_pos h), ?_, fun hedge => ?_⟩
  · rw [hartificial, hbacklog, decide_eq_true_eq]
  · rw [harmed, hedge, Bool.not_false, Bool.or_true]

theorem turn_waits {s : QuitServer} {e : SocketEvent}
    (h : (s.eventLoop.delivered e.ready).readable = false) : Waits s e := by
  obtain ⟨hartificial, harmed⟩ := turn_not_readable h
  exact ⟨(turn_backlog e s).trans (if_neg (by simp [h])), hartificial, harmed⟩

theorem handshakes_turn (e : SocketEvent) {s : QuitServer} (h : Handshakes s) :
    Handshakes (s.turn e) := by
  cases hread : (s.eventLoop.delivered e.ready).readable with
  | true =>
    have hturn := turn_reads hread
    refine ⟨hturn.requested, ?_⟩
    rw [(turn_readable hread).2, h.armed, Bool.true_or]
  | false =>
    have hturn := turn_waits hread
    refine ⟨?_, hturn.armed.trans h.armed⟩
    rw [hturn.requested, hturn.chlos]
    exact h.pending

theorem handshakes_serve (edge : Bool) (events : List SocketEvent) :
    Handshakes (serve edge events) := by
  have hinit : Handshakes (createUDPSocketAndListen edge) := ⟨by decide +revert, rfl⟩
  exact StepMachine.invariant_after (I := Handshakes) (fun s e hs => handshakes_turn e hs) hinit events

theorem backlog_after (s : QuitServer) (events : List SocketEvent) (hquiet : ∀ e ∈ events, buffers e = 0) :
    (StepMachine.after turn s events).dispatcher.bufferedChlos =
      s.dispatcher.bufferedChlos - 16 * readableEvents s events := by
  induction events generalizing s with
  | nil => rfl
  | cons e events ih =>
    have hnone : buffers e = 0 := hquiet e List.mem_cons_self
    have hrest := ih (s.turn e) fun e' he => hquiet e' (List.mem_cons_of_mem e he)
    have hcount : readableEvents s (e :: events) =
        (if (s.eventLoop.delivered e.ready).readable then 1 else 0) +
          readableEvents (s.turn e) events := rfl
    rw [StepMachine.after_cons, hrest, hcount]
    cases hread : (s.eventLoop.delivered e.ready).readable with
    | true =>
      rw [(turn_reads hread).chlos, if_pos rfl]
      omega
    | false =>
      rw [(turn_waits hread).chlos, if_neg Bool.false_ne_true]
      omega

/-- Buffered CHLOs always have a readable event pending, and without new packets they are used up
    after a sixteenth of their number of readable events. -/
theorem no_stranded_handshake (edge : Bool) : NoStrandedHandshake edge := by
  have hdrained : ∀ (s : QuitServer) (further : List SocketEvent), (∀ e ∈ further, buffers e = 0) →
      (s.dispatcher.bufferedChlos + 15) / 16 ≤ readableEvents s further →
      (StepMachine.after turn s further).dispatcher.bufferedChlos = 0 := by
    intro s further hquiet hcount
    have hleft := backlog_after s further hquiet
    omega
  refine ⟨fun events hbacklog => ?_, fun events e hbacklog => ?_, fun _ _ => turn_reads,
    fun _ _ => turn_waits, hdrained, fun events further hquiet hcount => ?_⟩
  · have hs := handshakes_serve edge events
    exact ⟨hs.pending.mpr hbacklog, fun _ => hs.armed⟩
  · have hpending := (handshakes_serve edge events).pending.mpr hbacklog
    simp [QuicEventLoop.delivered, QuicSocketEventMask.union, hpending]
  · have hlater : Handshakes (StepMachine.after turn (serve edge events) further) :=
      StepMachine.invariant_after (fun s e hs => handshakes_turn e hs) (handshakes_serve edge events) further
    rw [← Bool.not_eq_true, hlater.pending, hdrained _ further hquiet hcount]
    exact Nat.lt_irrefl 0

def WritesArmed (s : QuitServer) : Prop :=
  s.dispatcher.hasPendingWrites = true → s.eventLoop.armed.writable = true

/-- A turn that delivers only the readable event and leaves writes pending finds the writable
    event still armed. -/
def ReadsArmed (s : QuitServer) (e : SocketEvent) : Prop :=
  (s.eventLoop.delivered e.ready).readable = true →
    (s.eventLoop.delivered e.ready).writable = false → leavesPending e = true →
    s.eventLoop.armed.writable = true

theorem onWritable_pending (e : SocketEvent) (s : QuitServer) :
    (s.onWritable e).dispatcher.hasPendingWrites = e.writePendingWrites := rfl

theorem turn_writable {e : SocketEvent} {s : QuitServer}
    (hedge : s.eventLoop.supportsEdgeTriggered = false)
    (h : (s.eventLoop.delivered e.ready).writable = true) : WritesArmed (s.turn e) := by
  unfold WritesArmed turn onSocketEvent
  rw [h]
  cases hr : (s.eventLoop.delivered e.ready).readable <;>
    simp +contextual [onReadable_eventLoop, onWritable_eventLoop, onWritable_pending,
      QuicEventLoop.deliver, hedge]

theorem turn_not_writable {e : SocketEvent} {s : QuitServer}
    (h : (s.eventLoop.delivered e.ready).writable = false) :
    (s.turn e).eventLoop.armed.writable = s.eventLoop.armed.writable ∧
      (s.turn e).dispatcher.hasPendingWrites = if (s.eventLoop.delivered e.ready).readable
        then leavesPending e else s.dispatcher.hasPendingWrites := by
  unfold turn onSocketEvent
  rw [h]
  cases hr : (s.eventLoop.delivered e.ready).readable <;>
    cases hedge : s.eventLoop.supportsEdgeTriggered <;>
      simp [onReadable_eventLoop, onReadable_dispatcher, QuicEventLoop.deliver,
        QuicSocketEventMask.minus, h, hedge]

theorem turn_supportsEdgeTriggered (e : SocketEvent) (s : QuitServer) :
    (s.turn e).eventLoop.supportsEdgeTriggered = s.eventLoop.supportsEdgeTriggered := by
  unfold turn onSocketEvent
  cases (s.eventLoop.delivered e.ready).readable <;>
    cases (s.eventLoop.delivered e.ready).writable <;>
      simp [onReadable_eventLoop, onWritable_eventLoop, QuicEventLoop.deliver]

theorem writesArmed_turn {e : SocketEvent} {s : QuitServer}
    (hedge : s.eventLoop.supportsEdgeTriggered = false) (hs : WritesArmed s) :
    WritesArmed (s.turn e) ↔ ReadsArmed s e := by
  cases hwrite : (s.eventLoop.delivered e.ready).writable with
  | true =>
    refine iff_of_true (turn_writable hedge hwrite) ?_
    intro _ hnot
    rw [hwrite] at hnot
    cases hnot
  | false =>
    obtain ⟨harmed, hpending⟩ := turn_not_writable hwrite
    unfold WritesArmed ReadsArmed
    rw [harmed, hpending, hwrite]
    cases hread : (s.eventLoop.delivered e.ready).readable with
    | true => simp
    | false =>
      refine iff_of_true ?_ fun h => Bool.noConfusion h
      rw [if_neg Bool.false_ne_true]
      exact hs

/-- On a one-shot loop no state between events has unarmed pending writes, exactly when every turn
    that only reads and leaves writes pending finds the writable event armed. -/
theorem writes_armed_iff (events : List SocketEvent) :
    StepMachine.Always turn WritesArmed (createUDPSocketAndListen false) events ↔
      StepMachine.Each turn ReadsArmed (createUDPSocketAndListen false) events := by
  refine StepMachine.always_iff_each (A := fun _ _ => True)
    (I := fun s => s.eventLoop.supportsEdgeTriggered = false ∧ WritesArmed s)
    (fun s hs => hs.2) ?_ ?_ ⟨rfl, fun h => Bool.noConfusion h⟩ (StepMachine.each_of_labels _ fun _ _ => trivial)
  · rintro s e ⟨hedge, hs⟩ - hreads
    exact ⟨(turn_supportsEdgeTriggered e s).trans hedge, (writesArmed_turn hedge hs).mpr hreads⟩
  · rintro s e ⟨hedge, hs⟩ - hreads harmed
    exact hreads ((writesArmed_turn hedge hs).mp harmed)

def blockedAfterIdle : List SocketEvent :=
  [⟨⟨false, true⟩, false, [], false⟩, ⟨⟨true, false⟩, false, [⟨0, true⟩], false⟩]

theorem blocked_write_unarmed : ¬ WritesArmed (serve false blockedAfterIdle) := by
  intro h
  have harmed : false = true := h rfl
  cases harmed

end QuailServer.SocketWakeups
