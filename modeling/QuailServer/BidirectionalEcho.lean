import QuailServer.EchoVisitors
import QuailServer.Library.History
import QuailServer.Library.StepMachine

set_option autoImplicit false

namespace QuailServer.BidirectionalEcho
open HeaderBlock EchoVisitors StepMachine WebTransportBidirectionalEchoVisitor

def bytesRead (log : List StreamEntry) : Str :=
  log.flatMap fun
    | .read data _ => data
    | _ => []

def bytesWritten (log : List StreamEntry) : Str :=
  log.flatMap fun
    | .write data true => data
    | _ => []

def PeerEnded (log : List StreamEntry) : Prop :=
  .resetReceived ∈ log ∨ ∃ data, .read data true ∈ log

/-- When a write or a FIN may be tried, given what happened before. -/
def Allowed (before : List StreamEntry) : StreamEntry → Prop
  | .write _ _ => .sendFin true ∉ before ∧ .stopSendingReceived ∉ before
  | .sendFin _ => .sendFin true ∉ before ∧ .stopSendingReceived ∉ before ∧ PeerEnded before ∧
      bytesWritten before = bytesRead before
  | _ => True

structure EchoKept (v : WebTransportBidirectionalEchoVisitor) : Prop where
  conserved : bytesWritten v.log ++ v.buffer = bytesRead v.log
  finOnce : v.log.count (.sendFin true) ≤ 1
  allowed : History.Holds Allowed [] v.log

/-- After the FIN or a reset of the peer there is nothing more to read. -/
def NoLateData (v : WebTransportBidirectionalEchoVisitor) : StreamEvent → Prop
  | .canRead data _ _ _ => PeerEnded v.log → data = []
  | _ => True

/-- The invariant: the flags say what the log says, and the buffer is empty after the FIN. -/
structure Echoing (v : WebTransportBidirectionalEchoVisitor) : Prop extends EchoKept v where
  sendFin : v.sendFin = true ↔ PeerEnded v.log
  finSent : v.finSent = true ↔ .sendFin true ∈ v.log
  stopped : v.stopSendingReceived = true ↔ .stopSendingReceived ∈ v.log
  finished : v.finSent = true → v.sendFin = true ∧ v.buffer = []

variable {v : WebTransportBidirectionalEchoVisitor}

theorem bytesRead_concat (log : List StreamEntry) (e : StreamEntry) :
    bytesRead (log ++ [e]) = bytesRead log ++ bytesRead [e] := List.flatMap_append

theorem bytesWritten_concat (log : List StreamEntry) (e : StreamEntry) :
    bytesWritten (log ++ [e]) = bytesWritten log ++ bytesWritten [e] := List.flatMap_append

theorem peerEnded_concat (log : List StreamEntry) (e : StreamEntry) :
    PeerEnded (log ++ [e]) ↔ PeerEnded log ∨ PeerEnded [e] := by
  unfold PeerEnded
  simp only [List.mem_append, exists_or]
  exact or_or_or_comm

theorem Echoing.extend (h : Echoing v) {e : StreamEntry} {v' : WebTransportBidirectionalEchoVisitor}
    (log : v'.log = v.log ++ [e]) (he : Allowed v.log e)
    (conserved : bytesWritten [e] ++ v'.buffer = v.buffer ++ bytesRead [e])
    (sendFin : v'.sendFin = true ↔ v.sendFin = true ∨ PeerEnded [e])
    (finSent : v'.finSent = true ↔ v.finSent = true ∨ e = .sendFin true)
    (stopped : v'.stopSendingReceived = true ↔
      v.stopSendingReceived = true ∨ e = .stopSendingReceived)
    (finished : v'.finSent = true → v'.sendFin = true ∧ v'.buffer = []) : Echoing v' where
  conserved := by
    rw [log, bytesWritten_concat, bytesRead_concat, ← h.conserved, List.append_assoc,
      List.append_assoc, conserved]
  finOnce := by
    rw [log, List.count_append]
    by_cases hfin : e = .sendFin true
    · subst hfin
      rw [List.count_eq_zero_of_not_mem he.1, List.count_singleton_self]
    · rw [List.count_singleton, if_neg (by simpa using hfin)]
      exact h.finOnce
  allowed := by
    rw [log]
    exact (History.holds_append [] v.log [e]).mpr ⟨h.allowed, he, trivial⟩
  sendFin := by rw [sendFin, log, peerEnded_concat, h.sendFin]
  finSent := by rw [finSent, log, List.mem_append, List.mem_singleton, h.finSent, eq_comm (a := e)]
  stopped := by rw [stopped, log, List.mem_append, List.mem_singleton, h.stopped, eq_comm (a := e)]
  finished := finished

theorem Echoing.read (h : Echoing v) {data : Str} (late : PeerEnded v.log → data = [])
    (fin : Bool) :
    Echoing { v.emit (.read data fin) with
      buffer := v.buffer ++ data
      sendFin := v.sendFin || fin } := by
  refine h.extend (e := .read data fin) rfl trivial ?_ ?_ (by simp [emit]) (by simp [emit]) ?_
  · simp [bytesWritten, bytesRead]
  · rw [Bool.or_eq_true]
    exact or_congr_right (by simp [PeerEnded, eq_comm])
  · intro hsent
    obtain ⟨hsend, hbuffer⟩ := h.finished hsent
    refine ⟨(Bool.or_eq_true _ _).mpr (Or.inl hsend), ?_⟩
    change v.buffer ++ data = []
    rw [hbuffer, late (h.sendFin.mp hsend), List.append_nil]

theorem Echoing.reset (h : Echoing v) : Echoing { v.emit .resetReceived with sendFin := true } := by
  refine h.extend (e := .resetReceived) rfl trivial ?_ ?_ (by simp [emit]) (by simp [emit]) ?_
  · simp [bytesWritten, bytesRead, emit]
  · exact iff_of_true rfl (Or.inr (Or.inl List.mem_cons_self))
  · exact fun hsent => ⟨rfl, (h.finished hsent).2⟩

theorem Echoing.stopSending (h : Echoing v) : Echoing v.onStopSendingReceived := by
  refine h.extend (e := .stopSendingReceived) rfl trivial ?_ ?_ ?_ ?_ h.finished
  · simp [bytesWritten, bytesRead, emit, onStopSendingReceived]
  · simp [PeerEnded, emit, onStopSendingReceived]
  · simp [emit, onStopSendingReceived]
  · exact iff_of_true rfl (Or.inr rfl)

theorem Echoing.write (h : Echoing v) (hstopped : v.stopSendingReceived = false)
    (hbuffer : v.buffer ≠ []) (ok : Bool) :
    Echoing { v.emit (.write v.buffer ok) with buffer := if ok then [] else v.buffer } := by
  have hunfinished : v.finSent ≠ true := fun hsent => hbuffer (h.finished hsent).2
  have hallowed : Allowed v.log (.write v.buffer ok) :=
    ⟨fun hmem => hunfinished (h.finSent.mpr hmem),
      fun hmem => absurd (h.stopped.mpr hmem) (by simp [hstopped])⟩
  refine h.extend (e := .write v.buffer ok) rfl hallowed ?_ ?_ (by simp [emit]) (by simp [emit]) ?_
  · cases ok <;> simp [bytesWritten, bytesRead]
  · simp [PeerEnded, emit]
  · exact fun hsent => absurd hsent hunfinished

theorem Echoing.sendFinOnStream (h : Echoing v) (hstopped : v.stopSendingReceived = false)
    (hbuffer : v.buffer = []) (finOk : Bool) : Echoing (v.sendFinOnStream finOk) := by
  unfold WebTransportBidirectionalEchoVisitor.sendFinOnStream
  by_cases hdue : v.sendFin = true ∧ v.finSent = false
  · obtain ⟨hsend, hunsent⟩ := hdue
    have hwritten : bytesWritten v.log = bytesRead v.log := by
      rw [← h.conserved, hbuffer, List.append_nil]
    have hallowed : Allowed v.log (.sendFin finOk) :=
      ⟨fun hmem => absurd (h.finSent.mpr hmem) (by simp [hunsent]),
        fun hmem => absurd (h.stopped.mpr hmem) (by simp [hstopped]), h.sendFin.mp hsend, hwritten⟩
    rw [if_pos (by simp [hsend, hunsent])]
    cases finOk with
    | true =>
      refine h.extend (e := .sendFin true) rfl hallowed ?_ ?_ ?_ (by simp [emit]) ?_
      · simp [bytesWritten, bytesRead, emit]
      · simp [PeerEnded, emit]
      · exact iff_of_true rfl (Or.inr rfl)
      · exact fun _ => ⟨hsend, hbuffer⟩
    | false =>
      refine h.extend (e := .sendFin false) rfl hallowed ?_ ?_ (by simp [emit]) (by simp [emit]) ?_
      · simp [bytesWritten, bytesRead, emit]
      · simp [PeerEnded, emit]
      · exact fun _ => ⟨hsend, hbuffer⟩
  · rw [if_neg (by simpa using hdue)]
    exact h

theorem Echoing.onCanWrite (h : Echoing v) (writeOk finOk : Bool) :
    Echoing (v.onCanWrite writeOk finOk) := by
  unfold WebTransportBidirectionalEchoVisitor.onCanWrite
  cases hstopped : v.stopSendingReceived with
  | true => exact h
  | false =>
    by_cases hbuffer : v.buffer = []
    · rw [hbuffer]
      exact h.sendFinOnStream hstopped hbuffer finOk
    · have hwrite := h.write hstopped hbuffer writeOk
      have hfull : (!v.buffer.isEmpty) = true := by simpa using hbuffer
      simp only [hfull, if_true, Bool.false_eq_true, if_false]
      cases writeOk with
      | true => exact hwrite.sendFinOnStream hstopped rfl finOk
      | false => exact hwrite

theorem step_echoing (h : Echoing v) {e : StreamEvent} (late : NoLateData v e) :
    Echoing (v.step e) := by
  cases e with
  | canRead data fin writeOk finOk =>
    have hread := (h.read late fin).onCanWrite writeOk finOk
    cases fin with
    | true =>
      rw [Bool.or_true] at hread
      exact hread
    | false =>
      rw [Bool.or_false] at hread
      exact hread
  | canWrite writeOk finOk => exact h.onCanWrite writeOk finOk
  | resetStreamReceived writeOk finOk => exact h.reset.onCanWrite writeOk finOk
  | stopSendingReceived => exact h.stopSending

theorem new_echoing : Echoing .new where
  conserved := rfl
  finOnce := Nat.zero_le _
  allowed := trivial
  sendFin := iff_of_false nofun fun h => h.elim nofun fun ⟨_, h⟩ => absurd h nofun
  finSent := iff_of_false nofun nofun
  stopped := iff_of_false nofun nofun
  finished := nofun

/-- In every run in which nothing is read after the end of the peer's side, nothing is lost, the FIN
    is sent at most once and last, and nothing is tried after a stop-sending. -/
theorem bidirectional_echo {events : List StreamEvent}
    (late : Each step NoLateData .new events) : Always step EchoKept .new events := by
  have hechoing : Always step Echoing .new events :=
    always_of_each (fun _ _ h hlate => step_echoing h hlate) new_echoing late
  exact hechoing.imp fun _ h => h.toEchoKept

def refusedThenWritten : List StreamEvent :=
  [.canRead "hi".toList true false true, .canWrite true false, .canWrite true true]

theorem bidirectional_echo_refused : Always step EchoKept .new refusedThenWritten :=
  bidirectional_echo ⟨fun h => h.elim nofun fun ⟨_, h⟩ => absurd h nofun, trivial, trivial, trivial⟩

example : (after step .new refusedThenWritten).log =
    [.read "hi".toList true, .write "hi".toList false, .write "hi".toList true, .sendFin false,
      .sendFin true] := by decide

end QuailServer.BidirectionalEcho
