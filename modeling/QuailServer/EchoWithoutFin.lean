import QuailServer.BidirectionalEcho

set_option autoImplicit false

namespace QuailServer.EchoWithoutFin
open HeaderBlock EchoVisitors BidirectionalEcho StepMachine

structure QuitStreamVisitor where
  buffer : Str
  sendFin : Bool
  stopSendingReceived : Bool
  log : List StreamEntry

namespace QuitStreamVisitor

def new : QuitStreamVisitor := ⟨[], false, false, []⟩

def emit (e : StreamEntry) (v : QuitStreamVisitor) : QuitStreamVisitor :=
  { v with log := v.log ++ [e] }

def onCanWrite (writeOk : Bool) (v : QuitStreamVisitor) : QuitStreamVisitor :=
  if v.stopSendingReceived then v
  else if !v.buffer.isEmpty then
    let v := v.emit (.write v.buffer writeOk)
    if !writeOk then v else { v with buffer := [] }
  else v

def onCanRead (data : Str) (fin writeOk : Bool) (v : QuitStreamVisitor) : QuitStreamVisitor :=
  let v := { v.emit (.read data fin) with buffer := v.buffer ++ data }
  let v := if fin then { v with sendFin := true } else v
  v.onCanWrite writeOk

def onResetStreamReceived (writeOk : Bool) (v : QuitStreamVisitor) : QuitStreamVisitor :=
  onCanWrite writeOk { v.emit .resetReceived with sendFin := true }

def onStopSendingReceived (v : QuitStreamVisitor) : QuitStreamVisitor :=
  { v.emit .stopSendingReceived with stopSendingReceived := true }

def step (v : QuitStreamVisitor) : StreamEvent → QuitStreamVisitor
  | .canRead data fin writeOk _ => v.onCanRead data fin writeOk
  | .canWrite writeOk _ => v.onCanWrite writeOk
  | .resetStreamReceived writeOk _ => v.onResetStreamReceived writeOk
  | .stopSendingReceived => v.onStopSendingReceived

end QuitStreamVisitor

def isFin : StreamEntry → Bool
  | .sendFin _ => true
  | _ => false

def withoutFin (log : List StreamEntry) : List StreamEntry := log.filter fun e => !isFin e

/-- A write takes all that was read and not yet written, and there is none after a stop-sending. -/
def Allowed (before : List StreamEntry) : StreamEntry → Prop
  | .write data _ => .stopSendingReceived ∉ before ∧ bytesWritten before ++ data = bytesRead before
  | .sendFin _ => False
  | _ => True

structure Matches (v : QuitStreamVisitor) (w : WebTransportBidirectionalEchoVisitor) : Prop where
  buffer : v.buffer = w.buffer
  sendFin : v.sendFin = w.sendFin
  stopped : v.stopSendingReceived = w.stopSendingReceived
  log : v.log = withoutFin w.log

structure Kept (v : QuitStreamVisitor) : Prop where
  conserved : bytesWritten v.log ++ v.buffer = bytesRead v.log
  stopped : v.stopSendingReceived = true ↔ .stopSendingReceived ∈ v.log
  allowed : History.Holds Allowed [] v.log

variable {v : QuitStreamVisitor} {w : WebTransportBidirectionalEchoVisitor}

theorem withoutFin_concat (log : List StreamEntry) (e : StreamEntry) :
    withoutFin (log ++ [e]) = withoutFin log ++ withoutFin [e] := List.filter_append log [e]

theorem sendFinOnStream_matches (h : Matches v w) (finOk : Bool) :
    Matches v (w.sendFinOnStream finOk) := by
  have hlog : v.log = withoutFin (w.log ++ [.sendFin finOk]) := by
    rw [withoutFin_concat, h.log]
    exact (List.append_nil _).symm
  unfold WebTransportBidirectionalEchoVisitor.sendFinOnStream
  split
  · cases finOk with
    | true => exact ⟨h.buffer, h.sendFin, h.stopped, hlog⟩
    | false => exact ⟨h.buffer, h.sendFin, h.stopped, hlog⟩
  · exact h

theorem emit_matches (h : Matches v w) {e : StreamEntry} (he : isFin e = false) :
    Matches (v.emit e) (w.emit e) := by
  refine ⟨h.buffer, h.sendFin, h.stopped, ?_⟩
  have hkept : withoutFin [e] = [e] := by simp [withoutFin, he]
  change v.log ++ [e] = withoutFin (w.log ++ [e])
  rw [withoutFin_concat, h.log, hkept]

theorem onCanWrite_matches (h : Matches v w) (writeOk finOk : Bool) :
    Matches (v.onCanWrite writeOk) (w.onCanWrite writeOk finOk) := by
  unfold QuitStreamVisitor.onCanWrite WebTransportBidirectionalEchoVisitor.onCanWrite
  rw [h.stopped, h.buffer]
  cases w.stopSendingReceived with
  | true => exact h
  | false =>
    cases hbuffer : w.buffer.isEmpty with
    | true => exact sendFinOnStream_matches h finOk
    | false =>
      have hwrite := emit_matches h (e := .write w.buffer writeOk) rfl
      cases writeOk with
      | false => exact hwrite
      | true =>
        have hwritten : Matches { v.emit (.write w.buffer true) with buffer := [] }
            { w.emit (.write w.buffer true) with buffer := [] } :=
          ⟨rfl, hwrite.sendFin, hwrite.stopped, hwrite.log⟩
        exact sendFinOnStream_matches hwritten finOk

theorem step_matches (h : Matches v w) (e : StreamEvent) : Matches (v.step e) (w.step e) := by
  cases e with
  | canRead data fin writeOk finOk =>
    have hread := emit_matches h (e := .read data fin) rfl
    have hbuffer : v.buffer ++ data = w.buffer ++ data := by rw [h.buffer]
    refine onCanWrite_matches ?_ writeOk finOk
    cases fin with
    | true => exact ⟨hbuffer, rfl, hread.stopped, hread.log⟩
    | false => exact ⟨hbuffer, hread.sendFin, hread.stopped, hread.log⟩
  | canWrite writeOk finOk => exact onCanWrite_matches h writeOk finOk
  | resetStreamReceived writeOk finOk =>
    have hreset := emit_matches h (e := .resetReceived) rfl
    have hreset : Matches { v.emit .resetReceived with sendFin := true }
        { w.emit .resetReceived with sendFin := true } :=
      ⟨hreset.buffer, rfl, hreset.stopped, hreset.log⟩
    exact onCanWrite_matches hreset writeOk finOk
  | stopSendingReceived =>
    have hstop := emit_matches h (e := .stopSendingReceived) rfl
    exact ⟨hstop.buffer, hstop.sendFin, rfl, hstop.log⟩

theorem Kept.extend (h : Kept v) {v' : QuitStreamVisitor} {e : StreamEntry}
    (log : v'.log = v.log ++ [e]) (he : Allowed v.log e)
    (conserved : bytesWritten [e] ++ v'.buffer = v.buffer ++ bytesRead [e])
    (stopped : v'.stopSendingReceived = true ↔
      v.stopSendingReceived = true ∨ e = .stopSendingReceived) : Kept v' where
  conserved := by
    rw [log, bytesWritten_concat, bytesRead_concat, ← h.conserved, List.append_assoc,
      List.append_assoc, conserved]
  stopped := by rw [stopped, log, List.mem_append, List.mem_singleton, h.stopped, eq_comm (a := e)]
  allowed := by
    rw [log]
    exact (History.holds_append [] v.log [e]).mpr ⟨h.allowed, he, trivial⟩

theorem onCanWrite_kept (h : Kept v) (writeOk : Bool) : Kept (v.onCanWrite writeOk) := by
  unfold QuitStreamVisitor.onCanWrite
  cases hstopped : v.stopSendingReceived with
  | true => exact h
  | false =>
    cases hbuffer : v.buffer.isEmpty with
    | true => exact h
    | false =>
      have hallowed : Allowed v.log (.write v.buffer writeOk) :=
        ⟨fun hmem => absurd (h.stopped.mpr hmem) (by simp [hstopped]), h.conserved⟩
      cases writeOk with
      | true =>
        refine h.extend (e := .write v.buffer true) rfl hallowed ?_ ?_
        · simp [bytesWritten, bytesRead]
        · simp [QuitStreamVisitor.emit]
      | false =>
        refine h.extend (e := .write v.buffer false) rfl hallowed ?_ ?_
        · simp [bytesWritten, bytesRead, QuitStreamVisitor.emit]
        · simp [QuitStreamVisitor.emit]

theorem step_kept (h : Kept v) (e : StreamEvent) : Kept (v.step e) := by
  cases e with
  | canRead data fin writeOk finOk =>
    refine onCanWrite_kept ?_ writeOk
    cases fin with
    | true =>
      refine h.extend (e := .read data true) rfl trivial ?_ (by simp [QuitStreamVisitor.emit])
      simp [bytesWritten, bytesRead]
    | false =>
      refine h.extend (e := .read data false) rfl trivial ?_ (by simp [QuitStreamVisitor.emit])
      simp [bytesWritten, bytesRead]
  | canWrite writeOk finOk => exact onCanWrite_kept h writeOk
  | resetStreamReceived writeOk finOk =>
    refine onCanWrite_kept ?_ writeOk
    refine h.extend (e := .resetReceived) rfl trivial ?_ (by simp [QuitStreamVisitor.emit])
    simp [bytesWritten, bytesRead, QuitStreamVisitor.emit]
  | stopSendingReceived =>
    refine h.extend (e := .stopSendingReceived) rfl trivial ?_ (iff_of_true rfl (Or.inr rfl))
    exact (List.append_nil v.buffer).symm

theorem new_matches : Matches QuitStreamVisitor.new WebTransportBidirectionalEchoVisitor.new :=
  ⟨rfl, rfl, rfl, rfl⟩

theorem new_kept : Kept QuitStreamVisitor.new where
  conserved := rfl
  stopped := iff_of_false (by simp [QuitStreamVisitor.new]) List.not_mem_nil
  allowed := trivial

/-- In every run the visitor tries and writes what the echo visitor does, without any FIN. -/
theorem echoes_without_fin (events : List StreamEvent) :
    Matches (after QuitStreamVisitor.step .new events)
        (after WebTransportBidirectionalEchoVisitor.step .new events) ∧
      Kept (after QuitStreamVisitor.step .new events) := by
  constructor
  · exact simulation_after (R := Matches) (P := fun _ => True) (fun _ _ e _ h => step_matches h e)
      new_matches fun _ _ => trivial
  · exact invariant_after (I := Kept) (fun _ e h => step_kept h e) new_kept events

end QuailServer.EchoWithoutFin
