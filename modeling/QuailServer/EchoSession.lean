import QuailServer.BidirectionalEcho

set_option autoImplicit false

namespace QuailServer.EchoSession
open HeaderBlock EchoVisitors BidirectionalEcho StepMachine

structure BidirectionalStream where
  received : Str
  unread : Str
  fin : Bool
  reset : Bool
  visitor : Option WebTransportBidirectionalEchoVisitor
  /-- At the last attempt to write, the stream took everything. -/
  offered : Bool

namespace BidirectionalStream

def new : BidirectionalStream := ⟨[], [], false, false, none, false⟩

def setVisitor (v : WebTransportBidirectionalEchoVisitor) (x : BidirectionalStream) :
    BidirectionalStream := { x with visitor := some v }

def deliver (e : StreamEvent) (ok : Bool × Bool) (x : BidirectionalStream) : BidirectionalStream :=
  { x with visitor := x.visitor.map fun v => v.step e, offered := ok.1 && ok.2 }

/-- `visitor()->OnCanRead()`, where the stream answers a write and a FIN with `ok`. -/
def onCanRead (ok : Bool × Bool) (x : BidirectionalStream) : BidirectionalStream :=
  { x.deliver (.canRead x.unread x.fin ok.1 ok.2) ok with unread := [] }

/-- Nothing arrives after a FIN or a reset. -/
def dataArrives (data : Str) (fin : Bool) (ok : Bool × Bool) (x : BidirectionalStream) :
    BidirectionalStream :=
  if x.fin || x.reset then x
  else
    let x := { x with received := x.received ++ data, unread := x.unread ++ data, fin := fin }
    if x.visitor.isSome then x.onCanRead ok else x

def onCanWrite (ok : Bool × Bool) (x : BidirectionalStream) : BidirectionalStream :=
  if x.visitor.isSome then x.deliver (.canWrite ok.1 ok.2) ok else x

def onResetStreamReceived (ok : Bool × Bool) (x : BidirectionalStream) : BidirectionalStream :=
  if x.visitor.isSome then { x.deliver (.resetStreamReceived ok.1 ok.2) ok with reset := true }
  else x

def onStopSendingReceived (x : BidirectionalStream) : BidirectionalStream :=
  { x with visitor := x.visitor.map fun v => v.step .stopSendingReceived }

end BidirectionalStream

/-- The session and its visitor without the unidirectional streams, which
    `EchoVisitors.EchoWebTransportSessionVisitor` has. -/
structure EchoWebTransportSessionVisitor where
  incoming : List BidirectionalStream
  /-- Those below were accepted. -/
  accepted : ℕ
  /-- Those below were there when QUICHE announced streams last. -/
  announced : ℕ
  echoStreamOpened : Bool
  outgoing : List BidirectionalStream
  datagramsReceived : ℕ
  datagramsSent : List Str

inductive StreamName where
  | incoming (index : ℕ)
  | opened

inductive SessionEvent where
  /-- `CanOpenNextOutgoingBidirectionalStream` answers `canOpen`. -/
  | sessionReady (canOpen : Bool)
  | streamArrives
  | streamAvailable (results : Results)
  | canCreateNewOutgoingBidirectionalStream
  | datagramReceived (datagram : Str)
  | dataArrives (name : StreamName) (data : Str) (fin : Bool) (ok : Bool × Bool)
  | canWrite (name : StreamName) (ok : Bool × Bool)
  /-- A stream that waits for its visitor is not reset. -/
  | resetStreamReceived (name : StreamName) (ok : Bool × Bool)
  | stopSendingReceived (name : StreamName)

namespace EchoWebTransportSessionVisitor

def new : EchoWebTransportSessionVisitor := ⟨[], 0, 0, false, [], 0, []⟩

def onStream (name : StreamName) (f : BidirectionalStream → BidirectionalStream)
    (s : EchoWebTransportSessionVisitor) : EchoWebTransportSessionVisitor :=
  match name with
  | .incoming index => { s with incoming := s.incoming.modify index f }
  | .opened => { s with outgoing := s.outgoing.map f }

def acceptIncomingBidirectionalStream (s : EchoWebTransportSessionVisitor) :
    Option (ℕ × EchoWebTransportSessionVisitor) :=
  if s.accepted < s.incoming.length then some (s.accepted, { s with accepted := s.accepted + 1 })
  else none

def echoStream (results : Results) (index : ℕ) (s : EchoWebTransportSessionVisitor) :
    EchoWebTransportSessionVisitor :=
  (s.onStream (.incoming index) (BidirectionalStream.setVisitor .new)).onStream (.incoming index)
    (BidirectionalStream.onCanRead (results index))

def acceptStreams (results : Results) :
    ℕ → EchoWebTransportSessionVisitor → EchoWebTransportSessionVisitor
  | 0, s => s
  | turns + 1, s =>
    match s.acceptIncomingBidirectionalStream with
    | none => s
    | some (index, s) => acceptStreams results turns (s.echoStream results index)

/-- Each turn of the loop but the last takes one of the streams that are waiting. -/
def onIncomingBidirectionalStreamAvailable (results : Results)
    (s : EchoWebTransportSessionVisitor) : EchoWebTransportSessionVisitor :=
  acceptStreams results (s.incoming.length - s.accepted + 1)
    { s with announced := s.incoming.length }

def onCanCreateNewOutgoingBidirectionalStream (s : EchoWebTransportSessionVisitor) :
    EchoWebTransportSessionVisitor :=
  if s.echoStreamOpened then s
  else { s with
    outgoing := s.outgoing ++ [BidirectionalStream.new.setVisitor .new]
    echoStreamOpened := true }

def onSessionReady (canOpen : Bool) (s : EchoWebTransportSessionVisitor) :
    EchoWebTransportSessionVisitor :=
  if canOpen then s.onCanCreateNewOutgoingBidirectionalStream else s

def datagramResponse : Str := "who am I"

def onDatagramReceived (_datagram : Str) (s : EchoWebTransportSessionVisitor) :
    EchoWebTransportSessionVisitor :=
  { s with
    datagramsReceived := s.datagramsReceived + 1
    datagramsSent := s.datagramsSent ++ [datagramResponse] }

def step (s : EchoWebTransportSessionVisitor) : SessionEvent → EchoWebTransportSessionVisitor
  | .sessionReady canOpen => s.onSessionReady canOpen
  | .streamArrives => { s with incoming := s.incoming ++ [.new] }
  | .streamAvailable results => s.onIncomingBidirectionalStreamAvailable results
  | .canCreateNewOutgoingBidirectionalStream => s.onCanCreateNewOutgoingBidirectionalStream
  | .datagramReceived datagram => s.onDatagramReceived datagram
  | .dataArrives name data fin ok => s.onStream name (BidirectionalStream.dataArrives data fin ok)
  | .canWrite name ok => s.onStream name (BidirectionalStream.onCanWrite ok)
  | .resetStreamReceived name ok => s.onStream name (BidirectionalStream.onResetStreamReceived ok)
  | .stopSendingReceived name => s.onStream name BidirectionalStream.onStopSendingReceived

end EchoWebTransportSessionVisitor

/-- The visitor keeps its echo, has read what was received, and a stream that took everything has
    got it back, with the FIN if the peer ended its side. -/
structure Echoed (x : BidirectionalStream) (v : WebTransportBidirectionalEchoVisitor) : Prop where
  kept : EchoKept v
  read : bytesRead v.log = x.received
  ended : PeerEnded v.log ↔ x.fin = true ∨ x.reset = true
  served : x.offered = true → .stopSendingReceived ∉ v.log →
    bytesWritten v.log = x.received ∧ (PeerEnded v.log → .sendFin true ∈ v.log)

/-- The invariant of a stream. Before the visitor comes, everything waits. -/
structure Regular (x : BidirectionalStream) : Prop where
  waiting : x.visitor = none → x.unread = x.received ∧ x.reset = false
  done : ∀ v, x.visitor = some v → Echoing v ∧ x.unread = [] ∧ bytesRead v.log = x.received ∧
    (PeerEnded v.log ↔ x.fin = true ∨ x.reset = true)
  served : ∀ v, x.visitor = some v → x.offered = true → v.stopSendingReceived = false →
    v.buffer = [] ∧ (v.sendFin = true → v.finSent = true)

theorem Regular.echoed {x : BidirectionalStream} (h : Regular x)
    {v : WebTransportBidirectionalEchoVisitor} (hv : x.visitor = some v) : Echoed x v := by
  obtain ⟨hechoing, -, hread, hended⟩ := h.done v hv
  refine ⟨hechoing.toEchoKept, hread, hended, fun hoffered hstop => ?_⟩
  have hstopped : v.stopSendingReceived = false := by
    by_contra hne
    exact hstop (hechoing.stopped.mp (by simpa using hne))
  obtain ⟨hbuffer, hfin⟩ := h.served v hv hoffered hstopped
  have hconserved := hechoing.conserved
  rw [hbuffer, List.append_nil] at hconserved
  exact ⟨hconserved.trans hread, fun hpeer => hechoing.finSent.mp (hfin (hechoing.sendFin.mpr hpeer))⟩

variable {x : BidirectionalStream} {v : WebTransportBidirectionalEchoVisitor}

theorem sendFinOnStream_log (v : WebTransportBidirectionalEchoVisitor) (finOk : Bool) :
    bytesRead (v.sendFinOnStream finOk).log = bytesRead v.log ∧
      (PeerEnded (v.sendFinOnStream finOk).log ↔ PeerEnded v.log) ∧
      (v.sendFinOnStream finOk).stopSendingReceived = v.stopSendingReceived := by
  unfold WebTransportBidirectionalEchoVisitor.sendFinOnStream
  split
  · have hentry : bytesRead (v.log ++ [.sendFin finOk]) = bytesRead v.log ∧
        (PeerEnded (v.log ++ [.sendFin finOk]) ↔ PeerEnded v.log) := by
      rw [bytesRead_concat, peerEnded_concat]
      exact ⟨List.append_nil _, or_iff_left (by simp [PeerEnded])⟩
    cases finOk with
    | true => exact ⟨hentry.1, hentry.2, rfl⟩
    | false => exact ⟨hentry.1, hentry.2, rfl⟩
  · exact ⟨rfl, Iff.rfl, rfl⟩

theorem onCanWrite_log (v : WebTransportBidirectionalEchoVisitor) (writeOk finOk : Bool) :
    bytesRead (v.onCanWrite writeOk finOk).log = bytesRead v.log ∧
      (PeerEnded (v.onCanWrite writeOk finOk).log ↔ PeerEnded v.log) ∧
      (v.onCanWrite writeOk finOk).stopSendingReceived = v.stopSendingReceived := by
  have hentry : bytesRead (v.log ++ [.write v.buffer writeOk]) = bytesRead v.log ∧
      (PeerEnded (v.log ++ [.write v.buffer writeOk]) ↔ PeerEnded v.log) := by
    rw [bytesRead_concat, peerEnded_concat]
    exact ⟨List.append_nil _, or_iff_left (by simp [PeerEnded])⟩
  unfold WebTransportBidirectionalEchoVisitor.onCanWrite
  split
  · exact ⟨rfl, Iff.rfl, rfl⟩
  · split
    · cases writeOk with
      | false => exact ⟨hentry.1, hentry.2, rfl⟩
      | true =>
        obtain ⟨hread, hended, hstopped⟩ := sendFinOnStream_log
          { v.emit (.write v.buffer true) with buffer := [] } finOk
        exact ⟨hread.trans hentry.1, hended.trans hentry.2, hstopped⟩
    · exact sendFinOnStream_log v finOk

theorem sendFinOnStream_served (v : WebTransportBidirectionalEchoVisitor) (hbuffer : v.buffer = []) :
    (v.sendFinOnStream true).buffer = [] ∧
      ((v.sendFinOnStream true).sendFin = true → (v.sendFinOnStream true).finSent = true) := by
  unfold WebTransportBidirectionalEchoVisitor.sendFinOnStream
  split
  · exact ⟨hbuffer, fun _ => rfl⟩
  · next hdone => exact ⟨hbuffer, by simpa using hdone⟩

theorem onCanWrite_served (hstopped : v.stopSendingReceived = false) :
    (v.onCanWrite true true).buffer = [] ∧
      ((v.onCanWrite true true).sendFin = true → (v.onCanWrite true true).finSent = true) := by
  unfold WebTransportBidirectionalEchoVisitor.onCanWrite
  rw [if_neg (by simp [hstopped])]
  cases hbuffer : v.buffer.isEmpty with
  | true => exact sendFinOnStream_served v (List.isEmpty_iff.mp hbuffer)
  | false => exact sendFinOnStream_served { v.emit (.write v.buffer true) with buffer := [] } rfl

theorem regular_of_onCanWrite (hv : Echoing v) (ok : Bool × Bool)
    (hvisitor : x.visitor = some (v.onCanWrite ok.1 ok.2)) (hoffered : x.offered = (ok.1 && ok.2))
    (hunread : x.unread = []) (hread : bytesRead v.log = x.received)
    (hended : PeerEnded v.log ↔ x.fin = true ∨ x.reset = true) : Regular x := by
  obtain ⟨hsame, hpeer, hflag⟩ := onCanWrite_log v ok.1 ok.2
  refine ⟨fun hnone => absurd (hvisitor.symm.trans hnone) (by simp), fun w hw => ?_,
    fun w hw htook hstopped => ?_⟩
  · obtain rfl := Option.some.inj (hvisitor.symm.trans hw)
    exact ⟨hv.onCanWrite ok.1 ok.2, hunread, hsame.trans hread, hpeer.trans hended⟩
  · obtain rfl := Option.some.inj (hvisitor.symm.trans hw)
    obtain ⟨hwrite, hfin⟩ := (Bool.and_eq_true _ _).mp (hoffered.symm.trans htook)
    rw [hflag] at hstopped
    rw [hwrite, hfin]
    exact onCanWrite_served hstopped

theorem step_canRead (v : WebTransportBidirectionalEchoVisitor) (data : Str)
    (fin writeOk finOk : Bool) : v.step (.canRead data fin writeOk finOk) =
      { v.emit (.read data fin) with
        buffer := v.buffer ++ data
        sendFin := v.sendFin || fin }.onCanWrite writeOk finOk := by
  cases fin with
  | true =>
    rw [Bool.or_true]
    rfl
  | false =>
    rw [Bool.or_false]
    rfl

theorem peerEnded_read (data : Str) (fin : Bool) : PeerEnded [.read data fin] ↔ fin = true := by
  simp [PeerEnded, eq_comm]

theorem onCanRead_regular (hv : Echoing v) (hvisitor : x.visitor = some v) (ok : Bool × Bool)
    (hlate : PeerEnded v.log → x.unread = []) (hread : bytesRead v.log ++ x.unread = x.received)
    (hended : PeerEnded v.log ∨ x.fin = true ↔ x.fin = true ∨ x.reset = true) :
    Regular (x.onCanRead ok) := by
  refine regular_of_onCanWrite (hv.read hlate x.fin) ok ?_ rfl rfl ?_ ?_
  · rw [← step_canRead]
    exact congrArg (Option.map fun v => v.step (.canRead x.unread x.fin ok.1 ok.2)) hvisitor
  · refine (bytesRead_concat v.log _).trans (Eq.trans ?_ hread)
    simp [bytesRead]
  · refine (peerEnded_concat v.log _).trans (Iff.trans ?_ hended)
    exact or_congr_right (peerEnded_read x.unread x.fin)

theorem setVisitor_regular (h : Regular x) (hwaiting : x.visitor = none) (ok : Bool × Bool) :
    Regular ((x.setVisitor .new).onCanRead ok) := by
  obtain ⟨hunread, hreset⟩ := h.waiting hwaiting
  have hpeer : ¬ PeerEnded [] := by simp [PeerEnded]
  refine onCanRead_regular new_echoing rfl ok (fun h => absurd h hpeer) hunread ?_
  change PeerEnded [] ∨ x.fin = true ↔ x.fin = true ∨ x.reset = true
  rw [or_iff_right hpeer, hreset]
  simp

theorem new_regular : Regular .new where
  waiting _ := ⟨rfl, rfl⟩
  done _ hv := absurd hv (by simp [BidirectionalStream.new])
  served _ hv := absurd hv (by simp [BidirectionalStream.new])

theorem dataArrives_visitor (data : Str) (fin : Bool) (ok : Bool × Bool) (x : BidirectionalStream) :
    (x.dataArrives data fin ok).visitor.isSome = x.visitor.isSome := by
  unfold BidirectionalStream.dataArrives
  dsimp only
  split
  · rfl
  · split
    · exact Option.isSome_map
    · rfl

theorem onCanWrite_visitor (ok : Bool × Bool) (x : BidirectionalStream) :
    (x.onCanWrite ok).visitor.isSome = x.visitor.isSome := by
  unfold BidirectionalStream.onCanWrite
  split
  · exact Option.isSome_map
  · rfl

theorem onResetStreamReceived_visitor (ok : Bool × Bool) (x : BidirectionalStream) :
    (x.onResetStreamReceived ok).visitor.isSome = x.visitor.isSome := by
  unfold BidirectionalStream.onResetStreamReceived
  split
  · exact Option.isSome_map
  · rfl

theorem opened_regular : Regular (BidirectionalStream.new.setVisitor .new) where
  waiting hnone := absurd hnone (by simp [BidirectionalStream.setVisitor])
  done v hv := by
    obtain rfl := Option.some.inj hv
    exact ⟨new_echoing, rfl, rfl, by simp [PeerEnded, WebTransportBidirectionalEchoVisitor.new,
      BidirectionalStream.new, BidirectionalStream.setVisitor]⟩
  served v _ hoffered := absurd hoffered Bool.false_ne_true

theorem dataArrives_regular (h : Regular x) (data : Str) (fin : Bool) (ok : Bool × Bool) :
    Regular (x.dataArrives data fin ok) := by
  unfold BidirectionalStream.dataArrives
  by_cases hover : (x.fin || x.reset) = true
  · rw [if_pos hover]
    exact h
  · rw [if_neg hover]
    obtain ⟨hfin, hreset⟩ := Bool.or_eq_false_iff.mp (by simpa using hover)
    cases hvisitor : x.visitor with
    | none =>
      obtain ⟨hunread, -⟩ := h.waiting hvisitor
      dsimp only
      rw [if_neg (by simp)]
      refine ⟨fun _ => ⟨?_, hreset⟩, fun v hv => absurd hv (by simp), fun v hv => absurd hv (by simp)⟩
      exact congrArg (· ++ data) hunread
    | some v =>
      obtain ⟨hechoing, hunread, hread, hended⟩ := h.done v hvisitor
      have hpeer : ¬ PeerEnded v.log := by
        rw [hended]
        simp [hfin, hreset]
      dsimp only
      rw [if_pos (by simp)]
      refine onCanRead_regular hechoing rfl ok (fun h => absurd h hpeer) ?_ ?_
      · change bytesRead v.log ++ (x.unread ++ data) = x.received ++ data
        rw [hunread, List.nil_append, hread]
      · change PeerEnded v.log ∨ fin = true ↔ fin = true ∨ x.reset = true
        rw [or_iff_right hpeer, hreset]
        simp

theorem onCanWrite_regular (h : Regular x) (ok : Bool × Bool) : Regular (x.onCanWrite ok) := by
  unfold BidirectionalStream.onCanWrite
  cases hvisitor : x.visitor with
  | none =>
    rw [if_neg (by simp)]
    exact h
  | some v =>
    obtain ⟨hechoing, hunread, hread, hended⟩ := h.done v hvisitor
    rw [if_pos (by simp)]
    refine regular_of_onCanWrite hechoing ok ?_ rfl hunread hread hended
    exact congrArg (Option.map fun v => v.step (.canWrite ok.1 ok.2)) hvisitor

theorem onResetStreamReceived_regular (h : Regular x) (ok : Bool × Bool) :
    Regular (x.onResetStreamReceived ok) := by
  unfold BidirectionalStream.onResetStreamReceived
  cases hvisitor : x.visitor with
  | none =>
    rw [if_neg (by simp)]
    exact h
  | some v =>
    obtain ⟨hechoing, hunread, hread, -⟩ := h.done v hvisitor
    rw [if_pos (by simp)]
    refine regular_of_onCanWrite hechoing.reset ok ?_ rfl hunread ?_ ?_
    · exact congrArg (Option.map fun v => v.step (.resetStreamReceived ok.1 ok.2)) hvisitor
    · refine (bytesRead_concat v.log _).trans (Eq.trans ?_ hread)
      exact List.append_nil _
    · refine (peerEnded_concat v.log _).trans ?_
      exact iff_of_true (Or.inr (Or.inl List.mem_cons_self)) (Or.inr rfl)

theorem onStopSendingReceived_regular (h : Regular x) : Regular x.onStopSendingReceived := by
  cases hvisitor : x.visitor with
  | none =>
    have hsame : x.onStopSendingReceived = x := by
      unfold BidirectionalStream.onStopSendingReceived
      rw [hvisitor, Option.map_none, ← hvisitor]
    rw [hsame]
    exact h
  | some v =>
    obtain ⟨hechoing, hunread, hread, hended⟩ := h.done v hvisitor
    have hstopped : x.onStopSendingReceived.visitor = some v.onStopSendingReceived :=
      congrArg (Option.map WebTransportBidirectionalEchoVisitor.onStopSendingReceived) hvisitor
    refine ⟨fun hnone => absurd (hstopped.symm.trans hnone) (by simp), fun w hw => ?_,
      fun w hw _ hflag => ?_⟩
    · obtain rfl := Option.some.inj (hstopped.symm.trans hw)
      refine ⟨hechoing.stopSending, hunread, ?_, ?_⟩
      · refine (bytesRead_concat v.log _).trans (Eq.trans ?_ hread)
        exact List.append_nil _
      · refine (peerEnded_concat v.log _).trans (Iff.trans ?_ hended)
        exact or_iff_left (by simp [PeerEnded])
    · obtain rfl := Option.some.inj (hstopped.symm.trans hw)
      cases hflag

/-- What holds after every event: the streams that were announced, and no others, have an echo
    visitor, which echoes its own stream; the session visitor opens at most one stream; every
    datagram is answered. -/
structure SessionEchoes (s : EchoWebTransportSessionVisitor) : Prop where
  announced : ∀ i x, s.incoming[i]? = some x → (x.visitor.isSome = true ↔ i < s.announced)
  echoed : ∀ x ∈ s.incoming ++ s.outgoing, ∀ v, x.visitor = some v → Echoed x v
  opened : s.outgoing.length = if s.echoStreamOpened then 1 else 0
  answered : s.datagramsSent = List.replicate s.datagramsReceived
    EchoWebTransportSessionVisitor.datagramResponse

structure Accepting (s : EchoWebTransportSessionVisitor) : Prop where
  incoming : ∀ i x, s.incoming[i]? = some x →
    Regular x ∧ (x.visitor.isSome = true ↔ i < s.accepted)
  outgoing : ∀ x ∈ s.outgoing, Regular x
  bound : s.accepted ≤ s.incoming.length
  opened : s.outgoing.length = if s.echoStreamOpened then 1 else 0
  answered : s.datagramsSent = List.replicate s.datagramsReceived
    EchoWebTransportSessionVisitor.datagramResponse

structure SessionRegular (s : EchoWebTransportSessionVisitor) : Prop extends Accepting s where
  settled : s.accepted = s.announced

variable {s : EchoWebTransportSessionVisitor}

theorem getElem?_modify_some {xs : List BidirectionalStream} {index i : ℕ}
    {f : BidirectionalStream → BidirectionalStream} {y : BidirectionalStream}
    (hy : (xs.modify index f)[i]? = some y) :
    ∃ x, xs[i]? = some x ∧ y = if index = i then f x else x := by
  rw [List.getElem?_modify] at hy
  obtain ⟨x, hx, heq⟩ := Option.map_eq_some_iff.mp hy
  exact ⟨x, hx, heq.symm⟩

theorem onStream_regular (h : SessionRegular s) (name : StreamName)
    {f : BidirectionalStream → BidirectionalStream} (hregular : ∀ x, Regular x → Regular (f x))
    (hvisitor : ∀ x, (f x).visitor.isSome = x.visitor.isSome) :
    SessionRegular (s.onStream name f) := by
  cases name with
  | incoming index =>
    refine ⟨⟨fun i y hy => ?_, h.outgoing, ?_, h.opened, h.answered⟩, h.settled⟩
    · obtain ⟨x, hx, rfl⟩ := getElem?_modify_some hy
      obtain ⟨hx, hsome⟩ := h.incoming i x hx
      split
      · exact ⟨hregular x hx, by rw [hvisitor, hsome]; rfl⟩
      · exact ⟨hx, hsome⟩
    · exact le_of_le_of_eq h.bound (List.length_modify f s.incoming index).symm
  | opened =>
    refine ⟨⟨h.incoming, fun y hy => ?_, h.bound, ?_, h.answered⟩, h.settled⟩
    · obtain ⟨x, hx, rfl⟩ := List.mem_map.mp hy
      exact hregular x (h.outgoing x hx)
    · exact (List.length_map f).trans h.opened

theorem echoStream_length (results : Results) (index : ℕ) (s : EchoWebTransportSessionVisitor) :
    (s.echoStream results index).incoming.length = s.incoming.length :=
  (List.length_modify _ _ _).trans (List.length_modify _ _ _)

theorem echoStream_accepting (h : Accepting s) (hlt : s.accepted < s.incoming.length)
    (results : Results) :
    Accepting ({ s with accepted := s.accepted + 1 }.echoStream results s.accepted) := by
  have hbound := le_of_le_of_eq hlt (echoStream_length results s.accepted
    { s with accepted := s.accepted + 1 }).symm
  refine ⟨fun i z hz => ?_, h.outgoing, hbound, h.opened, h.answered⟩
  obtain ⟨y, hy, rfl⟩ := getElem?_modify_some hz
  obtain ⟨x, hx, rfl⟩ := getElem?_modify_some hy
  obtain ⟨hregular, hsome⟩ := h.incoming i x hx
  by_cases hi : s.accepted = i
  · subst hi
    have hwaiting : x.visitor = none := by
      rw [← Option.not_isSome_iff_eq_none, hsome]
      exact lt_irrefl _
    rw [if_pos rfl, if_pos rfl]
    exact ⟨setVisitor_regular hregular hwaiting _, iff_of_true rfl (Nat.lt_succ_self _)⟩
  · rw [if_neg hi, if_neg hi, hsome]
    refine ⟨hregular, ?_⟩
    change i < s.accepted ↔ i < s.accepted + 1
    omega

theorem acceptStreams_accepting (results : Results) (turns : ℕ) (h : Accepting s)
    (hturns : s.incoming.length - s.accepted < turns) :
    Accepting (s.acceptStreams results turns) ∧
      (s.acceptStreams results turns).accepted = s.incoming.length ∧
      (s.acceptStreams results turns).announced = s.announced := by
  induction turns generalizing s with
  | zero => exact absurd hturns (Nat.not_lt_zero _)
  | succ turns ih =>
    unfold EchoWebTransportSessionVisitor.acceptStreams
    unfold EchoWebTransportSessionVisitor.acceptIncomingBidirectionalStream
    by_cases hlt : s.accepted < s.incoming.length
    · rw [if_pos hlt]
      have hlength := echoStream_length results s.accepted { s with accepted := s.accepted + 1 }
      obtain ⟨hrest, hall, hsame⟩ := ih (echoStream_accepting h hlt results) (by
        rw [hlength]
        change s.incoming.length - (s.accepted + 1) < turns
        omega)
      exact ⟨hrest, hall.trans hlength, hsame⟩
    · rw [if_neg hlt]
      exact ⟨h, le_antisymm h.bound (not_lt.mp hlt), rfl⟩

theorem onCanCreate_regular (h : SessionRegular s) :
    SessionRegular s.onCanCreateNewOutgoingBidirectionalStream := by
  unfold EchoWebTransportSessionVisitor.onCanCreateNewOutgoingBidirectionalStream
  by_cases hopened : s.echoStreamOpened = true
  · rw [if_pos hopened]
    exact h
  · rw [if_neg hopened]
    have hnone : s.outgoing.length = 0 := by rw [h.opened, if_neg hopened]
    refine ⟨⟨h.incoming, fun x hx => ?_, h.bound, ?_, h.answered⟩, h.settled⟩
    · rcases List.mem_append.mp hx with hx | hx
      · exact h.outgoing x hx
      · obtain rfl := List.mem_singleton.mp hx
        exact opened_regular
    · rw [List.length_append, hnone]
      rfl

theorem streamArrives_regular (h : SessionRegular s) :
    SessionRegular { s with incoming := s.incoming ++ [.new] } := by
  refine ⟨⟨fun i x hx => ?_, h.outgoing, ?_, h.opened, h.answered⟩, h.settled⟩
  · rcases lt_or_ge i s.incoming.length with hi | hi
    · rw [List.getElem?_append_left hi] at hx
      exact h.incoming i x hx
    · rw [List.getElem?_append_right hi] at hx
      obtain rfl := List.mem_singleton.mp (List.mem_of_getElem? hx)
      refine ⟨new_regular, iff_of_false Bool.false_ne_true ?_⟩
      exact not_lt.mpr (Nat.le_trans h.bound hi)
  · rw [List.length_append]
    exact Nat.le_add_right_of_le h.bound

theorem streamAvailable_regular (h : SessionRegular s) (results : Results) :
    SessionRegular (s.onIncomingBidirectionalStreamAvailable results) := by
  have haccepting : Accepting { s with announced := s.incoming.length } := { h with }
  obtain ⟨hloop, hall, hsame⟩ := acceptStreams_accepting results
    (s.incoming.length - s.accepted + 1) haccepting (Nat.lt_succ_self _)
  exact ⟨hloop, hall.trans hsame.symm⟩

theorem step_regular (h : SessionRegular s) (e : SessionEvent) : SessionRegular (s.step e) := by
  cases e with
  | sessionReady canOpen =>
    cases canOpen with
    | true => exact onCanCreate_regular h
    | false => exact h
  | streamArrives => exact streamArrives_regular h
  | streamAvailable results => exact streamAvailable_regular h results
  | canCreateNewOutgoingBidirectionalStream => exact onCanCreate_regular h
  | datagramReceived datagram =>
    refine ⟨⟨h.incoming, h.outgoing, h.bound, h.opened, ?_⟩, h.settled⟩
    change s.datagramsSent ++ [_] = List.replicate (s.datagramsReceived + 1) _
    rw [h.answered, List.replicate_succ']
  | dataArrives name data fin ok =>
    exact onStream_regular h name (fun x hx => dataArrives_regular hx data fin ok)
      (dataArrives_visitor data fin ok)
  | canWrite name ok =>
    exact onStream_regular h name (fun x hx => onCanWrite_regular hx ok) (onCanWrite_visitor ok)
  | resetStreamReceived name ok =>
    exact onStream_regular h name (fun x hx => onResetStreamReceived_regular hx ok)
      (onResetStreamReceived_visitor ok)
  | stopSendingReceived name =>
    exact onStream_regular h name (fun x hx => onStopSendingReceived_regular hx)
      fun x => Option.isSome_map

theorem SessionRegular.echoes (h : SessionRegular s) : SessionEchoes s where
  announced i x hx := by
    rw [← h.settled]
    exact (h.incoming i x hx).2
  echoed x hx v hv := by
    rcases List.mem_append.mp hx with hx | hx
    · obtain ⟨i, hi⟩ := List.mem_iff_getElem?.mp hx
      exact (h.incoming i x hi).1.echoed hv
    · exact (h.outgoing x hx).echoed hv
  opened := h.opened
  answered := h.answered

theorem new_session_regular : SessionRegular .new where
  incoming i x hx := absurd hx (by simp [EchoWebTransportSessionVisitor.new])
  outgoing x hx := absurd hx List.not_mem_nil
  bound := le_rfl
  opened := rfl
  answered := rfl
  settled := rfl

/-- In every run, however the events of the streams come among each other. A stream that waits for
    its visitor is not reset in between. -/
theorem session_echoes (events : List SessionEvent) :
    Always EchoWebTransportSessionVisitor.step SessionEchoes .new events := by
  have hregular : Always EchoWebTransportSessionVisitor.step SessionRegular .new events :=
    always_of_each (P := fun _ _ => True) (fun _ e h _ => step_regular h e) new_session_regular
      (each_of_labels _ fun _ _ => trivial)
  exact hregular.imp fun _ h => h.echoes

end QuailServer.EchoSession
