import QuailServer.HeaderBlock

set_option autoImplicit false

namespace QuailServer.EchoVisitors
open HeaderBlock

inductive StreamEntry where
  | read (data : Str) (fin : Bool)
  | resetReceived
  | stopSendingReceived
  | write (data : Str) (ok : Bool)
  | sendFin (ok : Bool)
  deriving DecidableEq

structure WebTransportBidirectionalEchoVisitor where
  buffer : Str
  sendFin : Bool
  finSent : Bool
  stopSendingReceived : Bool
  log : List StreamEntry

/-- `writeOk` and `finOk` are what the stream answers if the visitor tries. -/
inductive StreamEvent where
  | canRead (data : Str) (fin writeOk finOk : Bool)
  | canWrite (writeOk finOk : Bool)
  | resetStreamReceived (writeOk finOk : Bool)
  | stopSendingReceived

namespace WebTransportBidirectionalEchoVisitor

def new : WebTransportBidirectionalEchoVisitor := ⟨[], false, false, false, []⟩

def emit (e : StreamEntry) (v : WebTransportBidirectionalEchoVisitor) :
    WebTransportBidirectionalEchoVisitor := { v with log := v.log ++ [e] }

def sendFinOnStream (finOk : Bool) (v : WebTransportBidirectionalEchoVisitor) :
    WebTransportBidirectionalEchoVisitor :=
  if v.sendFin && !v.finSent then
    let v := v.emit (.sendFin finOk)
    if finOk then { v with finSent := true } else v
  else v

def onCanWrite (writeOk finOk : Bool) (v : WebTransportBidirectionalEchoVisitor) :
    WebTransportBidirectionalEchoVisitor :=
  if v.stopSendingReceived then v
  else if !v.buffer.isEmpty then
    let v := v.emit (.write v.buffer writeOk)
    if !writeOk then v
    else sendFinOnStream finOk { v with buffer := [] }
  else v.sendFinOnStream finOk

def onCanRead (data : Str) (fin writeOk finOk : Bool) (v : WebTransportBidirectionalEchoVisitor) :
    WebTransportBidirectionalEchoVisitor :=
  let v := { v.emit (.read data fin) with buffer := v.buffer ++ data }
  let v := if fin then { v with sendFin := true } else v
  v.onCanWrite writeOk finOk

def onResetStreamReceived (writeOk finOk : Bool) (v : WebTransportBidirectionalEchoVisitor) :
    WebTransportBidirectionalEchoVisitor :=
  onCanWrite writeOk finOk { v.emit .resetReceived with sendFin := true }

def onStopSendingReceived (v : WebTransportBidirectionalEchoVisitor) :
    WebTransportBidirectionalEchoVisitor :=
  { v.emit .stopSendingReceived with stopSendingReceived := true }

def step (v : WebTransportBidirectionalEchoVisitor) :
    StreamEvent → WebTransportBidirectionalEchoVisitor
  | .canRead data fin writeOk finOk => v.onCanRead data fin writeOk finOk
  | .canWrite writeOk finOk => v.onCanWrite writeOk finOk
  | .resetStreamReceived writeOk finOk => v.onResetStreamReceived writeOk finOk
  | .stopSendingReceived => v.onStopSendingReceived

end WebTransportBidirectionalEchoVisitor

/-- An incoming stream with the `buffer_` of its `WebTransportUnidirectionalEchoReadVisitor`. -/
structure IncomingStream where
  received : Str
  unread : Str
  fin : Bool
  buffer : Str
  deriving DecidableEq

def IncomingStream.new : IncomingStream := ⟨[], [], false, []⟩

def IncomingStream.arrive (data : Str) (fin : Bool) (x : IncomingStream) : IncomingStream :=
  { x with received := x.received ++ data, unread := x.unread ++ data, fin := fin }

def IncomingStream.read (x : IncomingStream) : IncomingStream :=
  { x with buffer := x.buffer ++ x.unread, unread := [] }

inductive Sent where
  | data (bytes : Str)
  | fin
  deriving DecidableEq

structure OutgoingStream where
  /-- The `data` that the visitor was made with. -/
  contents : Str
  data : Str
  sent : List Sent
  /-- There was an `OnCanWrite` at a time when the stream took everything. -/
  offered : Bool
  deriving DecidableEq

def OutgoingStream.new (contents : Str) : OutgoingStream := ⟨contents, contents, [], false⟩

/-- `OnCanWrite`, when a write is answered with the first result and a FIN with the second. The
    failure of a FIN is only asserted not to happen. -/
def OutgoingStream.onCanWrite (ok : Bool × Bool) (x : OutgoingStream) : OutgoingStream :=
  let x := { x with offered := x.offered || (ok.1 && ok.2) }
  if x.data.isEmpty then x
  else if !ok.1 then x
  else
    let x := { x with data := [], sent := x.sent ++ [.data x.data] }
    if ok.2 then { x with sent := x.sent ++ [.fin] } else x

/-- The session and its visitor. Streams are counted from 0, and the incoming ones below
    `acceptedIncoming` have a visitor. -/
structure EchoWebTransportSessionVisitor where
  incoming : List IncomingStream
  acceptedIncoming : ℕ
  credit : ℕ
  outgoing : List OutgoingStream
  streamsToEchoBack : List Str
  completed : List (ℕ × Str)

/-- The results that newly opened streams give in their first `OnCanWrite`. -/
abbrev Results := ℕ → Bool × Bool

inductive SessionEvent where
  | streamArrives
  | dataArrives (index : ℕ) (data : Str) (fin : Bool) (results : Results)
  | streamAvailable (results : Results)
  /-- More streams may be opened; QUICHE calls `OnCanCreateNewOutgoingUnidirectionalStream`. -/
  | creditGranted (streams : ℕ) (results : Results)
  | canWrite (index : ℕ) (ok : Bool × Bool)

namespace EchoWebTransportSessionVisitor

def new (credit : ℕ) : EchoWebTransportSessionVisitor := ⟨[], 0, credit, [], [], []⟩

def canOpenNextOutgoingUnidirectionalStream (s : EchoWebTransportSessionVisitor) : Bool :=
  decide (s.outgoing.length < s.credit)

def echoBack (results : Results) (front : Str) (rest : List Str)
    (s : EchoWebTransportSessionVisitor) : EchoWebTransportSessionVisitor :=
  { s with
    streamsToEchoBack := rest
    outgoing := s.outgoing ++ [(OutgoingStream.new front).onCanWrite (results s.outgoing.length)] }

def sendQueued (results : Results) :
    List Str → EchoWebTransportSessionVisitor → EchoWebTransportSessionVisitor
  | [], s => s
  | front :: rest, s =>
    if s.canOpenNextOutgoingUnidirectionalStream then
      sendQueued results rest (s.echoBack results front rest)
    else s

def trySendingUnidirectionalStreams (results : Results) (s : EchoWebTransportSessionVisitor) :
    EchoWebTransportSessionVisitor :=
  sendQueued results s.streamsToEchoBack s

def streamCompleted (results : Results) (index : ℕ) (data : Str)
    (s : EchoWebTransportSessionVisitor) : EchoWebTransportSessionVisitor :=
  trySendingUnidirectionalStreams results { s with
    streamsToEchoBack := s.streamsToEchoBack ++ [data]
    completed := s.completed ++ [(index, data)] }

def onCanRead (results : Results) (index : ℕ) (s : EchoWebTransportSessionVisitor) :
    EchoWebTransportSessionVisitor :=
  match s.incoming[index]? with
  | none => s
  | some x =>
    let s := { s with incoming := s.incoming.set index x.read }
    if x.fin then s.streamCompleted results index x.read.buffer else s

def acceptIncomingUnidirectionalStream (s : EchoWebTransportSessionVisitor) :
    Option (ℕ × EchoWebTransportSessionVisitor) :=
  if s.acceptedIncoming < s.incoming.length then
    some (s.acceptedIncoming, { s with acceptedIncoming := s.acceptedIncoming + 1 })
  else none

def acceptStreams (results : Results) :
    ℕ → EchoWebTransportSessionVisitor → EchoWebTransportSessionVisitor
  | 0, s => s
  | turns + 1, s =>
    match s.acceptIncomingUnidirectionalStream with
    | none => s
    | some (index, s) => acceptStreams results turns (s.onCanRead results index)

/-- Each turn of the loop but the last takes one of the streams that are waiting. -/
def onIncomingUnidirectionalStreamAvailable (results : Results)
    (s : EchoWebTransportSessionVisitor) : EchoWebTransportSessionVisitor :=
  acceptStreams results (s.incoming.length - s.acceptedIncoming + 1) s

def onCanCreateNewOutgoingUnidirectionalStream (results : Results)
    (s : EchoWebTransportSessionVisitor) : EchoWebTransportSessionVisitor :=
  s.trySendingUnidirectionalStreams results

/-- Nothing arrives on a stream after its FIN. -/
def dataArrives (index : ℕ) (data : Str) (fin : Bool) (results : Results)
    (s : EchoWebTransportSessionVisitor) : EchoWebTransportSessionVisitor :=
  match s.incoming[index]? with
  | none => s
  | some x =>
    if x.fin then s
    else
      let s := { s with incoming := s.incoming.set index (x.arrive data fin) }
      if index < s.acceptedIncoming then s.onCanRead results index else s

def step (s : EchoWebTransportSessionVisitor) : SessionEvent → EchoWebTransportSessionVisitor
  | .streamArrives => { s with incoming := s.incoming ++ [.new] }
  | .dataArrives index data fin results => s.dataArrives index data fin results
  | .streamAvailable results => s.onIncomingUnidirectionalStreamAvailable results
  | .creditGranted streams results =>
    onCanCreateNewOutgoingUnidirectionalStream results { s with credit := s.credit + streams }
  | .canWrite index ok =>
    { s with outgoing := s.outgoing.modify index (OutgoingStream.onCanWrite ok) }

end EchoWebTransportSessionVisitor
end QuailServer.EchoVisitors
