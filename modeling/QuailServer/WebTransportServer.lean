import Mathlib.Logic.Function.Basic
import QuailServer.ServerBackend
import QuailServer.StreamRuns

set_option autoImplicit false

namespace QuailServer.WebTransportServer
open HeaderBlock WebTransport ServerStream ServerBackend

/-- `QuitTransportStream`: its slot of `signal_message_` holds the converter of a session. -/
structure QuitTransportStream where
  streamId : StreamId
  signalMessage : List StreamId
  deriving DecidableEq

structure WebTransportStream where
  session : Option StreamId
  unread : Str
  fin : Bool
  visitor : Option QuitTransportStream
  deriving DecidableEq

def WebTransportStream.new : WebTransportStream := ⟨none, [], false, none⟩

inductive Entry where
  | on (path : Str) (callback : Callback)
  | request (id : StreamId) (effect : Effect)
  /-- The callback, if the iterator finds one, is called for the transport. -/
  | callback (callback : Option Callback) (transport : QuailTransport)
  | arrived (session stream : StreamId)
  | received (stream : StreamId) (data : Str)
  /-- `transport_->signal_message_(stream_id, message)`; `none` is a `transport_` never set. -/
  | message (transport : Option QuailTransport) (stream : StreamId) (data : Str)
  deriving DecidableEq

/-- A stream id stands for the stream, whatever its connection, and a session for its request stream. -/
structure Server where
  backend : QuailServerBackend
  requests : StreamId → QuitServerStream
  streams : StreamId → WebTransportStream
  log : List Entry

inductive ServerEvent where
  | on (path : Str) (callback : Callback)
  | request (id : StreamId) (event : Event)
  | sessionReady (session : StreamId)
  | streamArrives (session stream : StreamId)
  | dataArrives (stream : StreamId) (data : Str) (fin : Bool)
  | streamAvailable (session : StreamId)

namespace Server

def new : Server where
  backend := .new none none
  requests := .new
  streams _ := .new
  log := []

def session (v : Server) (id : StreamId) : Option WebTransportSession := (v.requests id).webTransport

def transport (v : Server) (id : StreamId) : Option QuailTransport :=
  (v.session id).bind fun w => w.visitor.bind QuitConverter.transport

def setSession (id : StreamId) (w : WebTransportSession) (v : Server) : Server :=
  { v with requests := Function.update v.requests id { v.requests id with webTransport := some w } }

def setStream (id : StreamId) (x : WebTransportStream) (v : Server) : Server :=
  { v with streams := Function.update v.streams id x }

def append (entries : List Entry) (v : Server) : Server := { v with log := v.log ++ entries }

/-- The backend of the request streams. What it does on other requests than WebTransport ones
    is arbitrary. -/
def streamBackend (q : Platform) (react : List Effect → List HandlerCall) (v : Server) : Backend where
  react := react
  processWebTransportRequest headers session :=
    v.backend.processWebTransportRequest q headers session

def on (path : Str) (callback : Callback) (v : Server) : Server :=
  { v with backend := v.backend.on path callback }.append [.on path callback]

def onRequest (q : Platform) (react : List Effect → List HandlerCall) (id : StreamId) (e : Event)
    (v : Server) : Server :=
  let s := step q (v.streamBackend q react) (v.requests id) e
  { v with requests := Function.update v.requests id s }.append
    ((s.trace.drop (v.requests id).trace.length).map (.request id))

def onSessionReady (id : StreamId) (w : WebTransportSession) (c : QuitConverter) (v : Server) :
    Server :=
  let transport : QuailTransport := ⟨c.session⟩
  (v.setSession id { w with ready := true, visitor := some { c with transport := some transport } }).append
    (c.signalTransport.map fun found => .callback (v.backend.callbacks.lookup found) transport)

def sessionReady (id : StreamId) (v : Server) : Server :=
  match v.session id with
  | some w =>
    if w.headersReceived && !w.ready then
      match w.visitor with
      | some c => v.onSessionReady id w c
      | none => v.setSession id { w with ready := true }
    else v
  | none => v

def streamArrives (id x : StreamId) (v : Server) : Server :=
  match v.session id, (v.streams x).session with
  | some w, none =>
    ((v.setStream x { v.streams x with session := some id }).setSession id
      { w with incomingBidirectionalStreams := w.incomingBidirectionalStreams ++ [x] }).append
      [.arrived id x]
  | _, _ => v

def onCanRead (x : StreamId) (visitor : QuitTransportStream) (v : Server) : Server :=
  let buffer := (v.streams x).unread
  (v.setStream x { v.streams x with unread := [] }).append
    (visitor.signalMessage.map fun id => .message (v.transport id) visitor.streamId buffer)

/-- Data goes to a stream that has arrived and had no FIN yet. An attached visitor is told. -/
def dataArrives (x : StreamId) (data : Str) (fin : Bool) (v : Server) : Server :=
  if (v.streams x).session.isSome && !(v.streams x).fin then
    let v := (v.setStream x { v.streams x with unread := (v.streams x).unread ++ data, fin := fin }).append
      [.received x data]
    match (v.streams x).visitor with
    | some visitor => v.onCanRead x visitor
    | none => v
  else v

/-- `QuitConverter::OnIncomingBidirectionalStreamAvailable`. `SetVisitor` does not announce data
    that is already readable. -/
def onIncomingBidirectionalStreamAvailable (id : StreamId) (w : WebTransportSession) (v : Server) :
    Server :=
  match w.incomingBidirectionalStreams with
  | [] => v
  | x :: incoming =>
    (v.setSession id { w with incomingBidirectionalStreams := incoming }).setStream x
      { v.streams x with visitor := some ⟨x, [id]⟩ }

def streamAvailable (id : StreamId) (v : Server) : Server :=
  match v.session id with
  | some w =>
    if w.ready && w.visitor.isSome then v.onIncomingBidirectionalStreamAvailable id w else v
  | none => v

def step (q : Platform) (react : List Effect → List HandlerCall) (v : Server) : ServerEvent → Server
  | .on path callback => v.on path callback
  | .request id event => v.onRequest q react id event
  | .sessionReady id => v.sessionReady id
  | .streamArrives id x => v.streamArrives id x
  | .dataArrives x data fin => v.dataArrives x data fin
  | .streamAvailable id => v.streamAvailable id

section Updates
variable (v : Server) (id j x y : StreamId) (w : WebTransportSession) (u : WebTransportStream)
  (entries : List Entry)

@[simp] theorem append_log : (v.append entries).log = v.log ++ entries := rfl
@[simp] theorem append_streams : (v.append entries).streams = v.streams := rfl

@[simp] theorem setStream_same : (v.setStream x u).streams x = u := Function.update_self ..

theorem setStream_streams :
    (v.setStream x u).streams y = if y = x then u else v.streams y := by
  unfold setStream
  exact Function.update_apply ..

@[simp] theorem setSession_streams : (v.setSession id w).streams = v.streams := rfl

theorem setSession_requests : (v.setSession id w).requests j =
    if j = id then { v.requests id with webTransport := some w } else v.requests j := by
  unfold setSession
  exact Function.update_apply ..

theorem setSession_session :
    (v.setSession id w).session j = if j = id then some w else v.session j := by
  unfold session
  rw [setSession_requests]
  split <;> rfl

end Updates
end Server

def serve (q : Platform) (react : List Effect → List HandlerCall) (events : List ServerEvent) : Server :=
  StepMachine.after (Server.step q react) .new events

end QuailServer.WebTransportServer
