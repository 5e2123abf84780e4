import QuailServer.ServerStream

set_option autoImplicit false

namespace QuailServer.ServerStream
open HeaderBlock WebTransport

/-- The backend as one stream sees it. `react` gives the calls it makes on its request handler
    before a call of the stream returns; it may depend on all that has happened. -/
structure Backend where
  react : List Effect → List HandlerCall
  processWebTransportRequest : Http2HeaderBlock → StreamId → WebTransportResponse

def silentBackend : Backend where
  react _ := []
  processWebTransportRequest _ _ := ⟨Http2HeaderBlock.set ∅ ":status" "404", none⟩

/-- The call `OnInitialHeadersComplete(fin, frame_len, header_list)`, with the outcome of the
    two validations of `header_list` (QUICHE's own and `CopyAndValidateHeaders`) and the
    `OnBodyAvailable` call that `ConsumeHeaderList` makes, if any. -/
structure InitialHeaders where
  fin : Bool
  receivedValid : Bool
  copiedValid : Bool
  contentLength : ℤ
  requestHeaders : Http2HeaderBlock
  webTransport : Bool
  bodyAvailable : Option Delivery
  webTransport_connect : webTransport = true → copiedValid = true →
    requestHeaders.find ":method" = some "CONNECT"

def connectHeaders (fin : Bool) (bodyAvailable : Option Delivery) : InitialHeaders where
  fin := fin
  receivedValid := true
  copiedValid := true
  contentLength := -1
  requestHeaders := (Http2HeaderBlock.set ∅ ":method" "CONNECT").set ":authority" "host:1"
  webTransport := false
  bodyAvailable := bodyAvailable
  webTransport_connect h := absurd h Bool.false_ne_true

namespace QuitServerStream

def isConnectRequest (s : QuitServerStream) : Bool :=
  decide (s.requestHeaders.find ":method" = some ("CONNECT" : Str))

def callBackend (q : Platform) (b : Backend) (call : BackendCall) (s : QuitServerStream) :
    QuitServerStream :=
  let s := s.emit (.backendCall call)
  (b.react s.trace).foldl (fun s c => s.handle q c) s

/-- The reading loop of `OnBodyAvailable`; `true` for the early return. While a region is left,
    `GetReadableRegions` finds it, so that the loop's `break` is not taken. -/
def readRegions : List Str → QuitServerStream → QuitServerStream × Bool
  | [], s => (s, false)
  | region :: regions, s =>
    let s := { s with body := s.body ++ region }
    if 0 ≤ s.contentLength ∧ s.contentLength < s.body.length then (s.sendErrorResponse 0, true)
    else readRegions regions s

def handleRequestConnectData (q : Platform) (b : Option Backend) (finReceived : Bool)
    (s : QuitServerStream) : QuitServerStream :=
  let s := s.emit (.dcheck s.isConnectRequest)
  match b with
  | none => s.resetWriteSide .streamConnectError
  | some b => callBackend q b (.handleConnectData s.body finReceived) { s with body := [] }

def setVisitor (visitor : QuitConverter) (s : QuitServerStream) : QuitServerStream :=
  { s.emit (.setVisitor visitor) with
      webTransport := s.webTransport.map fun w => { w with visitor := some visitor } }

def headersReceived (s : QuitServerStream) : QuitServerStream :=
  { s.emit (.headersReceived s.requestHeaders) with
      webTransport := s.webTransport.map fun w => { w with headersReceived := true } }

/-- The accept sequence that `OnInitialHeadersComplete` and `SendResponse` both contain. -/
def processWebTransport (b : Backend) (s : QuitServerStream) : QuitServerStream :=
  let response := b.processWebTransportRequest s.requestHeaders s.id
  let s := s.emit (.processWebTransportRequest s.requestHeaders response)
  if response.responseHeaders.find ":status" = some ("200" : Str) then
    let s := s.writeHeaders .response response.responseHeaders false
    let s := match response.visitor with
      | some visitor => s.setVisitor visitor
      | none => s
    s.headersReceived
  else s.writeHeaders .response response.responseHeaders true

def sendResponse (q : Platform) (b : Option Backend) (s : QuitServerStream) : QuitServerStream :=
  let s := (s.emit .sendResponse).emit (.dcheck !s.isConnectRequest)
  if s.requestHeaders.empty then s.sendErrorResponse 0
  else if 0 < s.contentLength ∧ s.contentLength ≠ s.body.length then s.sendErrorResponse 0
  else if s.requestHeaders.find ":authority" = none then s.sendErrorResponse 0
  else if s.requestHeaders.find ":path" = none then s.sendErrorResponse 0
  else match b with
    | none => s.sendErrorResponse 0
    | some b =>
      if s.webTransport.isSome then s.processWebTransport b
      else s.callBackend q b (.fetchResponseFromBackend s.requestHeaders s.body)

def onFinRead (s : QuitServerStream) : QuitServerStream := { s with readSideClosed := true }

def onBodyAvailable (q : Platform) (b : Option Backend) (d : Delivery) (s : QuitServerStream) :
    QuitServerStream :=
  match readRegions d.regions (s.emit (.onBodyAvailable d)) with
  | (s, true) => s
  | (s, false) =>
    if !d.fin then
      if s.isConnectRequest then s.handleRequestConnectData q b false else s
    else
      let s := s.onFinRead
      if s.writeSideClosed || s.finBuffered then s
      else if s.isConnectRequest then s.handleRequestConnectData q b true
      else s.sendResponse q b

/-- QUICHE calls `OnBodyAvailable` only while both reading and the read side are open. -/
def offerBody (q : Platform) (b : Option Backend) (d : Delivery) (s : QuitServerStream) :
    QuitServerStream :=
  if s.readingStopped || s.readSideClosed then s else s.onBodyAvailable q b d

def consumeHeaderList (q : Platform) (b : Option Backend) (bodyAvailable : Option Delivery)
    (s : QuitServerStream) : QuitServerStream :=
  match bodyAvailable with
  | some d => s.offerBody q b d
  | none => s

def baseOnInitialHeadersComplete (h : InitialHeaders) (s : QuitServerStream) : QuitServerStream :=
  if h.receivedValid then
    { s with headersComplete := true, webTransport := if h.webTransport then some .new else none }
  else { s with headersComplete := true }.onInvalidHeaders

def copyAndValidateHeaders (h : InitialHeaders) (s : QuitServerStream) : QuitServerStream :=
  let s := { s with contentLength := h.contentLength, requestHeaders := h.requestHeaders }
  if h.copiedValid then s else s.sendErrorResponse 0

/-- The second half of `OnInitialHeadersComplete`, after `ConsumeHeaderList()`. -/
def answerConnect (q : Platform) (b : Option Backend) (fin : Bool) (s : QuitServerStream) :
    QuitServerStream :=
  if !fin && !s.responseSent && s.isConnectRequest then
    match b with
    | none => s.sendErrorResponse 0
    | some b =>
      if s.webTransport.isSome then s.processWebTransport b
      else s.callBackend q b (.handleConnectHeaders s.requestHeaders)
  else s

def onInitialHeadersComplete (q : Platform) (b : Option Backend) (h : InitialHeaders)
    (s : QuitServerStream) : QuitServerStream :=
  let s := s.baseOnInitialHeadersComplete h
  -- The base class may have sent an error response already.
  let s := if !s.responseSent then s.copyAndValidateHeaders h else s
  (s.consumeHeaderList q b h.bodyAvailable).answerConnect q b h.fin

end QuitServerStream

def Effect.isBackendCall : Effect → Bool
  | .backendCall _ => true
  | _ => false

/-- An event that QUICHE does not deliver in the state at hand (a second header block, body data after
    `StopReading()` or after the FIN was consumed, a backend callback before the backend has seen the
    stream) leaves the stream unchanged. -/
inductive Event where
  | initialHeaders (h : InitialHeaders)
  | bodyAvailable (d : Delivery)
  /-- A callback of the backend from outside of any call of the stream. -/
  | handlerCall (call : HandlerCall)
  | alarm
  | canWrite
  | writeSideClosed

def step (q : Platform) (b : Backend) (s : QuitServerStream) : Event → QuitServerStream
  | .initialHeaders h => if s.headersComplete then s else s.onInitialHeadersComplete q (some b) h
  | .bodyAvailable d => if s.headersComplete then s.offerBody q (some b) d else s
  | .handlerCall call => if s.trace.any Effect.isBackendCall then s.handle q call else s
  | .alarm => s.onAlarm q
  | .canWrite => s.onCanWrite q
  | .writeSideClosed => { s with writeSideClosed := true }

end QuailServer.ServerStream
