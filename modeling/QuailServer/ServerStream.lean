import Mathlib.Algebra.GroupWithZero.Nat
import QuailServer.WebTransport

set_option autoImplicit false

namespace QuailServer.ServerStream
open HeaderBlock WebTransport

/-- The statement a header block was written by: the Early Hints loop of `Respond` or any
    other one. -/
inductive HeadersOrigin where
  | earlyHints
  | response
  deriving DecidableEq

inductive QuicResetStreamError where
  | streamConnectError
  | code (n : ℕ)
  deriving DecidableEq

/-- The calls of `QuicSimpleServerBackend` that get the stream as their request handler. -/
inductive BackendCall where
  | handleConnectHeaders (requestHeaders : Http2HeaderBlock)
  | handleConnectData (data : Str) (dataComplete : Bool)
  | fetchResponseFromBackend (requestHeaders : Http2HeaderBlock) (requestBody : Str)
  deriving DecidableEq

/-- The calls of `QuicSimpleServerBackend::RequestHandler` that act on the stream. -/
inductive HandlerCall where
  | onResponseBackendComplete (response : Option QuicBackendResponse)
  | sendStreamData (data : Str) (closeStream : Bool)
  | terminateStreamWithError (error : QuicResetStreamError)
  deriving DecidableEq

/-- What one `OnBodyAvailable` call finds: the readable regions, and whether the FIN follows
    them, so that consuming them closes the sequencer. -/
structure Delivery where
  regions : List Str
  fin : Bool
  deriving DecidableEq

def Delivery.bytes (d : Delivery) : Str := d.regions.flatten

inductive Effect where
  | writeHeaders (origin : HeadersOrigin) (block : Http2HeaderBlock) (fin : Bool)
  | writeOrBufferBody (data : Str) (fin : Bool)
  | writeTrailers (block : Http2HeaderBlock)
  | stopReading
  | resetWriteSide (error : QuicResetStreamError)
  | onUnrecoverableError
  /-- `std::out_of_range` thrown by `substr`. -/
  | outOfRange
  /-- `QUICHE_DCHECK_NE(response_headers.has_value(), response_sent_)`. -/
  | dcheckNe (hasValue responseSent : Bool)
  | dcheck (holds : Bool)
  | backendCall (call : BackendCall)
  | handlerCall (call : HandlerCall)
  | onBodyAvailable (delivery : Delivery)
  | sendResponse
  | onCanWrite
  | processWebTransportRequest (requestHeaders : Http2HeaderBlock) (response : WebTransportResponse)
  | setVisitor (visitor : QuitConverter)
  | headersReceived (requestHeaders : Http2HeaderBlock)
  deriving DecidableEq

/-- What the stream uses of QUICHE, abseil and googleurl. `SimpleAtoi` gives its result and
    what it leaves in its output argument; the send buffer may depend on all that happened. -/
structure Platform where
  parseHeaderStatusCode : Http2HeaderBlock → Option ℕ
  parse_status : ∀ block code, parseHeaderStatusCode block = some code →
    block.find ":status" = some (strCat code)
  simpleAtoi : Str → Bool × ℕ
  gurlPath : Str → Str
  hasBufferedData : List Effect → Bool

/-- A platform that never buffers: QUICHE takes three digits from 100 to 599 for a status, and
    googleurl cuts the path off at the query and the fragment. -/
def plainPlatform : Platform where
  parseHeaderStatusCode block :=
    (List.range' 100 500).find? fun code => decide (block.find ":status" = some (strCat code))
  parse_status block code h := by
    have hfound := List.find?_some h
    exact of_decide_eq_true hfound
  simpleAtoi text :=
    let value := text.foldl (fun n c => 10 * n + (c.toNat - '0'.toNat)) 0
    (!text.isEmpty && text.all Char.isDigit && decide (value < 2 ^ 64), value)
  gurlPath path := path.takeWhile fun c => c != '?' && c != '#'
  hasBufferedData _ := false

/-- `QuitServerStream`, with the fields of `QuicSpdyStream` that its code reads. What it does to QUICHE
    and to the backend is recorded in `trace`, in order. -/
structure QuitServerStream where
  id : StreamId
  requestHeaders : Http2HeaderBlock
  contentLength : ℤ
  body : Str
  generateBytesLength : ℕ
  responseSent : Bool
  delayedResponseAlarm : Option QuicBackendResponse
  headersComplete : Bool
  webTransport : Option WebTransportSession
  readingStopped : Bool
  readSideClosed : Bool
  writeSideClosed : Bool
  finBuffered : Bool
  trace : List Effect
  deriving DecidableEq

namespace QuitServerStream

def new (id : StreamId) : QuitServerStream where
  id := id
  requestHeaders := ∅
  contentLength := -1
  body := []
  generateBytesLength := 0
  responseSent := false
  delayedResponseAlarm := none
  headersComplete := false
  webTransport := none
  readingStopped := false
  readSideClosed := false
  writeSideClosed := false
  finBuffered := false
  trace := []

def emit (e : Effect) (s : QuitServerStream) : QuitServerStream := { s with trace := s.trace ++ [e] }

def writeHeaders (origin : HeadersOrigin) (block : Http2HeaderBlock) (fin : Bool)
    (s : QuitServerStream) : QuitServerStream :=
  { s.emit (.writeHeaders origin block fin) with finBuffered := s.finBuffered || fin }

def writeOrBufferBody (data : Str) (fin : Bool) (s : QuitServerStream) : QuitServerStream :=
  { s.emit (.writeOrBufferBody data fin) with finBuffered := s.finBuffered || fin }

def writeTrailers (block : Http2HeaderBlock) (s : QuitServerStream) : QuitServerStream :=
  { s.emit (.writeTrailers block) with finBuffered := true }

def stopReading (s : QuitServerStream) : QuitServerStream :=
  { s.emit .stopReading with readingStopped := true }

def resetWriteSide (error : QuicResetStreamError) (s : QuitServerStream) : QuitServerStream :=
  { s.emit (.resetWriteSide error) with writeSideClosed := true }

def onUnrecoverableError (s : QuitServerStream) : QuitServerStream :=
  { s.emit .onUnrecoverableError with readSideClosed := true, writeSideClosed := true }

def kErrorResponseBody : Str := "bad"

def kNotFoundResponseBody : Str := "file not found"

/-- The second half of `SendHeadersAndBodyAndTrailers`, after the headers. -/
def sendBodyAndTrailers (body : Str) (responseTrailers : Http2HeaderBlock)
    (s : QuitServerStream) : QuitServerStream :=
  let sendFin := responseTrailers.empty
  let s := if !body.isEmpty || sendFin then s.writeOrBufferBody body sendFin else s
  if sendFin then s else s.writeTrailers responseTrailers

def sendHeadersAndBodyAndTrailers (responseHeaders : Option Http2HeaderBlock) (body : Str)
    (responseTrailers : Http2HeaderBlock) (s : QuitServerStream) : QuitServerStream :=
  let s := s.emit (.dcheckNe responseHeaders.isSome s.responseSent)
  match responseHeaders with
  | some block =>
    let sendFin := body.isEmpty && responseTrailers.empty
    let s := { s.writeHeaders .response block sendFin with responseSent := true }
    if sendFin then s else s.sendBodyAndTrailers body responseTrailers
  | none => s.sendBodyAndTrailers body responseTrailers

def sendHeadersAndBody (responseHeaders : Http2HeaderBlock) (body : Str) (s : QuitServerStream) :
    QuitServerStream :=
  s.sendHeadersAndBodyAndTrailers (some responseHeaders) body ∅

def sendIncompleteResponse (q : Platform) (responseHeaders : Option Http2HeaderBlock) (body : Str)
    (s : QuitServerStream) : QuitServerStream :=
  let s := s.emit (.dcheckNe responseHeaders.isSome s.responseSent)
  let s := match responseHeaders with
    | some block =>
      -- An early 100 continue response does not count as the response.
      let s := if q.parseHeaderStatusCode block = some 100 then s else { s with responseSent := true }
      s.writeHeaders .response block false
    | none => s
  if body.isEmpty then s else s.writeOrBufferBody body false

/-- `SendErrorResponse(resp_code)`; `SendErrorResponse()` passes 0. -/
def sendErrorResponse (respCode : ℕ) (s : QuitServerStream) : QuitServerStream :=
  let s := if s.readingStopped then s else s.stopReading
  let status : Str := if respCode = 0 then "500" else strCat respCode
  s.sendHeadersAndBody (statusBlock status kErrorResponseBody) kErrorResponseBody

def sendNotFoundResponse (s : QuitServerStream) : QuitServerStream :=
  s.sendHeadersAndBody (statusBlock "404" kNotFoundResponseBody) kNotFoundResponseBody

def onInvalidHeaders (s : QuitServerStream) : QuitServerStream := s.sendErrorResponse 400

def kChunkSize : ℕ := 1024

def writeGeneratedBytes (q : Platform) (s : QuitServerStream) : QuitServerStream :=
  if _h : q.hasBufferedData s.trace = false ∧ 0 < s.generateBytesLength then
    let len := min kChunkSize s.generateBytesLength
    let left := s.generateBytesLength - len
    writeGeneratedBytes q
      (writeOrBufferBody (List.replicate len 'a') (left = 0) { s with generateBytesLength := left })
  else s
termination_by s.generateBytesLength
decreasing_by
  simp only [writeOrBufferBody, emit, kChunkSize]
  omega

def respondGenerateBytes (q : Platform) (response : QuicBackendResponse) (s : QuitServerStream) :
    QuitServerStream :=
  match s.requestHeaders.asString ":path" with
  | [] => s.emit .outOfRange
  | _ :: path =>
    let parsed := q.simpleAtoi path
    let s := { s with generateBytesLength := parsed.2 }
    if parsed.1 then
      let headers := response.headers.set "content-length" (strCat s.generateBytesLength)
      let s := (s.writeHeaders .response headers false).emit (.dcheck !s.responseSent)
      writeGeneratedBytes q { s with responseSent := true }
    else s.sendNotFoundResponse

def respond (q : Platform) (response : QuicBackendResponse) (s : QuitServerStream) :
    QuitServerStream :=
  let s := response.earlyHints.foldl (fun s headers => s.writeHeaders .earlyHints headers false) s
  if response.responseType = .closeConnection then s.onUnrecoverableError
  else if response.responseType = .ignoreRequest then s
  else if response.responseType = .backendErrResponse then s.sendErrorResponse 502
  else if q.parseHeaderStatusCode response.headers = none then s.sendErrorResponse 0
  else if response.responseType = .incompleteResponse then
    s.sendIncompleteResponse q (some response.headers) response.body
  else if response.responseType = .generateBytes then s.respondGenerateBytes q response
  else s.sendHeadersAndBodyAndTrailers (some response.headers) response.body response.trailers

/-- A delay sets `delayed_response_alarm_`, in place of an alarm that is already set. -/
def onResponseBackendComplete (q : Platform) (response : Option QuicBackendResponse)
    (s : QuitServerStream) : QuitServerStream :=
  match response with
  | none => s.sendNotFoundResponse
  | some r => if r.delay = 0 then s.respond q r else { s with delayedResponseAlarm := some r }

def sendStreamData (q : Platform) (data : Str) (closeStream : Bool) (s : QuitServerStream) :
    QuitServerStream :=
  let s := s.emit (.dcheck (!data.isEmpty || closeStream))
  if closeStream then s.sendHeadersAndBodyAndTrailers none data ∅
  else s.sendIncompleteResponse q none data

def terminateStreamWithError (error : QuicResetStreamError) (s : QuitServerStream) :
    QuitServerStream := s.resetWriteSide error

def handle (q : Platform) (call : HandlerCall) (s : QuitServerStream) : QuitServerStream :=
  let s := s.emit (.handlerCall call)
  match call with
  | .onResponseBackendComplete response => s.onResponseBackendComplete q response
  | .sendStreamData data closeStream => s.sendStreamData q data closeStream
  | .terminateStreamWithError error => s.terminateStreamWithError error

def onCanWrite (q : Platform) (s : QuitServerStream) : QuitServerStream :=
  (s.emit .onCanWrite).writeGeneratedBytes q

def onAlarm (q : Platform) (s : QuitServerStream) : QuitServerStream :=
  match s.delayedResponseAlarm with
  | some r => respond q r { s with delayedResponseAlarm := none }
  | none => s

end QuitServerStream
end QuailServer.ServerStream
