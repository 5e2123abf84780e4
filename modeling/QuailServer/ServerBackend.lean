import QuailServer.Library.FirstWrite
import QuailServer.ServerStream

set_option autoImplicit false

namespace QuailServer.ServerBackend
open HeaderBlock WebTransport ServerStream

/-- A `std::function<void(QuailTransport*)>`, told apart from others by a number. -/
abbrev Callback := ℕ

structure QuailServerBackend where
  responses : Finmap fun _ : Str => QuicBackendResponse
  generateBytesResponse : Option QuicBackendResponse
  defaultResponse : Option QuicBackendResponse
  callbacks : Finmap fun _ : Str => Callback

/-- The `const QuicBackendResponse*` that `GetResponse` returns. -/
inductive ResponsePointer where
  | entry (key : Str)
  | generateBytes
  | default
  | nullptr
  deriving DecidableEq

namespace QuailServerBackend

/-- A new backend. Nothing in the code sets the two fallback responses. -/
def new (generateBytesResponse defaultResponse : Option QuicBackendResponse) : QuailServerBackend :=
  ⟨∅, generateBytesResponse, defaultResponse, ∅⟩

def getKey (host path : Str) : Str := host.takeWhile (fun c => c != ':') ++ path

def addResponseImpl (host path : Str) (responseType : SpecialResponseType)
    (responseHeaders : Http2HeaderBlock) (responseBody : Str) (responseTrailers : Http2HeaderBlock)
    (earlyHints : List Http2HeaderBlock) (b : QuailServerBackend) : QuailServerBackend :=
  let response := { QuicBackendResponse.new with
    responseType := responseType
    headers := responseHeaders
    body := responseBody
    trailers := responseTrailers
    earlyHints := earlyHints }
  { b with responses := FirstWrite.insertNew b.responses (getKey host path) response }

def addResponse (host path : Str) (responseHeaders : Http2HeaderBlock) (responseBody : Str)
    (b : QuailServerBackend) : QuailServerBackend :=
  b.addResponseImpl host path .regularResponse responseHeaders responseBody ∅ []

def indexKey : Str := "local2/index.html"

/-- The branch of `GetResponse` for a key that is not there. With a generate-bytes response the
    empty path has no defined result: the view starts one past its end. -/
def missing (q : Platform) (path : Str) (b : QuailServerBackend) : Option ResponsePointer :=
  let fallback := if b.defaultResponse.isSome then .default else .nullptr
  if b.generateBytesResponse.isSome then
    match path with
    | [] => none
    | _ :: digits => some (if (q.simpleAtoi digits).1 then .generateBytes else fallback)
  else some fallback

def getResponse (q : Platform) (_host path : Str) (b : QuailServerBackend) :
    Option ResponsePointer :=
  if indexKey ∈ b.responses then some (.entry indexKey) else b.missing q path

def deref (b : QuailServerBackend) : ResponsePointer → Option QuicBackendResponse
  | .entry key => b.responses.lookup key
  | .generateBytes => b.generateBytesResponse
  | .default => b.defaultResponse
  | .nullptr => none

def fetchResponseFromBackend (q : Platform) (requestHeaders : Http2HeaderBlock) (_requestBody : Str)
    (b : QuailServerBackend) : Option HandlerCall :=
  match requestHeaders.find ":authority", requestHeaders.find ":path" with
  | some authority, some path =>
    (b.getResponse q authority path).map fun response => .onResponseBackendComplete (b.deref response)
  | _, _ => some (.onResponseBackendComplete none)

/-- The slot that is connected holds the iterator `found`, here the key of its node. -/
def processWebTransportRequest (q : Platform) (requestHeaders : Http2HeaderBlock)
    (session : StreamId) (b : QuailServerBackend) : WebTransportResponse :=
  match requestHeaders.find ":path" with
  | none => ⟨Http2HeaderBlock.set ∅ ":status" "400", none⟩
  | some path =>
    if q.gurlPath path ∈ b.callbacks then
      ⟨Http2HeaderBlock.set ∅ ":status" "200",
        some ((QuitConverter.new session).connect (q.gurlPath path))⟩
    else ⟨Http2HeaderBlock.set ∅ ":status" "404", none⟩

def on (path : Str) (callback : Callback) (b : QuailServerBackend) : QuailServerBackend :=
  { b with callbacks := FirstWrite.insertNew b.callbacks path callback }

end QuailServerBackend
end QuailServer.ServerBackend
