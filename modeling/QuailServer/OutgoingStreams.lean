import Mathlib.Logic.Function.Basic
import QuailServer.WebTransport

set_option autoImplicit false

namespace QuailServer.OutgoingStreams
open HeaderBlock WebTransport

/-- The write side of a stream: the data of the writes that it accepted. -/
structure OutgoingStream where
  accepted : List Str
  deriving DecidableEq

def OutgoingStream.new : OutgoingStream := ⟨[]⟩

def OutgoingStream.bytes (x : OutgoingStream) : Str := x.accepted.flatten

/-- `quiche::WriteIntoStream` takes all of the data, or none of it from a stream that is blocked. -/
def writeIntoStream (unblocked : Bool) (data : Str) (x : OutgoingStream) : Bool × OutgoingStream :=
  if unblocked then (true, ⟨x.accepted ++ [data]⟩) else (false, x)

/-- A stream with a `QuitTransportStream`: `GetStreamById` finds it while it is alive. -/
structure TransportStream where
  alive : Bool
  outgoing : OutgoingStream
  deriving DecidableEq

structure Transport where
  streams : StreamId → TransportStream
  calls : List (StreamId × Str)
  /-- The null result of `GetStreamById` was dereferenced. -/
  nullDereferenced : Bool

inductive TransportEvent where
  | opened (id : StreamId)
  | closed (id : StreamId)
  | send (id : StreamId) (data : Str) (unblocked : Bool)
  | canWrite (id : StreamId) (unblocked : Bool)

namespace Transport

def new : Transport := ⟨fun _ => ⟨false, .new⟩, [], false⟩

def getStreamById (id : StreamId) (v : Transport) : Option TransportStream :=
  if (v.streams id).alive then some (v.streams id) else none

def setStream (id : StreamId) (x : TransportStream) (v : Transport) : Transport :=
  { v with streams := Function.update v.streams id x }

/-- The status of the write is only logged. -/
def send (id : StreamId) (data : Str) (unblocked : Bool) (v : Transport) : Transport :=
  let v := { v with calls := v.calls ++ [(id, data)] }
  match v.getStreamById id with
  | none => { v with nullDereferenced := true }
  | some x => v.setStream id { x with outgoing := (writeIntoStream unblocked data x.outgoing).2 }

/-- `QuitTransportStream::OnCanWrite` only logs. -/
def onCanWrite (_id : StreamId) (_unblocked : Bool) (v : Transport) : Transport := v

def step (v : Transport) : TransportEvent → Transport
  | .opened id => v.setStream id { v.streams id with alive := true }
  | .closed id => v.setStream id { v.streams id with alive := false }
  | .send id data unblocked => v.send id data unblocked
  | .canWrite id unblocked => v.onCanWrite id unblocked

end Transport

/-- The data of an incoming stream is read and dropped, so that only their number counts. -/
structure UniSession where
  incoming : ℕ
  acceptedIncoming : ℕ
  credit : ℕ
  outgoing : List OutgoingStream
  deriving DecidableEq

inductive UniEvent where
  | streamArrives
  | streamAvailable (unblocked : Bool)
  | creditGranted (streams : ℕ)
  | canWrite (index : ℕ) (unblocked : Bool)

/-- The `data_` of `QuitUniStreamWriteVisitor::OnCanWrite`. -/
def kReply : Str := "foo you"

def OutgoingStream.onCanWrite (unblocked : Bool) (x : OutgoingStream) : OutgoingStream :=
  (writeIntoStream unblocked kReply x).2

namespace UniSession

def new (credit : ℕ) : UniSession := ⟨0, 0, credit, []⟩

def canOpenNextOutgoingUnidirectionalStream (s : UniSession) : Bool :=
  decide (s.outgoing.length < s.credit)

def trySendingUnidirectionalStreams (unblocked : Bool) (s : UniSession) : UniSession :=
  if s.canOpenNextOutgoingUnidirectionalStream then
    { s with outgoing := s.outgoing ++ [OutgoingStream.new.onCanWrite unblocked] }
  else s

def onIncomingUnidirectionalStreamAvailable (unblocked : Bool) (s : UniSession) : UniSession :=
  match s.incoming with
  | 0 => s
  | incoming + 1 => trySendingUnidirectionalStreams unblocked
      { s with incoming := incoming, acceptedIncoming := s.acceptedIncoming + 1 }

def onCanCreateNewOutgoingUnidirectionalStream (s : UniSession) : UniSession := s

def step (s : UniSession) : UniEvent → UniSession
  | .streamArrives => { s with incoming := s.incoming + 1 }
  | .streamAvailable unblocked => s.onIncomingUnidirectionalStreamAvailable unblocked
  | .creditGranted streams =>
    onCanCreateNewOutgoingUnidirectionalStream { s with credit := s.credit + streams }
  | .canWrite index unblocked =>
    { s with outgoing := s.outgoing.modify index (OutgoingStream.onCanWrite unblocked) }

end UniSession
end QuailServer.OutgoingStreams
