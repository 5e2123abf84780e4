import QuailServer.HeaderBlock

set_option autoImplicit false

namespace QuailServer.WebTransport
open HeaderBlock

abbrev StreamId := ℕ

structure QuailTransport where
  session : StreamId
  deriving DecidableEq

/-- `quit::QuitConverter`. A slot of `signal_transport_` is the iterator into `callbacks_`
    captured by the lambda, given by the key of its node. `transport_` is a raw pointer
    that nothing sets before `OnSessionReady`. -/
structure QuitConverter where
  session : StreamId
  signalTransport : List Str
  transport : Option QuailTransport
  deriving DecidableEq

def QuitConverter.new (session : StreamId) : QuitConverter := ⟨session, [], none⟩

def QuitConverter.connect (c : QuitConverter) (found : Str) : QuitConverter :=
  { c with signalTransport := c.signalTransport ++ [found] }

structure WebTransportResponse where
  responseHeaders : Http2HeaderBlock
  visitor : Option QuitConverter
  deriving DecidableEq

/-- The QUICHE session object: its visitor, the incoming bidirectional streams that were
    not accepted yet, and how far it has got. -/
structure WebTransportSession where
  visitor : Option QuitConverter
  headersReceived : Bool
  ready : Bool
  incomingBidirectionalStreams : List StreamId
  deriving DecidableEq

def WebTransportSession.new : WebTransportSession := ⟨none, false, false, []⟩

end QuailServer.WebTransport
