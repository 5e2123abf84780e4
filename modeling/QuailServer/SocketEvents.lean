import QuailServer.Library.StepMachine

set_option autoImplicit false

namespace QuailServer.SocketEvents

/-- `QuicSocketEventMask`, without the error bit. -/
structure QuicSocketEventMask where
  readable : Bool
  writable : Bool
  deriving DecidableEq

def kSocketEventReadable : QuicSocketEventMask := ⟨true, false⟩

def kSocketEventWritable : QuicSocketEventMask := ⟨false, true⟩

namespace QuicSocketEventMask

def union (a b : QuicSocketEventMask) : QuicSocketEventMask :=
  ⟨a.readable || b.readable, a.writable || b.writable⟩

def inter (a b : QuicSocketEventMask) : QuicSocketEventMask :=
  ⟨a.readable && b.readable, a.writable && b.writable⟩

def minus (a b : QuicSocketEventMask) : QuicSocketEventMask :=
  ⟨a.readable && !b.readable, a.writable && !b.writable⟩

end QuicSocketEventMask

/-- The registration of `fd_`: the armed events, and the artificial ones that are pending. -/
structure QuicEventLoop where
  supportsEdgeTriggered : Bool
  armed : QuicSocketEventMask
  artificial : QuicSocketEventMask
  deriving DecidableEq

namespace QuicEventLoop

def registerSocket (supportsEdgeTriggered : Bool) (events : QuicSocketEventMask) : QuicEventLoop :=
  ⟨supportsEdgeTriggered, events, ⟨false, false⟩⟩

def rearmSocket (events : QuicSocketEventMask) (l : QuicEventLoop) : QuicEventLoop :=
  { l with armed := l.armed.union events }

def artificiallyNotifyEvent (events : QuicSocketEventMask) (l : QuicEventLoop) : QuicEventLoop :=
  { l with artificial := l.artificial.union events }

/-- The events the listener is called for when `ready` ones have occurred. -/
def delivered (ready : QuicSocketEventMask) (l : QuicEventLoop) : QuicSocketEventMask :=
  (ready.inter l.armed).union l.artificial

/-- The call takes the artificial events, and on a one-shot loop it disarms what it delivers. -/
def deliver (ready : QuicSocketEventMask) (l : QuicEventLoop) : QuicEventLoop :=
  { l with
    armed := if l.supportsEdgeTriggered then l.armed else l.armed.minus (l.delivered ready)
    artificial := l.artificial.minus (l.delivered ready) }

end QuicEventLoop

structure QuicDispatcher where
  bufferedChlos : ℕ
  hasPendingWrites : Bool
  deriving DecidableEq

structure Read where
  chlos : ℕ
  hasPendingWrites : Bool
  deriving DecidableEq

/-- What happens in one turn of the event loop: the events that have occurred, whether
    `ProcessBufferedChlos` leaves writes pending, the calls of `ReadAndDispatchPackets` up to
    the one that returns `false`, and whether `OnCanWrite` leaves writes pending. -/
structure SocketEvent where
  ready : QuicSocketEventMask
  chlosPendingWrites : Bool
  reads : List Read
  writePendingWrites : Bool
  deriving DecidableEq

namespace QuicDispatcher

def hasChlosBuffered (d : QuicDispatcher) : Bool := decide (0 < d.bufferedChlos)

def processBufferedChlos (maxConnectionsToCreate : ℕ) (hasPendingWrites : Bool)
    (d : QuicDispatcher) : QuicDispatcher :=
  ⟨d.bufferedChlos - min maxConnectionsToCreate d.bufferedChlos, hasPendingWrites⟩

def readAndDispatchPackets (r : Read) (d : QuicDispatcher) : QuicDispatcher :=
  ⟨d.bufferedChlos + r.chlos, r.hasPendingWrites⟩

def onCanWrite (hasPendingWrites : Bool) (d : QuicDispatcher) : QuicDispatcher :=
  { d with hasPendingWrites := hasPendingWrites }

end QuicDispatcher

structure QuitServer where
  eventLoop : QuicEventLoop
  dispatcher : QuicDispatcher
  deriving DecidableEq

def kNumSessionsToCreatePerSocketEvent : ℕ := 16

namespace QuitServer

def createUDPSocketAndListen (supportsEdgeTriggered : Bool) : QuitServer where
  eventLoop := .registerSocket supportsEdgeTriggered (kSocketEventReadable.union kSocketEventWritable)
  dispatcher := ⟨0, false⟩

def onReadable (e : SocketEvent) (s : QuitServer) : QuitServer :=
  let dispatcher := s.dispatcher.processBufferedChlos kNumSessionsToCreatePerSocketEvent
    e.chlosPendingWrites
  let dispatcher := e.reads.foldl (fun d r => d.readAndDispatchPackets r) dispatcher
  let eventLoop := if dispatcher.hasChlosBuffered then
      s.eventLoop.artificiallyNotifyEvent kSocketEventReadable
    else s.eventLoop
  let eventLoop := if !eventLoop.supportsEdgeTriggered then
      eventLoop.rearmSocket kSocketEventReadable
    else eventLoop
  ⟨eventLoop, dispatcher⟩

def onWritable (e : SocketEvent) (s : QuitServer) : QuitServer :=
  let dispatcher := s.dispatcher.onCanWrite e.writePendingWrites
  let eventLoop := if !s.eventLoop.supportsEdgeTriggered && dispatcher.hasPendingWrites then
      s.eventLoop.rearmSocket kSocketEventWritable
    else s.eventLoop
  ⟨eventLoop, dispatcher⟩

def onSocketEvent (events : QuicSocketEventMask) (e : SocketEvent) (s : QuitServer) : QuitServer :=
  let s := if events.readable then s.onReadable e else s
  if events.writable then s.onWritable e else s

def turn (s : QuitServer) (e : SocketEvent) : QuitServer :=
  onSocketEvent (s.eventLoop.delivered e.ready) e { s with eventLoop := s.eventLoop.deliver e.ready }

end QuitServer

def serve (supportsEdgeTriggered : Bool) (events : List SocketEvent) : QuitServer :=
  StepMachine.after QuitServer.turn (.createUDPSocketAndListen supportsEdgeTriggered) events

end QuailServer.SocketEvents
