import Mathlib.Data.Finset.Option
import QuailServer.SocketEvents

set_option autoImplicit false

namespace QuailServer.ServerLifetime
open SocketEvents StepMachine

structure EventLoop where
  id : ℕ
  registered : Option (ℕ × QuicEventLoop)
  deriving DecidableEq

/-- `EventLoopSocketFactory`, by the loop that it points to. -/
structure SocketFactory where
  eventLoop : ℕ
  deriving DecidableEq

/-- The dispatcher with the loop of its alarms and the socket of its writer. -/
structure Dispatcher where
  eventLoop : ℕ
  fd : ℕ
  state : QuicDispatcher
  deriving DecidableEq

structure QuitServer where
  eventLoop : Option EventLoop
  socketFactory : Option SocketFactory
  dispatcher : Option Dispatcher
  port : ℕ
  fd : Option ℕ
  overflowSupported : Bool
  silentClose : Bool
  deriving DecidableEq

/-- The constructor. `none` is the invalid socket. -/
def QuitServer.new : QuitServer := ⟨none, none, none, 0, none, false, false⟩

/-- A process with at most one server. `backendFactory` is the pointer that `SetSocketFactory`
    has given to the backend. Event loops, and what is made for them, are told apart by numbers. -/
structure Process where
  server : Option QuitServer
  backendFactory : Option SocketFactory
  openSockets : Finset ℕ
  eventLoops : ℕ
  nullDereferenced : Bool
  deriving DecidableEq

structure Creation where
  port : ℕ
  supportsEdgeTriggered : Bool
  socket : Option ℕ
  overflowSupported : Bool
  bound : Bool
  selfPort : ℕ
  registered : Bool
  deriving DecidableEq

def Creation.listens (c : Creation) : Bool := c.socket.isSome && c.bound && c.registered

inductive LifetimeEvent where
  | construct
  | createUDPSocketAndListen (c : Creation)
  | runEventLoopOnce (e : SocketEvent)
  | shutdown
  | destroy
  deriving DecidableEq

namespace Process

def new : Process := ⟨none, none, ∅, 0, false⟩

def nullDereference (p : Process) : Process := { p with nullDereferenced := true }

def setServer (s : QuitServer) (p : Process) : Process := { p with server := some s }

def createUDPSocketAndListen (c : Creation) (s : QuitServer) (p : Process) : Process :=
  let loop := p.eventLoops
  -- The assignments delete the loop and the factory of an earlier call.
  let s := { s with eventLoop := some ⟨loop, none⟩, socketFactory := some ⟨loop⟩, fd := c.socket }
  let p := { p with
    backendFactory := some ⟨loop⟩
    openSockets := p.openSockets ∪ c.socket.toFinset
    eventLoops := loop + 1 }
  match c.socket with
  | none => p.setServer s
  | some fd =>
    let s := { s with overflowSupported := c.overflowSupported }
    if !c.bound then p.setServer s
    else
      let s := { s with port := if c.port = 0 then c.selfPort else c.port }
      if !c.registered then p.setServer s
      else
        let listening := SocketEvents.QuitServer.createUDPSocketAndListen c.supportsEdgeTriggered
        p.setServer { s with
          eventLoop := some ⟨loop, some (fd, listening.eventLoop)⟩
          dispatcher := some ⟨loop, fd, listening.dispatcher⟩ }

/-- The loop calls `OnSocketEvent` for the socket that is registered. -/
def runEventLoopOnce (e : SocketEvent) (s : QuitServer) (p : Process) : Process :=
  match s.eventLoop with
  | none => p.nullDereference
  | some ⟨_, none⟩ => p
  | some ⟨loop, some (fd, l)⟩ =>
    match s.dispatcher with
    | none => if l.delivered e.ready = ⟨false, false⟩ then p else p.nullDereference
    | some d =>
      let turned := SocketEvents.QuitServer.turn ⟨l, d.state⟩ e
      p.setServer { s with
        eventLoop := some ⟨loop, some (fd, turned.eventLoop)⟩
        dispatcher := some { d with state := turned.dispatcher } }

def shutdown (s : QuitServer) (p : Process) : Process :=
  if !s.silentClose && s.dispatcher.isNone then p.nullDereference
  else p.setServer { s with dispatcher := none, eventLoop := none }

def destroy (p : Process) : Process :=
  match p.server with
  | none => p
  | some s =>
    { p with
      server := none
      backendFactory := none
      openSockets := p.openSockets \ s.fd.toFinset }

def call (f : QuitServer → Process → Process) (p : Process) : Process :=
  match p.server with
  | none => p.nullDereference
  | some s => f s p

def step (p : Process) : LifetimeEvent → Process
  | .construct => p.destroy.setServer .new
  | .createUDPSocketAndListen c => p.call (createUDPSocketAndListen c)
  | .runEventLoopOnce e => p.call (runEventLoopOnce e)
  | .shutdown => p.call shutdown
  | .destroy => p.destroy

end Process

inductive Phase where
  | absent
  | constructed
  /-- The last call of `CreateUDPSocketAndListen` got no socket. -/
  | waiting
  /-- It got a socket that could not be bound or registered. -/
  | opened
  | listening
  | shutDown
  deriving DecidableEq

def Creation.phase (c : Creation) : Phase :=
  if c.socket.isNone then .waiting else if c.listens then .listening else .opened

def Phase.next : Phase → LifetimeEvent → Option Phase
  | _, .construct => some .constructed
  | .constructed, .createUDPSocketAndListen c => some c.phase
  | .waiting, .createUDPSocketAndListen c => some c.phase
  | .waiting, .runEventLoopOnce _ => some .waiting
  | .opened, .runEventLoopOnce _ => some .opened
  | .listening, .runEventLoopOnce _ => some .listening
  | .listening, .shutdown => some .shutDown
  | _, .destroy => some .absent
  | _, _ => none

def phaseAfter (events : List LifetimeEvent) : Option Phase := follow Phase.next .absent events

/-- A socket that the system hands out is not open already. -/
def Fresh (p : Process) : LifetimeEvent → Prop
  | .createUDPSocketAndListen c => ∀ fd, c.socket = some fd → fd ∉ p.openSockets
  | _ => True

/-- Nothing null was used, no socket is lost, and no pointer dangles. -/
structure Sound (p : Process) : Prop where
  dereferenced : p.nullDereferenced = false
  sockets : ∀ fd ∈ p.openSockets, ∃ s, p.server = some s ∧ s.fd = some fd
  dispatcher : ∀ s d, p.server = some s → s.dispatcher = some d →
    s.fd = some d.fd ∧ ∃ l, s.eventLoop = some ⟨d.eventLoop, some (d.fd, l)⟩
  factory : ∀ f, p.backendFactory = some f → ∃ s, p.server = some s ∧ s.socketFactory = some f

structure Owns (p : Process) (s : QuitServer) : Prop where
  server : p.server = some s
  dereferenced : p.nullDereferenced = false
  closes : s.silentClose = false
  sockets : p.openSockets = s.fd.toFinset
  factory : p.backendFactory = s.socketFactory

def Phase.Parts (s : QuitServer) : Phase → Prop
  | .absent => False
  | .constructed => s.fd = none ∧ s.eventLoop = none ∧ s.dispatcher = none
  | .waiting => s.fd = none ∧ (∃ loop, s.eventLoop = some ⟨loop, none⟩) ∧ s.dispatcher = none
  | .opened => s.fd ≠ none ∧ (∃ loop, s.eventLoop = some ⟨loop, none⟩) ∧ s.dispatcher = none
  | .listening => ∃ loop fd l d, s.fd = some fd ∧ s.eventLoop = some ⟨loop, some (fd, l)⟩ ∧
      s.dispatcher = some ⟨loop, fd, d⟩
  | .shutDown => s.fd ≠ none ∧ s.eventLoop = none ∧ s.dispatcher = none

def InPhase (p : Process) (phase : Phase) : Prop :=
  (phase = .absent ∧ p.server = none ∧ p.nullDereferenced = false ∧ p.openSockets = ∅ ∧
    p.backendFactory = none) ∨ ∃ s, Owns p s ∧ phase.Parts s

theorem new_inPhase : InPhase .new .absent := Or.inl ⟨rfl, rfl, rfl, rfl, rfl⟩

theorem InPhase.sound {p : Process} {phase : Phase} (h : InPhase p phase) : Sound p := by
  rcases h with ⟨-, hserver, hok, hsockets, hfactory⟩ | ⟨s, hs, hparts⟩
  · refine ⟨hok, ?_, ?_, ?_⟩
    · simp [hsockets]
    · simp [hserver]
    · simp [hfactory]
  · refine ⟨hs.dereferenced, fun fd hfd => ⟨s, hs.server, ?_⟩, fun t d ht hd => ?_,
      fun f hf => ⟨s, hs.server, hs.factory.symm.trans hf⟩⟩
    · rw [hs.sockets, Option.mem_toFinset] at hfd
      exact hfd
    · obtain rfl : s = t := Option.some.inj (hs.server.symm.trans ht)
      cases phase with
      | absent => exact hparts.elim
      | constructed => exact absurd hd (by simp [hparts.2.2])
      | waiting => exact absurd hd (by simp [hparts.2.2])
      | opened => exact absurd hd (by simp [hparts.2.2])
      | listening =>
        obtain ⟨loop, fd, l, d', hfd, hloop, hd'⟩ := hparts
        obtain rfl := Option.some.inj (hd'.symm.trans hd)
        exact ⟨hfd, l, hloop⟩
      | shutDown => exact absurd hd (by simp [hparts.2.2])

theorem destroy_inPhase {p : Process} {phase : Phase} (h : InPhase p phase) :
    InPhase p.destroy .absent := by
  rcases h with ⟨-, hserver, hok, hsockets, hfactory⟩ | ⟨s, hs, -⟩
  · have hsame : p.destroy = p := by
      unfold Process.destroy
      rw [hserver]
    rw [hsame]
    exact Or.inl ⟨rfl, hserver, hok, hsockets, hfactory⟩
  · have hdestroyed : p.destroy =
        { p with server := none, backendFactory := none, openSockets := p.openSockets \ s.fd.toFinset } := by
      unfold Process.destroy
      rw [hs.server]
    rw [hdestroyed]
    refine Or.inl ⟨rfl, rfl, hs.dereferenced, ?_, rfl⟩
    change p.openSockets \ s.fd.toFinset = ∅
    rw [hs.sockets, Finset.sdiff_self]

theorem construct_inPhase {p : Process} {phase : Phase} (h : InPhase p phase) :
    InPhase (p.step .construct) .constructed := by
  rcases destroy_inPhase h with ⟨-, -, hok, hsockets, hfactory⟩ | ⟨s, -, hparts⟩
  · exact Or.inr ⟨.new, ⟨rfl, hok, rfl, hsockets, hfactory⟩, rfl, rfl, rfl⟩
  · exact hparts.elim

theorem call_eq {p : Process} {s : QuitServer} (hs : p.server = some s)
    (f : QuitServer → Process → Process) : p.call f = f s p := by
  unfold Process.call
  rw [hs]

theorem create_inPhase {p : Process} {s : QuitServer} (hs : Owns p s) (hfd : s.fd = none)
    (hdispatcher : s.dispatcher = none) (c : Creation) :
    InPhase (p.createUDPSocketAndListen c s) c.phase := by
  have hsockets : p.openSockets ∪ c.socket.toFinset = c.socket.toFinset := by
    rw [hs.sockets, hfd, Option.toFinset_none, Finset.empty_union]
  refine Or.inr ?_
  unfold Process.createUDPSocketAndListen Creation.phase Creation.listens
  cases hsocket : c.socket with
  | none =>
    rw [hsocket] at hsockets
    exact ⟨_, ⟨rfl, hs.dereferenced, hs.closes, hsockets, rfl⟩, rfl, ⟨_, rfl⟩, hdispatcher⟩
  | some fd =>
    rw [hsocket] at hsockets
    cases hbound : c.bound with
    | false =>
      exact ⟨_, ⟨rfl, hs.dereferenced, hs.closes, hsockets, rfl⟩, by simp, ⟨_, rfl⟩, hdispatcher⟩
    | true =>
      cases hregistered : c.registered with
      | false =>
        exact ⟨_, ⟨rfl, hs.dereferenced, hs.closes, hsockets, rfl⟩, by simp, ⟨_, rfl⟩, hdispatcher⟩
      | true =>
        exact ⟨_, ⟨rfl, hs.dereferenced, hs.closes, hsockets, rfl⟩, _, _, _, _, rfl, rfl, rfl⟩

theorem run_unregistered {s : QuitServer} (hloop : ∃ loop, s.eventLoop = some ⟨loop, none⟩)
    (e : SocketEvent) (p : Process) : p.runEventLoopOnce e s = p := by
  obtain ⟨loop, hloop⟩ := hloop
  unfold Process.runEventLoopOnce
  rw [hloop]

theorem run_listening {s : QuitServer} {loop fd : ℕ} {l : QuicEventLoop} {d : QuicDispatcher}
    (hloop : s.eventLoop = some ⟨loop, some (fd, l)⟩) (hd : s.dispatcher = some ⟨loop, fd, d⟩)
    (e : SocketEvent) (p : Process) :
    p.runEventLoopOnce e s = p.setServer { s with
      eventLoop := some ⟨loop, some (fd, (SocketEvents.QuitServer.turn ⟨l, d⟩ e).eventLoop)⟩
      dispatcher := some ⟨loop, fd, (SocketEvents.QuitServer.turn ⟨l, d⟩ e).dispatcher⟩ } := by
  unfold Process.runEventLoopOnce
  rw [hloop, hd]

theorem run_inPhase {p : Process} {s : QuitServer} {phase : Phase} (hs : Owns p s)
    (hparts : phase.Parts s) (hphase : phase = .waiting ∨ phase = .opened ∨ phase = .listening)
    (e : SocketEvent) : InPhase (p.runEventLoopOnce e s) phase := by
  rcases hphase with rfl | rfl | rfl
  · rw [run_unregistered hparts.2.1]
    exact Or.inr ⟨s, hs, hparts⟩
  · rw [run_unregistered hparts.2.1]
    exact Or.inr ⟨s, hs, hparts⟩
  · obtain ⟨loop, fd, l, d, hfd, hloop, hd⟩ := hparts
    rw [run_listening hloop hd]
    exact Or.inr ⟨_, ⟨rfl, hs.dereferenced, hs.closes, hs.sockets, hs.factory⟩,
      loop, fd, _, _, hfd, rfl, rfl⟩

theorem shutdown_inPhase {p : Process} {s : QuitServer} (hs : Owns p s)
    (hparts : Phase.listening.Parts s) : InPhase (p.shutdown s) .shutDown := by
  obtain ⟨loop, fd, l, d, hfd, -, hd⟩ := hparts
  have hshut : p.shutdown s = p.setServer { s with dispatcher := none, eventLoop := none } :=
    if_neg (by simp [hd])
  rw [hshut]
  exact Or.inr ⟨_, ⟨rfl, hs.dereferenced, hs.closes, hs.sockets, hs.factory⟩, by simp [hfd], rfl, rfl⟩

theorem step_inPhase {p : Process} {phase phase' : Phase} {e : LifetimeEvent} (h : InPhase p phase)
    (hnext : phase.next e = some phase') : InPhase (p.step e) phase' := by
  cases e with
  | construct =>
    obtain rfl : Phase.constructed = phase' := by cases phase <;> exact Option.some.inj hnext
    exact construct_inPhase h
  | destroy =>
    obtain rfl : Phase.absent = phase' := by cases phase <;> exact Option.some.inj hnext
    exact destroy_inPhase h
  | createUDPSocketAndListen c =>
    rcases h with ⟨rfl, -⟩ | ⟨s, hs, hparts⟩
    · cases hnext
    · have hstep : p.step (.createUDPSocketAndListen c) = p.createUDPSocketAndListen c s :=
        call_eq hs.server _
      rw [hstep]
      cases phase with
      | constructed => exact Option.some.inj hnext ▸ create_inPhase hs hparts.1 hparts.2.2 c
      | waiting => exact Option.some.inj hnext ▸ create_inPhase hs hparts.1 hparts.2.2 c
      | _ => cases hnext
  | runEventLoopOnce e =>
    rcases h with ⟨rfl, -⟩ | ⟨s, hs, hparts⟩
    · cases hnext
    · have hstep : p.step (.runEventLoopOnce e) = p.runEventLoopOnce e s := call_eq hs.server _
      rw [hstep]
      cases phase with
      | waiting => exact Option.some.inj hnext ▸ run_inPhase hs hparts (Or.inl rfl) e
      | opened => exact Option.some.inj hnext ▸ run_inPhase hs hparts (Or.inr (Or.inl rfl)) e
      | listening => exact Option.some.inj hnext ▸ run_inPhase hs hparts (Or.inr (Or.inr rfl)) e
      | _ => cases hnext
  | shutdown =>
    rcases h with ⟨rfl, -⟩ | ⟨s, hs, hparts⟩
    · cases hnext
    · have hstep : p.step .shutdown = p.shutdown s := call_eq hs.server _
      rw [hstep]
      cases phase with
      | listening => exact Option.some.inj hnext ▸ shutdown_inPhase hs hparts
      | _ => cases hnext

theorem nullDereference_not_sound (p : Process) : ¬ Sound p.nullDereference :=
  fun h => Bool.false_ne_true h.dereferenced.symm

theorem create_socket (c : Creation) (s : QuitServer) (p : Process) :
    (p.createUDPSocketAndListen c s).openSockets = p.openSockets ∪ c.socket.toFinset ∧
      ∃ t, (p.createUDPSocketAndListen c s).server = some t ∧ t.fd = c.socket := by
  unfold Process.createUDPSocketAndListen
  dsimp only
  cases hsocket : c.socket with
  | none => exact ⟨rfl, _, rfl, rfl⟩
  | some fd =>
    dsimp only
    split
    · exact ⟨rfl, _, rfl, rfl⟩
    · split
      · exact ⟨rfl, _, rfl, rfl⟩
      · exact ⟨rfl, _, rfl, rfl⟩

theorem create_not_sound {p : Process} {s : QuitServer} (hs : Owns p s) (hopen : s.fd ≠ none)
    {c : Creation} (fresh : ∀ fd, c.socket = some fd → fd ∉ p.openSockets) :
    ¬ Sound (p.createUDPSocketAndListen c s) := by
  intro h
  obtain ⟨old, hold⟩ := Option.ne_none_iff_exists'.mp hopen
  have hmem : old ∈ p.openSockets := by simp [hs.sockets, hold]
  obtain ⟨hsockets, t, ht, hfd⟩ := create_socket c s p
  obtain ⟨t', ht', hfd'⟩ := h.sockets old (hsockets ▸ Finset.mem_union_left _ hmem)
  obtain rfl := Option.some.inj (ht.symm.trans ht')
  exact fresh old (hfd.symm.trans hfd') hmem

theorem run_not_sound {s : QuitServer} (hloop : s.eventLoop = none) (e : SocketEvent) (p : Process) :
    ¬ Sound (p.runEventLoopOnce e s) := by
  unfold Process.runEventLoopOnce
  rw [hloop]
  exact nullDereference_not_sound p

theorem shutdown_not_sound {p : Process} {s : QuitServer} (hs : Owns p s)
    (hdispatcher : s.dispatcher = none) : ¬ Sound (p.shutdown s) := by
  have hnull : p.shutdown s = p.nullDereference := if_pos (by simp [hs.closes, hdispatcher])
  rw [hnull]
  exact nullDereference_not_sound p

theorem step_not_sound {p : Process} {phase : Phase} {e : LifetimeEvent} (h : InPhase p phase)
    (fresh : Fresh p e) (hnext : phase.next e = none) : ¬ Sound (p.step e) := by
  rcases h with ⟨rfl, hserver, -⟩ | ⟨s, hs, hparts⟩
  · have hnull : ∀ f, ¬ Sound (p.call f) := by
      intro f
      unfold Process.call
      rw [hserver]
      exact nullDereference_not_sound p
    cases e with
    | construct => cases hnext
    | destroy => cases hnext
    | createUDPSocketAndListen c => exact hnull _
    | runEventLoopOnce e => exact hnull _
    | shutdown => exact hnull _
  · cases e with
    | construct => cases phase <;> cases hnext
    | destroy => cases phase <;> cases hnext
    | createUDPSocketAndListen c =>
      have hstep : p.step (.createUDPSocketAndListen c) = p.createUDPSocketAndListen c s :=
        call_eq hs.server _
      rw [hstep]
      refine create_not_sound hs ?_ fresh
      cases phase with
      | absent => exact hparts.elim
      | constructed => cases hnext
      | waiting => cases hnext
      | opened => exact hparts.1
      | listening =>
        obtain ⟨loop, fd, l, d, hfd, -⟩ := hparts
        simp [hfd]
      | shutDown => exact hparts.1
    | runEventLoopOnce e =>
      have hstep : p.step (.runEventLoopOnce e) = p.runEventLoopOnce e s := call_eq hs.server _
      rw [hstep]
      cases phase with
      | absent => exact hparts.elim
      | constructed => exact run_not_sound hparts.2.1 e p
      | shutDown => exact run_not_sound hparts.2.1 e p
      | _ => cases hnext
    | shutdown =>
      have hstep : p.step .shutdown = p.shutdown s := call_eq hs.server _
      rw [hstep]
      cases phase with
      | absent => exact hparts.elim
      | constructed => exact shutdown_not_sound hs hparts.2.2
      | waiting => exact shutdown_not_sound hs hparts.2.2
      | opened => exact shutdown_not_sound hs hparts.2.2
      | listening => cases hnext
      | shutDown => exact shutdown_not_sound hs hparts.2.2

theorem followed_inPhase {p : Process} {phase last : Phase} (h : InPhase p phase)
    {events : List LifetimeEvent} (followed : follow Phase.next phase events = some last) :
    InPhase (after Process.step p events) last := by
  refine after_of_follow (R := InPhase) ?_ h followed
  intro p phase e phase' h hnext
  exact step_inPhase h hnext

theorem sound_iff_followed {p : Process} {phase : Phase} (h : InPhase p phase)
    {events : List LifetimeEvent} (fresh : Each Process.step Fresh p events) :
    Always Process.step Sound p events ↔ (follow Phase.next phase events).isSome = true := by
  refine always_iff_follow (R := InPhase) (Q := Fresh) ?_ ?_ ?_ h fresh
  · intro p phase h
    exact h.sound
  · intro p phase e phase' h hnext
    exact step_inPhase h hnext
  · intro p phase e h hfresh hnext
    exact step_not_sound h hfresh hnext

/-- Nothing null is used, no socket is lost and no pointer dangles, in every state of a run, just
    if the calls come in order. -/
theorem sound_iff_in_order (events : List LifetimeEvent) (fresh : Each Process.step Fresh .new events) :
    Always Process.step Sound .new events ↔ (phaseAfter events).isSome = true :=
  sound_iff_followed new_inPhase fresh

def onSocket (fd : ℕ) (bound : Bool) : Creation := ⟨4433, true, some fd, true, bound, 0, true⟩

theorem sound_iff_in_order_twice : ¬ Always Process.step Sound .new
    [.construct, .createUDPSocketAndListen (onSocket 3 true),
      .createUDPSocketAndListen (onSocket 4 true)] := by
  have hfresh : Each Process.step Fresh .new [.construct,
      .createUDPSocketAndListen (onSocket 3 true), .createUDPSocketAndListen (onSocket 4 true)] := by
    refine ⟨trivial, fun fd _ => Finset.notMem_empty fd, fun fd hfd => ?_, trivial⟩
    obtain rfl : 4 = fd := Option.some.inj hfd
    decide
  exact (sound_iff_in_order _ hfresh).not.mpr (by decide)

/-- A call of `Start`, as far as it got: it returns if the server cannot listen, and otherwise it
    handles events forever. -/
def start (c : Creation) (turns : List SocketEvent) : List LifetimeEvent :=
  .construct :: .createUDPSocketAndListen c ::
    if c.listens then turns.map .runEventLoopOnce else [.destroy]

theorem listening_turns (turns : List SocketEvent) :
    follow Phase.next .listening (turns.map .runEventLoopOnce) = some .listening := by
  induction turns with
  | nil => rfl
  | cons e turns ih => exact ih

theorem listens_phase {c : Creation} (h : c.listens = true) : c.phase = .listening := by
  have hsocket : c.socket.isNone = false := by
    simp only [Creation.listens, Bool.and_eq_true] at h
    simpa using h.1.1
  unfold Creation.phase
  rw [hsocket, h, if_neg Bool.false_ne_true, if_pos rfl]

theorem start_phase (phase : Phase) (c : Creation) (turns : List SocketEvent) :
    follow Phase.next phase (start c turns) = some (if c.listens then .listening else .absent) := by
  have hconstruct : phase.next .construct = some .constructed := by cases phase <;> rfl
  unfold start
  rw [follow_cons, hconstruct]
  change follow Phase.next c.phase _ = _
  cases hlistens : c.listens with
  | false =>
    have hdestroy : c.phase.next .destroy = some .absent := by cases c.phase <;> rfl
    change (c.phase.next .destroy).bind _ = _
    rw [hdestroy]
    rfl
  | true =>
    rw [listens_phase hlistens]
    exact listening_turns turns

theorem failed_phase (failed : List Creation) (hfailed : ∀ c ∈ failed, c.listens = false) :
    follow Phase.next .absent (failed.flatMap fun c => start c []) = some .absent := by
  induction failed with
  | nil => rfl
  | cons c failed ih =>
    rw [List.flatMap_cons, follow_append, start_phase, hfailed c List.mem_cons_self]
    exact ih fun c' hc' => hfailed c' (List.mem_cons_of_mem c hc')

theorem start_fresh {p : Process} (h : InPhase p .absent) (c : Creation) (turns : List SocketEvent) :
    Each Process.step Fresh p (start c turns) := by
  refine ⟨trivial, fun fd _ => ?_, ?_⟩
  · rcases construct_inPhase h with ⟨hphase, -⟩ | ⟨s, hs, hfd, -⟩
    · cases hphase
    · simp [hs.sockets, hfd]
  · have hlater : ∀ e ∈ (if c.listens then turns.map .runEventLoopOnce else [.destroy]),
        ∀ p, Fresh p e := by
      intro e he p
      split at he
      · obtain ⟨turn, -, rfl⟩ := List.mem_map.mp he
        trivial
      · obtain rfl := List.mem_singleton.mp he
        trivial
    exact each_iff_split.mpr fun before e rest heq => hlater e (heq ▸ by simp) _

theorem failed_fresh {p : Process} (h : InPhase p .absent) (failed : List Creation)
    (hfailed : ∀ c ∈ failed, c.listens = false) :
    Each Process.step Fresh p (failed.flatMap fun c => start c []) := by
  induction failed generalizing p with
  | nil => trivial
  | cons c failed ih =>
    have hstopped : follow Phase.next .absent (start c []) = some .absent := by
      rw [start_phase, hfailed c List.mem_cons_self]
      rfl
    refine each_append.mpr ⟨start_fresh h c [], ih ?_ fun c' hc' => hfailed c' (List.mem_cons_of_mem c hc')⟩
    exact followed_inPhase h hstopped

structure Serves (p : Process) (loop fd : ℕ) (v : SocketEvents.QuitServer) : Prop where
  server : ∃ s, p.server = some s ∧ s.eventLoop = some ⟨loop, some (fd, v.eventLoop)⟩ ∧
    s.dispatcher = some ⟨loop, fd, v.dispatcher⟩
  sockets : p.openSockets = {fd}
  factory : p.backendFactory = some ⟨loop⟩

theorem turn_serves {p : Process} {loop fd : ℕ} {v : SocketEvents.QuitServer} (h : Serves p loop fd v)
    (e : SocketEvent) : Serves (p.step (.runEventLoopOnce e)) loop fd (v.turn e) := by
  obtain ⟨s, hs, hloop, hd⟩ := h.server
  have hstep : p.step (.runEventLoopOnce e) = p.runEventLoopOnce e s := call_eq hs _
  rw [hstep, run_listening hloop hd]
  exact ⟨⟨_, rfl, rfl, rfl⟩, h.sockets, h.factory⟩

theorem turns_serve {p : Process} {loop fd : ℕ} {v : SocketEvents.QuitServer} (h : Serves p loop fd v)
    (turns : List SocketEvent) : Serves (after Process.step p (turns.map .runEventLoopOnce)) loop fd
      (after SocketEvents.QuitServer.turn v turns) := by
  induction turns generalizing p v with
  | nil => exact h
  | cons e turns ih => exact ih (turn_serves h e)

theorem start_serves {p : Process} (h : InPhase p .absent) {c : Creation} (hlistens : c.listens = true)
    (turns : List SocketEvent) : ∃ loop fd, c.socket = some fd ∧
      Serves (after Process.step p (start c turns)) loop fd (serve c.supportsEdgeTriggered turns) := by
  have hparts := hlistens
  simp only [Creation.listens, Bool.and_eq_true] at hparts
  obtain ⟨⟨hsocket, hbound⟩, hregistered⟩ := hparts
  obtain ⟨fd, hfd⟩ := Option.isSome_iff_exists.mp hsocket
  refine ⟨(p.step .construct).eventLoops, fd, hfd, ?_⟩
  unfold start
  rw [hlistens, if_pos rfl]
  refine turns_serve (p := (p.step .construct).step (.createUDPSocketAndListen c)) ?_ turns
  rcases construct_inPhase h with ⟨hphase, -⟩ | ⟨s, hs, hnone, -⟩
  · cases hphase
  · have hstep : (p.step .construct).step (.createUDPSocketAndListen c) =
        (p.step .construct).createUDPSocketAndListen c s :=
      call_eq hs.server (Process.createUDPSocketAndListen c)
    have hsockets : (p.step .construct).openSockets ∪ c.socket.toFinset = {fd} := by
      rw [hs.sockets, hnone, hfd, Option.toFinset_none, Finset.empty_union, Option.toFinset_some]
    rw [hstep]
    unfold Process.createUDPSocketAndListen
    rw [hfd] at hsockets ⊢
    rw [hbound, hregistered]
    exact ⟨⟨_, rfl, rfl, rfl⟩, hsockets, rfl⟩

/-- However often `Start` fails, it leaves nothing behind, and when it listens it handles its events
    on a loop, a dispatcher, a socket and a factory that are all alive. -/
theorem starts_leave_nothing (failed : List Creation) (hfailed : ∀ c ∈ failed, c.listens = false)
    (c : Creation) (turns : List SocketEvent) :
    let events := (failed.flatMap fun c => start c []) ++ start c turns
    let p := after Process.step .new events
    Always Process.step Sound .new events ∧
      (c.listens = false → p.server = none ∧ p.openSockets = ∅ ∧ p.backendFactory = none) ∧
      (c.listens = true → ∃ loop fd, c.socket = some fd ∧
        Serves p loop fd (serve c.supportsEdgeTriggered turns)) := by
  have hfailedRun : InPhase (after Process.step .new (failed.flatMap fun c => start c [])) .absent :=
    followed_inPhase new_inPhase (failed_phase failed hfailed)
  have hphase : phaseAfter ((failed.flatMap fun c => start c []) ++ start c turns) =
      some (if c.listens then .listening else .absent) := by
    unfold phaseAfter
    rw [follow_append, failed_phase failed hfailed]
    exact start_phase .absent c turns
  have hfresh : Each Process.step Fresh .new ((failed.flatMap fun c => start c []) ++ start c turns) :=
    each_append.mpr ⟨failed_fresh new_inPhase failed hfailed, start_fresh hfailedRun c turns⟩
  refine ⟨(sound_iff_followed new_inPhase hfresh).mpr (Option.isSome_of_eq_some hphase), fun hstopped => ?_, fun hlistens => ?_⟩
  · rw [hstopped] at hphase
    rcases followed_inPhase new_inPhase hphase with ⟨-, hserver, -, hsockets, hfactory⟩ | ⟨s, -, hparts⟩
    · exact ⟨hserver, hsockets, hfactory⟩
    · exact hparts.elim
  · rw [after_append]
    exact start_serves hfailedRun hlistens turns

theorem starts_leave_nothing_second : ∃ loop, Serves
    (after Process.step .new ((([onSocket 3 false].flatMap fun c => start c []) ++
      start (onSocket 3 true) [⟨kSocketEventReadable, false, [⟨20, false⟩], false⟩])))
    loop 3 (SocketEvents.serve true [⟨kSocketEventReadable, false, [⟨20, false⟩], false⟩]) := by
  have hfailed : ∀ c ∈ [onSocket 3 false], c.listens = false := by decide
  obtain ⟨-, -, hlistens⟩ := starts_leave_nothing [onSocket 3 false] hfailed (onSocket 3 true)
    [⟨kSocketEventReadable, false, [⟨20, false⟩], false⟩]
  obtain ⟨loop, fd, hfd, hserves⟩ := hlistens rfl
  obtain rfl : 3 = fd := Option.some.inj hfd
  exact ⟨loop, hserves⟩

end QuailServer.ServerLifetime
