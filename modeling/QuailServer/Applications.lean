import QuailServer.IncomingMessages
import QuailServer.OutgoingMessages

set_option autoImplicit false

namespace QuailServer.Applications
open HeaderBlock WebTransport ServerStream ServerBackend WebTransportServer OutgoingStreams
  OutgoingMessages StepMachine FirstWrite

/-- A slot of `signal_message_`, as the text that it sends for a message. -/
abbrev Slot := Str → Str

/-- The slots that a callback connects on the transport it is given. -/
abbrev Application := Callback → List Slot

structure Running where
  server : Server
  signalMessage : StreamId → List Slot
  outgoing : Transport

inductive RunningEvent where
  /-- The streams take what the application sends meanwhile, or they are blocked. -/
  | server (event : ServerEvent) (unblocked : Bool)
  | closed (stream : StreamId)
  | canWrite (stream : StreamId) (unblocked : Bool)

namespace Running

def new : Running := ⟨.new, fun _ => [], .new⟩

def call (app : Application) (unblocked : Bool) (v : Running) : Entry → Running
  | .arrived _ x => { v with outgoing := v.outgoing.step (.opened x) }
  | .callback (some callback) transport =>
    { v with
      signalMessage := Function.update v.signalMessage transport.session
        (v.signalMessage transport.session ++ app callback) }
  | .message (some transport) x data =>
    { v with
      outgoing := (v.signalMessage transport.session).foldl
        (fun outgoing slot => outgoing.send x (slot data) unblocked) v.outgoing }
  | _ => v

/-- The application is called while the server takes its step. The server reads nothing that the
    application writes, so that the calls may as well follow the step. -/
def step (q : Platform) (react : List Effect → List HandlerCall) (app : Application) (v : Running) :
    RunningEvent → Running
  | .server event unblocked =>
    let server := v.server.step q react event
    (server.log.drop v.server.log.length).foldl (call app unblocked) { v with server := server }
  | .closed x => { v with outgoing := v.outgoing.step (.closed x) }
  | .canWrite x unblocked => { v with outgoing := v.outgoing.step (.canWrite x unblocked) }

end Running

def runApplication (q : Platform) (react : List Effect → List HandlerCall) (app : Application)
    (events : List RunningEvent) : Running :=
  after (Running.step q react app) .new events

def slots (app : Application) (id : StreamId) (log : List Entry) : List Slot :=
  (callbacks id log).flatMap fun found => found.elim [] app

def signals (x : StreamId) (log : List Entry) : List Str :=
  log.flatMap fun
    | .message (some _) x' data => if x' = x then [data] else []
    | _ => []

def sends (x : StreamId) (calls : List (StreamId × Str)) : List Str :=
  calls.flatMap fun call => if call.1 = x then [call.2] else []

def replies (app : Application) (x : StreamId) (before : List Entry) : Entry → List Str
  | .message (some transport) x' data =>
    if x' = x then (slots app transport.session before).map fun slot => slot data else []
  | _ => []

theorem slots_append (app : Application) (id : StreamId) (t u : List Entry) :
    slots app id (t ++ u) = slots app id t ++ slots app id u := by
  unfold slots
  rw [callbacks_append, List.flatMap_append]

theorem sends_append (x : StreamId) (t u : List (StreamId × Str)) :
    sends x (t ++ u) = sends x t ++ sends x u := List.flatMap_append

theorem send_calls (o : Transport) (x : StreamId) (data : Str) (unblocked : Bool) :
    (o.send x data unblocked).calls = o.calls ++ [(x, data)] := by
  unfold Transport.send
  dsimp only
  split <;> rfl

theorem sends_calls (slots : List Slot) (o : Transport) (x : StreamId) (data : Str) (unblocked : Bool) :
    (slots.foldl (fun o slot => o.send x (slot data) unblocked) o).calls =
      o.calls ++ slots.map fun slot => (x, slot data) := by
  induction slots generalizing o with
  | nil => simp
  | cons slot slots ih => rw [List.foldl_cons, ih, send_calls]; simp

structure Kept (app : Application) (log : List Entry) (v : Running) : Prop where
  slots : ∀ id, v.signalMessage id = slots app id log
  sends : ∀ x, sends x v.outgoing.calls = History.collect (replies app x) [] log

theorem call_slots (app : Application) (unblocked : Bool) (v : Running) (e : Entry) (id : StreamId) :
    (v.call app unblocked e).signalMessage id = v.signalMessage id ++ slots app id [e] := by
  cases e with
  | callback found transport =>
    cases found with
    | none => simp [Running.call, slots, callbacks]
    | some callback =>
      change Function.update v.signalMessage _ _ id = _
      rw [Function.update_apply]
      by_cases hid : id = transport.session
      · subst hid
        simp [slots, callbacks]
      · simp [slots, callbacks, hid, Ne.symm hid]
  | message transport x data => cases transport <;> simp [Running.call, slots, callbacks]
  | _ => simp [Running.call, slots, callbacks]

theorem call_sends {app : Application} {log : List Entry} {v : Running}
    (h : ∀ id, v.signalMessage id = slots app id log) (unblocked : Bool) (e : Entry) (x : StreamId) :
    sends x (v.call app unblocked e).outgoing.calls =
      sends x v.outgoing.calls ++ replies app x log e := by
  cases e with
  | message transport y data =>
    cases transport with
    | none => exact (List.append_nil _).symm
    | some transport =>
      unfold Running.call
      simp only [sends_calls, sends_append, h, replies]
      congr 1
      by_cases hx : y = x
      · simp [sends, hx, List.map_eq_flatMap, List.flatMap_assoc]
      · simp [sends, hx]
  | callback found transport => cases found <;> exact (List.append_nil _).symm
  | _ => exact (List.append_nil _).symm

theorem call_kept {app : Application} {log : List Entry} {v : Running} (h : Kept app log v)
    (unblocked : Bool) (e : Entry) : Kept app (log ++ [e]) (v.call app unblocked e) where
  slots id := by rw [call_slots, h.slots, slots_append]
  sends x := by
    rw [call_sends h.slots, h.sends x, History.collect_append]
    simp [History.collect]

theorem calls_kept {app : Application} {log : List Entry} {v : Running} (h : Kept app log v)
    (unblocked : Bool) (entries : List Entry) :
    Kept app (log ++ entries) (entries.foldl (Running.call app unblocked) v) := by
  induction entries generalizing log v with
  | nil =>
    rw [List.append_nil]
    exact h
  | cons e entries ih =>
    have hnext := ih (call_kept h unblocked e)
    rw [List.append_assoc] at hnext
    exact hnext

/-- A message is signalled only after the session was given to its callback. -/
def Announced (before : List Entry) (e : Entry) : Prop :=
  ∀ transport x data, e = .message (some transport) x data → callbacks transport.session before ≠ []

theorem announced_quiet {before entries : List Entry}
    (h : ∀ e ∈ entries, ∀ transport x data, e ≠ .message transport x data) :
    History.Holds Announced before entries := by
  refine History.holds_of_all fun e he before transport x data heq => ?_
  exact absurd heq (h e he (some transport) x data)

section Steps
variable {q : Platform} {v : Server}

theorem transport_called (h : Linked q v) {id : StreamId} (ht : v.transport id = some ⟨id⟩) :
    callbacks id v.log ≠ [] := by
  rcases h.routes id with hw | ⟨headers, response, path, w, hg⟩
  · unfold Server.transport at ht
    cases hsession : v.session id with
    | none =>
      rw [hsession] at ht
      cases ht
    | some w =>
      rw [hsession, Option.bind_some, (hw.idle w hsession).1] at ht
      cases ht
  · unfold Server.transport at ht
    rw [hg.opened, Option.bind_some, hg.visitor, Option.bind_some] at ht
    rw [hg.called]
    cases hready : w.ready with
    | true => simp
    | false =>
      rw [hready] at ht
      cases ht

structure Logged (v v' : Server) (e : ServerEvent) (entries : List Entry) : Prop where
  log : v'.log = v.log ++ entries
  announced : History.Holds Announced v.log entries
  registered : (∀ path callback, e ≠ .on path callback) → registrations entries = []
  heard : ∀ transport x data, .message transport x data ∈ entries → ∃ new fin,
    e = .dataArrives x new fin ∧ IncomingMessages.Open v x ∧ (v.streams x).visitor.isSome = true

theorem logged_quiet {v' : Server} {e : ServerEvent} {entries : List Entry}
    (hlog : v'.log = v.log ++ entries) (hquiet : ∀ transport x data, .message transport x data ∉ entries)
    (hreg : (∀ path callback, e ≠ .on path callback) → registrations entries = []) :
    Logged v v' e entries := by
  refine ⟨hlog, announced_quiet ?_, hreg, fun transport x data hmem => ?_⟩
  · rintro e he transport x data rfl
    exact hquiet transport x data he
  · exact absurd hmem (hquiet transport x data)

def arriving (v : Server) (x : StreamId) (data : Str) (fin : Bool) : Server :=
  (v.setStream x { v.streams x with unread := (v.streams x).unread ++ data, fin := fin }).append
    [.received x data]

theorem arriving_stream (v : Server) (x : StreamId) (data : Str) (fin : Bool) :
    (arriving v x data fin).streams x =
      { v.streams x with unread := (v.streams x).unread ++ data, fin := fin } :=
  Server.setStream_same ..

def read (v : Server) (x : StreamId) (visitor : Option QuitTransportStream) : Server :=
  visitor.elim v fun visitor => v.onCanRead x visitor

theorem dataArrives_open {x : StreamId} (hopen : IncomingMessages.Open v x) (data : Str) (fin : Bool) :
    v.dataArrives x data fin = read (arriving v x data fin) x (v.streams x).visitor := by
  have hsame := congrArg WebTransportStream.visitor (arriving_stream v x data fin)
  unfold Server.dataArrives
  rw [if_pos (by simp [hopen.1, hopen.2])]
  dsimp only
  split
  · next visitor hvisitor =>
    exact (congrArg (read (arriving v x data fin) x) (hsame.symm.trans hvisitor)).symm
  · next hvisitor =>
    exact (congrArg (read (arriving v x data fin) x) (hsame.symm.trans hvisitor)).symm

theorem dataArrives_log (h : Linked q v) {x : StreamId} (hopen : IncomingMessages.Open v x)
    (data : Str) (fin : Bool) : (v.dataArrives x data fin).log = v.log ++ [.received x data] ∨
      ∃ id, callbacks id v.log ≠ [] ∧ (v.streams x).visitor.isSome = true ∧
        (v.dataArrives x data fin).log = v.log ++ [.received x data,
          .message (some ⟨id⟩) x ((v.streams x).unread ++ data)] := by
  rw [dataArrives_open hopen]
  cases hvisitor : (v.streams x).visitor with
  | none => exact Or.inl rfl
  | some visitor =>
    obtain ⟨id, rfl, -, ht⟩ := (h.stream x).visitor visitor hvisitor
    refine Or.inr ⟨id, transport_called h ht, rfl, ?_⟩
    change v.log ++ [.received x data] ++
      [.message (v.transport id) x ((arriving v x data fin).streams x).unread] = _
    rw [ht, arriving_stream, List.append_assoc]
    rfl

theorem dataArrives_logged (h : Linked q v) (x : StreamId) (data : Str) (fin : Bool) :
    ∃ entries, Logged v (v.dataArrives x data fin) (.dataArrives x data fin) entries := by
  by_cases hopen : IncomingMessages.Open v x
  · rcases dataArrives_log h hopen data fin with hlog | ⟨id, hcalled, hvisitor, hlog⟩
    · exact ⟨_, logged_quiet hlog (by simp) fun _ => rfl⟩
    · refine ⟨_, hlog, ⟨by simp [Announced], ⟨?_, trivial⟩⟩, fun _ => rfl, ?_⟩
      · rintro transport y message heq
        cases heq
        rw [callbacks_append]
        exact List.append_ne_nil_of_left_ne_nil hcalled _
      · intro transport y message hmem
        obtain ⟨-, rfl, -⟩ : transport = some ⟨id⟩ ∧ y = x ∧ message = _ := by simpa using hmem
        exact ⟨data, fin, rfl, hopen, hvisitor⟩
  · rw [IncomingMessages.dataArrives_closed hopen]
    exact ⟨[], logged_quiet (List.append_nil _).symm (by simp) fun _ => rfl⟩

theorem sessionReady_log (v : Server) (id : StreamId) : ∃ (found : List (Option Callback)) (transport : _),
    (v.sessionReady id).log = v.log ++ found.map fun found => .callback found transport := by
  unfold Server.sessionReady
  cases v.session id with
  | none => exact ⟨[], ⟨id⟩, (List.append_nil _).symm⟩
  | some w =>
    dsimp only
    split
    · cases w.visitor with
      | none => exact ⟨[], ⟨id⟩, (List.append_nil _).symm⟩
      | some c =>
        refine ⟨c.signalTransport.map fun found => v.backend.callbacks.lookup found, ⟨c.session⟩, ?_⟩
        rw [List.map_map]
        rfl
    · exact ⟨[], ⟨id⟩, (List.append_nil _).symm⟩

theorem streamArrives_log (v : Server) (id x : StreamId) :
    (v.streamArrives id x).log = v.log ∨ (v.streamArrives id x).log = v.log ++ [.arrived id x] := by
  unfold Server.streamArrives
  split
  · exact Or.inr rfl
  · exact Or.inl rfl

theorem streamAvailable_log (v : Server) (id : StreamId) : (v.streamAvailable id).log = v.log := by
  unfold Server.streamAvailable
  cases v.session id with
  | none => rfl
  | some w =>
    dsimp only
    split
    · unfold Server.onIncomingBidirectionalStreamAvailable
      cases w.incomingBidirectionalStreams <;> rfl
    · rfl

theorem step_logged (h : Linked q v) (react : List Effect → List HandlerCall) (e : ServerEvent) :
    ∃ entries, Logged v (v.step q react e) e entries := by
  cases e with
  | on path callback =>
    refine ⟨[.on path callback], logged_quiet rfl (by simp) fun hnot => ?_⟩
    exact absurd rfl (hnot path callback)
  | request id event =>
    refine ⟨_, logged_quiet rfl ?_ fun _ => registrations_request ..⟩
    intro transport x data hmem
    obtain ⟨effect, -, heq⟩ := List.mem_map.mp hmem
    cases heq
  | sessionReady id =>
    obtain ⟨found, transport, hlog⟩ := sessionReady_log v id
    exact ⟨_, logged_quiet hlog (by simp) fun _ => by simp [registrations]⟩
  | streamArrives id x =>
    rcases streamArrives_log v id x with hlog | hlog
    · exact ⟨[], logged_quiet (hlog.trans (List.append_nil _).symm) (by simp) fun _ => rfl⟩
    · exact ⟨_, logged_quiet hlog (by simp) fun _ => rfl⟩
  | dataArrives x data fin => exact dataArrives_logged h x data fin
  | streamAvailable id =>
    exact ⟨[], logged_quiet ((streamAvailable_log v id).trans (List.append_nil _).symm) (by simp)
      fun _ => rfl⟩

end Steps

structure Answering (q : Platform) (app : Application) (v : Running) : Prop where
  linked : Linked q v.server
  kept : Kept app v.server.log v
  announced : History.Holds Announced [] v.server.log

theorem calls_server (app : Application) (unblocked : Bool) (entries : List Entry) (v : Running) :
    (entries.foldl (Running.call app unblocked) v).server = v.server := by
  induction entries generalizing v with
  | nil => rfl
  | cons e entries ih =>
    rw [List.foldl_cons, ih]
    cases e with
    | message transport x data => cases transport <;> rfl
    | callback found transport => cases found <;> rfl
    | _ => rfl

theorem step_server {q : Platform} (react : List Effect → List HandlerCall) (app : Application)
    {v : Running} {event : ServerEvent} {entries : List Entry}
    (hlog : (v.server.step q react event).log = v.server.log ++ entries) (unblocked : Bool) :
    v.step q react app (.server event unblocked) = entries.foldl (Running.call app unblocked)
      { v with server := v.server.step q react event } := by
  unfold Running.step
  dsimp only
  rw [hlog, List.drop_left]

theorem step_answering {q : Platform} (react : List Effect → List HandlerCall) (app : Application)
    {v : Running} (h : Answering q app v) (e : RunningEvent) :
    Answering q app (v.step q react app e) := by
  cases e with
  | server event unblocked =>
    obtain ⟨entries, hentries⟩ := step_logged h.linked react event
    have hkept : Kept app v.server.log { v with server := v.server.step q react event } :=
      ⟨h.kept.slots, h.kept.sends⟩
    rw [step_server react app hentries.log]
    refine ⟨?_, ?_, ?_⟩
    · rw [calls_server]
      exact step_linked h.linked react event
    · rw [calls_server]
      change Kept app (v.server.step q react event).log _
      rw [hentries.log]
      exact calls_kept hkept unblocked entries
    · rw [calls_server]
      change History.Holds Announced [] (v.server.step q react event).log
      rw [hentries.log, History.holds_append]
      exact ⟨h.announced, hentries.announced⟩
  | closed x => exact ⟨h.linked, ⟨h.kept.slots, h.kept.sends⟩, h.announced⟩
  | canWrite x unblocked => exact ⟨h.linked, ⟨h.kept.slots, h.kept.sends⟩, h.announced⟩

theorem run_answering (q : Platform) (react : List Effect → List HandlerCall) (app : Application)
    (events : List RunningEvent) : Answering q app (runApplication q react app events) := by
  refine invariant_after (I := Answering q app) (fun v e h => step_answering react app h e) ?_ events
  exact ⟨new_linked q, ⟨fun _ => rfl, fun _ => rfl⟩, trivial⟩

/-- A session is given to one callback at most, so that the first one is the only one. -/
theorem callbacks_of_prefix {q : Platform} {v : Server} (h : Linked q v) {id : StreamId}
    {before : List Entry} (hleads : before <+: v.log) (hcalled : callbacks id before ≠ []) :
    callbacks id before = callbacks id v.log := by
  obtain ⟨after, hafter⟩ := hleads
  have happend := callbacks_append id before after
  rw [hafter] at happend
  have hlength : (callbacks id v.log).length ≤ 1 := by
    rcases h.routes id with hw | ⟨headers, response, path, w, hg⟩
    · rw [hw.uncalled]
      exact Nat.zero_le 1
    · rw [hg.called]
      cases w.ready <;> simp
  rw [happend, List.length_append] at hlength
  have hbefore := List.length_pos_iff.mpr hcalled
  have hnone : callbacks id after = [] := List.eq_nil_of_length_eq_zero (by omega)
  rw [happend, hnone, List.append_nil]

def answers (app : Application) (x : StreamId) (id : StreamId) (log : List Entry) : List Str :=
  (signals x log).flatMap fun data => (slots app id log).map fun slot => slot data

theorem linked_history {q : Platform} {v : Server} (h : Linked q v)
    (hannounced : History.Holds Announced [] v.log) :
    History.Holds (fun before e => Permitted q before e ∧ Announced before e ∧ before <+: v.log)
      [] v.log := by
  refine ((h.history.and hannounced).and (History.holds_prefix [] v.log)).imp ?_
  rintro before e ⟨⟨hpermitted, hcalled⟩, hleads⟩
  exact ⟨hpermitted, hcalled, (List.prefix_append before [e]).trans hleads⟩

/-- A message goes to the session of its stream, which has its callback by then. -/
theorem message_session {q : Platform} {v : Server} (h : Linked q v) {before : List Entry}
    {transport : QuailTransport} {x : StreamId} {data : Str}
    (hp : Permitted q before (.message (some transport) x data))
    (hc : Announced before (.message (some transport) x data)) (hleads : before <+: v.log) :
    sessions x v.log = [transport.session] ∧
      callbacks transport.session before = callbacks transport.session v.log ∧
      callbacks transport.session v.log ≠ [] := by
  obtain ⟨id, heq, hsession, -⟩ := hp
  obtain rfl := Option.some.inj heq
  have hcalled := hc ⟨id⟩ x data rfl
  have hsame := callbacks_of_prefix h hleads hcalled
  refine ⟨?_, hsame, hsame ▸ hcalled⟩
  obtain ⟨after, hafter⟩ := hleads
  have happend := sessions_append x before after
  rw [hafter, hsession, (h.stream x).session] at happend
  rw [(h.stream x).session]
  cases hstream : (v.streams x).session with
  | none =>
    rw [hstream] at happend
    cases happend
  | some id' =>
    rw [hstream] at happend
    rw [(List.cons.inj happend).1]
    rfl

theorem signals_routed {q : Platform} {v : Server} (h : Linked q v)
    (hannounced : History.Holds Announced [] v.log) {x : StreamId} (hsignals : signals x v.log ≠ []) :
    ∃ id, sessions x v.log = [id] ∧ callbacks id v.log ≠ [] := by
  obtain ⟨data, hdata⟩ := List.exists_mem_of_ne_nil _ hsignals
  obtain ⟨e, he, hmem⟩ := List.mem_flatMap.mp hdata
  obtain ⟨before, hp, hc, hleads⟩ := (linked_history h hannounced).of_mem he
  cases e with
  | message transport y message =>
    cases transport with
    | none => cases hmem
    | some transport =>
      by_cases hy : y = x
      · subst hy
        obtain ⟨hsession, -, hcalled⟩ := message_session h hp hc hleads
        exact ⟨transport.session, hsession, hcalled⟩
      · simp [hy] at hmem
  | _ => cases hmem

theorem collect_answers {q : Platform} {app : Application} {v : Server} (h : Linked q v)
    (hannounced : History.Holds Announced [] v.log) {x id : StreamId} (hsession : sessions x v.log = [id]) :
    History.collect (replies app x) [] v.log = answers app x id v.log := by
  have hsame : History.Holds (fun before e => replies app x before e =
      (signals x [e]).flatMap fun data => (slots app id v.log).map fun slot => slot data) [] v.log := by
    refine (linked_history h hannounced).imp ?_
    rintro before e ⟨hp, hc, hleads⟩
    cases e with
    | message transport y data =>
      cases transport with
      | none => rfl
      | some transport =>
        by_cases hy : y = x
        · subst hy
          obtain ⟨hown, hcallbacks, -⟩ := message_session h hp hc hleads
          obtain rfl : transport.session = id := by
            rw [hsession] at hown
            exact (List.cons.inj hown).1.symm
          simp [replies, signals, slots, hcallbacks]
        · simp [replies, signals, hy]
    | _ => rfl
  rw [History.collect_eq hsame]
  unfold answers signals
  rw [List.flatMap_assoc]
  simp

theorem collect_silent (app : Application) {x : StreamId} {log : List Entry} (h : signals x log = []) :
    History.collect (replies app x) [] log = [] := by
  have hnone : History.Holds (fun before e => replies app x before e = []) [] log := by
    refine History.holds_of_all fun e he before => ?_
    have hsilent := List.flatMap_eq_nil_iff.mp h e he
    cases e with
    | message transport y data =>
      cases transport with
      | none => rfl
      | some transport =>
        have hy : y ≠ x := by simpa using hsilent
        exact if_neg hy
    | _ => rfl
  rw [History.collect_eq hnone]
  simp

/-- Every message is answered once by each slot that the callback for the path of its session
    connected, in the order of the messages, on the stream it came from. -/
theorem replies_sent (q : Platform) (react : List Effect → List HandlerCall) (app : Application)
    (events : List RunningEvent) (x : StreamId) :
    let v := runApplication q react app events
    (signals x v.server.log = [] ∧ sends x v.outgoing.calls = []) ∨
      ∃ id headers response path callback, sessions x v.server.log = [id] ∧
        processed (effects id v.server.log) = [(headers, response)] ∧
        headers.find ":path" = some path ∧
        firstWrite (registrations v.server.log) (q.gurlPath path) = some callback ∧
        sends x v.outgoing.calls = (signals x v.server.log).flatMap fun data =>
          (app callback).map fun slot => slot data := by
  have h := run_answering q react app events
  dsimp only
  rw [h.kept.sends x]
  by_cases hsignals : signals x (runApplication q react app events).server.log = []
  · exact Or.inl ⟨hsignals, collect_silent app hsignals⟩
  · obtain ⟨id, hsession, hcalled⟩ := signals_routed h.linked h.announced hsignals
    rcases h.linked.routes id with hw | ⟨headers, response, path, w, hg⟩
    · exact absurd hw.uncalled hcalled
    · obtain ⟨callback, hcallback⟩ := Option.isSome_iff_exists.mp ((firstWrite_isSome _ _).mpr hg.registered)
      have hone := hg.called
      rw [hcallback] at hone
      cases hready : w.ready with
      | false =>
        rw [hready] at hone
        exact absurd hone hcalled
      | true =>
        rw [hready] at hone
        refine Or.inr ⟨id, headers, response, path, callback, hsession, hg.asked, hg.target, hcallback, ?_⟩
        rw [collect_answers h.linked h.announced hsession]
        unfold answers slots
        rw [hone]
        simp

end QuailServer.Applications
