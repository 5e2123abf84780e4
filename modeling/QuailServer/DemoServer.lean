import QuailServer.Applications

set_option autoImplicit false

namespace QuailServer.DemoServer
open HeaderBlock WebTransport ServerStream ServerBackend WebTransportServer OutgoingStreams
  OutgoingMessages StepMachine FirstWrite Applications

/-- A stream that is read is there, and takes what is sent meanwhile. -/
def Answerable (v : Running) : RunningEvent → Prop
  | .server (.dataArrives x _ _) unblocked =>
    IncomingMessages.Open v.server x → (v.server.streams x).visitor.isSome = true →
      (v.outgoing.streams x).alive = true ∧ unblocked = true
  | _ => True

structure Written (o : Transport) : Prop where
  delivered : Delivered o
  found : o.nullDereferenced = false

theorem sent_eq (o : Transport) (x : StreamId) : sent o x = (sends x o.calls).flatten := by
  unfold sent sends
  rw [List.flatten_eq_flatMap, List.flatMap_assoc]
  congr 1
  funext call
  split <;> simp

theorem send_written {o : Transport} (h : Written o) {x : StreamId}
    (halive : (o.streams x).alive = true) (data : Str) :
    Written (o.send x data true) ∧ ∀ y, ((o.send x data true).streams y).alive = (o.streams y).alive := by
  refine ⟨⟨step_delivered h.delivered (e := .send x data true) halive fun _ => rfl, ?_⟩, ?_⟩
  · rw [send_found halive]
    exact h.found
  · intro y
    rw [send_found halive]
    unfold Transport.setStream
    dsimp only
    rw [Function.update_apply]
    split
    · next hy => rw [hy]
    · rfl

theorem slots_written (slots : List Slot) {o : Transport} (h : Written o) {x : StreamId}
    (halive : (o.streams x).alive = true) (data : Str) :
    let o' := slots.foldl (fun o slot => o.send x (slot data) true) o
    Written o' ∧ ∀ y, (o'.streams y).alive = (o.streams y).alive := by
  induction slots generalizing o with
  | nil => exact ⟨h, fun _ => rfl⟩
  | cons slot slots ih =>
    obtain ⟨hsent, hsame⟩ := send_written h halive (slot data)
    obtain ⟨hrest, hstill⟩ := ih hsent ((hsame x).trans halive)
    exact ⟨hrest, fun y => (hstill y).trans (hsame y)⟩

theorem opened_written {o : Transport} (h : Written o) (x : StreamId) :
    Written (o.step (.opened x)) ∧
      ∀ y, (o.streams y).alive = true → ((o.step (.opened x)).streams y).alive = true := by
  refine ⟨⟨step_delivered h.delivered trivial trivial, h.found⟩, fun y hy => ?_⟩
  change (Function.update o.streams x _ y).alive = true
  rw [Function.update_apply]
  split
  · rfl
  · exact hy

theorem call_written (app : Application) {v : Running} (h : Written v.outgoing) {unblocked : Bool}
    {e : Entry} (he : ∀ transport x data, e = .message transport x data →
      (v.outgoing.streams x).alive = true ∧ unblocked = true) :
    Written (v.call app unblocked e).outgoing ∧ ∀ y, (v.outgoing.streams y).alive = true →
      ((v.call app unblocked e).outgoing.streams y).alive = true := by
  cases e with
  | arrived id x => exact opened_written h x
  | message transport x data =>
    obtain ⟨halive, rfl⟩ := he transport x data rfl
    cases transport with
    | none => exact ⟨h, fun _ hy => hy⟩
    | some transport =>
      obtain ⟨hsent, hsame⟩ := slots_written (v.signalMessage transport.session) h halive data
      exact ⟨hsent, fun y hy => (hsame y).trans hy⟩
  | callback found transport => cases found <;> exact ⟨h, fun _ hy => hy⟩
  | _ => exact ⟨h, fun _ hy => hy⟩

theorem calls_written (app : Application) {unblocked : Bool} {entries : List Entry} {v : Running}
    (h : Written v.outgoing) (he : ∀ transport x data, .message transport x data ∈ entries →
      (v.outgoing.streams x).alive = true ∧ unblocked = true) :
    Written (entries.foldl (Running.call app unblocked) v).outgoing := by
  induction entries generalizing v with
  | nil => exact h
  | cons e entries ih =>
    have hmessage : ∀ transport x data, e = .message transport x data →
        (v.outgoing.streams x).alive = true ∧ unblocked = true :=
      fun transport x data heq => he transport x data (heq ▸ List.mem_cons_self)
    obtain ⟨hcalled, hstill⟩ := call_written app h hmessage
    refine ih hcalled fun transport x data hmem => ?_
    obtain ⟨halive, hunblocked⟩ := he transport x data (List.mem_cons_of_mem e hmem)
    exact ⟨hstill x halive, hunblocked⟩

theorem step_written {q : Platform} (react : List Effect → List HandlerCall) (app : Application)
    {v : Running} (hv : Answering q app v) (h : Written v.outgoing) {e : RunningEvent}
    (he : Answerable v e) : Written (v.step q react app e).outgoing := by
  cases e with
  | server event unblocked =>
    obtain ⟨entries, hentries⟩ := step_logged hv.linked react event
    rw [step_server react app hentries.log]
    refine calls_written app h fun transport x data hmem => ?_
    obtain ⟨new, fin, rfl, hopen, hvisitor⟩ := hentries.heard transport x data hmem
    exact he hopen hvisitor
  | closed x => exact ⟨step_delivered h.delivered (e := .closed x) trivial trivial, h.found⟩
  | canWrite x unblocked => exact h

theorem run_written (q : Platform) (react : List Effect → List HandlerCall) (app : Application)
    {events : List RunningEvent} (answerable : Each (Running.step q react app) Answerable .new events) :
    Written (runApplication q react app events).outgoing := by
  refine (always_of_each (I := fun v => Answering q app v ∧ Written v.outgoing) ?_ ?_ answerable).last.2
  · rintro v e ⟨hv, h⟩ he
    exact ⟨step_answering react app hv e, step_written react app hv h he⟩
  · exact ⟨run_answering q react app [], fun _ => rfl, rfl⟩

/-- The slots that the two callbacks connect, the one of `/echo` and the one of `/test`. -/
def demo : Application
  | 0 => [fun _ => "Dont give a shit"]
  | 1 => [fun _ => "foo"]
  | _ => []

def paths : List (Str × Callback) := [("/echo", 0), ("/test", 1)]

/-- `main` up to `Start`. -/
def main : List RunningEvent := paths.map fun on => .server (.on on.1 on.2) true

def Answers (path text : Str) : Prop :=
  (path = "/echo" ∧ text = "Dont give a shit") ∨ (path = "/test" ∧ text = "foo")

/-- `Start` does not return, so that nothing is registered later. -/
def Started (e : RunningEvent) : Prop :=
  ∀ path callback unblocked, e ≠ .server (.on path callback) unblocked

theorem started_registrations (q : Platform) (react : List Effect → List HandlerCall)
    (app : Application) {v : Running} (hv : Answering q app v) {e : RunningEvent} (he : Started e) :
    registrations (v.step q react app e).server.log = registrations v.server.log := by
  cases e with
  | server event unblocked =>
    obtain ⟨entries, hentries⟩ := step_logged hv.linked react event
    rw [step_server react app hentries.log, calls_server]
    change registrations (v.server.step q react event).log = _
    rw [hentries.log, registrations_append, hentries.registered, List.append_nil]
    rintro path callback rfl
    exact he path callback unblocked rfl
  | closed x => rfl
  | canWrite x unblocked => rfl

theorem main_registrations (q : Platform) (react : List Effect → List HandlerCall)
    {events : List RunningEvent} (started : ∀ e ∈ events, Started e) :
    registrations (runApplication q react demo (main ++ events)).server.log = paths := by
  have hrun : runApplication q react demo (main ++ events) =
      after (Running.step q react demo) (runApplication q react demo main) events :=
    after_append _ _ _ _
  rw [hrun]
  refine (after_of_labels (I := fun v => Answering q demo v ∧ registrations v.server.log = paths)
    (P := Started) ?_ ⟨run_answering q react demo main, rfl⟩ started).2
  rintro v e he ⟨hv, hreg⟩
  exact ⟨step_answering react demo hv e, (started_registrations q react demo hv he).trans hreg⟩

theorem demo_slots {path : Str} {callback : Callback} (h : firstWrite paths path = some callback) :
    ∃ text, Answers path text ∧ demo callback = [fun _ => text] := by
  have hsplit : paths = [("/echo".toList, 0)] ++ [("/test".toList, 1)] := rfl
  rw [hsplit, firstWrite_append, firstWrite_singleton, firstWrite_singleton] at h
  by_cases hecho : "/echo".toList = path
  · rw [if_pos hecho] at h
    obtain rfl := Option.some.inj h
    exact ⟨_, Or.inl ⟨hecho.symm, rfl⟩, rfl⟩
  · rw [if_neg hecho, Option.none_or] at h
    by_cases htest : "/test".toList = path
    · rw [if_pos htest] at h
      obtain rfl := Option.some.inj h
      exact ⟨_, Or.inr ⟨htest.symm, rfl⟩, rfl⟩
    · rw [if_neg htest] at h
      cases h

/-- The demo writes its text once for each message, on the stream of the message, by the path
    that the session of the stream asked for. Nothing is written on other streams. -/
theorem demo_answers (q : Platform) (react : List Effect → List HandlerCall)
    (events : List RunningEvent) (started : ∀ e ∈ events, Started e)
    (answerable : Each (Running.step q react demo) Answerable .new (main ++ events)) (x : StreamId) :
    let v := runApplication q react demo (main ++ events)
    v.outgoing.nullDereferenced = false ∧
      ((signals x v.server.log = [] ∧ accepted v.outgoing x = []) ∨
        ∃ id headers response path text, sessions x v.server.log = [id] ∧
          processed (effects id v.server.log) = [(headers, response)] ∧
          headers.find ":path" = some path ∧ Answers (q.gurlPath path) text ∧
          accepted v.outgoing x = (List.replicate (signals x v.server.log).length text).flatten) := by
  have hwritten := run_written q react demo answerable
  have hpaths := main_registrations q react started
  have hsent := replies_sent q react demo (main ++ events) x
  refine ⟨hwritten.found, ?_⟩
  rw [hwritten.delivered x, sent_eq]
  rcases hsent with ⟨hsignals, hnone⟩ |
    ⟨id, headers, response, path, callback, hsession, hasked, hpath, hfound, hsends⟩
  · exact Or.inl ⟨hsignals, by rw [hnone]; rfl⟩
  · rw [hpaths] at hfound
    obtain ⟨text, htext, hslots⟩ := demo_slots hfound
    refine Or.inr ⟨id, headers, response, path, text, hsession, hasked, hpath, htext, ?_⟩
    rw [hsends, hslots]
    simp only [List.map_cons, List.map_nil]
    rw [← List.map_eq_flatMap, List.map_const']

def testHeaders : InitialHeaders :=
  { IncomingMessages.chatHeaders with
    requestHeaders := (Http2HeaderBlock.set ∅ ":method" "CONNECT").set ":path" "/test"
    webTransport_connect := fun _ _ => rfl }

def twoMessages : List RunningEvent :=
  [.server (.request 0 (.initialHeaders testHeaders)) true, .server (.sessionReady 0) true,
    .server (.streamArrives 0 4) true, .server (.streamAvailable 0) true,
    .server (.dataArrives 4 "hi" false) true, .server (.dataArrives 4 "ho" true) true]

theorem demo_answers_test : ∃ text,
    accepted (runApplication plainPlatform (fun _ => []) demo (main ++ twoMessages)).outgoing 4 =
      (List.replicate 2 text).flatten := by
  have started : ∀ e ∈ twoMessages, Started e := by simp [twoMessages, Started]
  have answerable : Each (Running.step plainPlatform (fun _ => []) demo) Answerable .new
      (main ++ twoMessages) :=
    ⟨trivial, trivial, trivial, trivial, trivial, trivial, fun _ _ => ⟨rfl, rfl⟩,
      fun _ _ => ⟨rfl, rfl⟩, trivial⟩
  obtain ⟨-, hsilent | ⟨id, headers, response, path, text, hrest⟩⟩ :=
    demo_answers plainPlatform (fun _ => []) twoMessages started answerable 4
  · exact absurd hsilent.1 (by decide)
  · exact ⟨text, hrest.2.2.2.2⟩

end QuailServer.DemoServer
