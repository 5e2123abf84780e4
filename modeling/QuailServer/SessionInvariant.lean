import QuailServer.SessionLog

set_option autoImplicit false

namespace QuailServer.WebTransportServer
open HeaderBlock WebTransport ServerStream ServerBackend FirstWrite

structure RequestsLinked (v : Server) : Prop where
  registered : v.backend.callbacks = ofWrites (registrations v.log)
  traced : ∀ id, effects id v.log = (v.requests id).trace
  named : ∀ id, (v.requests id).id = id
  sound : ∀ id, (v.requests id).SessionSound

structure Withheld (v : Server) (id : StreamId) : Prop where
  asked : processed (effects id v.log) = [] ∨ ∃ headers response,
    processed (effects id v.log) = [(headers, response)] ∧ response.visitor = none
  idle : ∀ w, v.session id = some w → w.visitor = none ∧ w.headersReceived = false
  uncalled : callbacks id v.log = []

/-- The session got a converter, which waits for the session or has made its transport. -/
structure Granted (q : Platform) (v : Server) (id : StreamId) (headers : Http2HeaderBlock)
    (response : WebTransportResponse) (path : Str) (w : WebTransportSession) : Prop where
  asked : processed (effects id v.log) = [(headers, response)]
  accepted : response.visitor.isSome = true
  written : .writeHeaders .response response.responseHeaders false ∈ effects id v.log
  target : headers.find ":path" = some path
  registered : q.gurlPath path ∈ (registrations v.log).map Prod.fst
  opened : v.session id = some w
  headersReceived : w.headersReceived = true
  visitor : w.visitor = some ⟨id, [q.gurlPath path], if w.ready then some ⟨id⟩ else none⟩
  called : callbacks id v.log =
    if w.ready then [firstWrite (registrations v.log) (q.gurlPath path)] else []

def Routes (q : Platform) (v : Server) (id : StreamId) : Prop :=
  Withheld v id ∨ ∃ headers response path w, Granted q v id headers response path w

structure StreamLinked (v : Server) (x : StreamId) : Prop where
  session : sessions x v.log = (v.streams x).session.toList
  conserved : messages x v.log ++ (v.streams x).unread = received x v.log
  visitor : ∀ visitor, (v.streams x).visitor = some visitor → ∃ id,
    visitor = ⟨x, [id]⟩ ∧ (v.streams x).session = some id ∧ v.transport id = some ⟨id⟩

structure Linked (q : Platform) (v : Server) : Prop where
  requests : RequestsLinked v
  routes : ∀ id, Routes q v id
  queue : ∀ id w, v.session id = some w → ∀ x ∈ w.incomingBidirectionalStreams,
    (v.streams x).session = some id
  stream : ∀ x, StreamLinked v x
  history : History.Holds (Permitted q) [] v.log

variable {q : Platform} {v v' : Server}

theorem RequestsLinked.append (h : RequestsLinked v) {entries : List Entry}
    (hreg : registrations entries = []) (heff : ∀ id, effects id entries = []) :
    RequestsLinked (v.append entries) where
  registered := by
    rw [Server.append_log, registrations_append, hreg, List.append_nil]
    exact h.registered
  traced id := by
    rw [Server.append_log, effects_append, heff, List.append_nil]
    exact h.traced id
  named := h.named
  sound := h.sound

theorem RequestsLinked.setStream (h : RequestsLinked v) (x : StreamId) (u : WebTransportStream) :
    RequestsLinked (v.setStream x u) := ⟨h.registered, h.traced, h.named, h.sound⟩

theorem sound_withSession {s : QuitServerStream} (h : s.SessionSound) (hs : s.webTransport.isSome = true)
    (w : WebTransportSession) : QuitServerStream.SessionSound { s with webTransport := some w } where
  blank := by
    intro hcomplete
    rw [(h.blank hcomplete).webTransport] at hs
    cases hs
  connect _ := h.connect hs
  answered := h.answered

theorem RequestsLinked.setSession (h : RequestsLinked v) {id : StreamId} {w : WebTransportSession}
    (hw : v.session id = some w) (w' : WebTransportSession) : RequestsLinked (v.setSession id w') where
  registered := h.registered
  traced j := by
    rw [Server.setSession_requests]
    split
    · rename_i heq
      subst heq
      exact h.traced j
    · exact h.traced j
  named j := by
    rw [Server.setSession_requests]
    split
    · rename_i heq
      subst heq
      exact h.named j
    · exact h.named j
  sound j := by
    rw [Server.setSession_requests]
    split
    · exact sound_withSession (h.sound id) (Option.isSome_of_eq_some hw) w'
    · exact h.sound j

/-- For the session nothing changes but its queue, or it comes into being. -/
structure Steady (v v' : Server) (id : StreamId) : Prop where
  asked : ∃ out, effects id v'.log = effects id v.log ++ out ∧ processed out = []
  registered : ∃ more, registrations v'.log = registrations v.log ++ more
  called : callbacks id v'.log = callbacks id v.log
  session : v'.session id = v.session id ∨
    (∃ w incoming, v.session id = some w ∧
      v'.session id = some { w with incomingBidirectionalStreams := incoming }) ∨
    (v.session id = none ∧ v'.session id = some .new)

theorem steady_of_stream {id : StreamId} {entries : List Entry} (hlog : v'.log = v.log ++ entries)
    (heff : effects id entries = []) (hcall : callbacks id entries = [])
    (hsession : v'.session id = v.session id ∨ ∃ w incoming, v.session id = some w ∧
      v'.session id = some { w with incomingBidirectionalStreams := incoming }) :
    Steady v v' id where
  asked := ⟨[], by rw [hlog, effects_append, heff], rfl⟩
  registered := ⟨registrations entries, by rw [hlog, registrations_append]⟩
  called := by rw [hlog, callbacks_append, hcall, List.append_nil]
  session := hsession.imp_right Or.inl

theorem Steady.withheld {id : StreamId} (h : Steady v v' id) (hw : Withheld v id) :
    Withheld v' id where
  asked := by
    obtain ⟨out, heff, hquiet⟩ := h.asked
    rw [heff, processed_append, hquiet, List.append_nil]
    exact hw.asked
  idle := by
    intro w' hsession'
    rcases h.session with hsame | ⟨w, incoming, hsession, hqueue⟩ | ⟨-, hnew⟩
    · exact hw.idle w' (hsame ▸ hsession')
    · rw [hqueue] at hsession'
      rw [← Option.some.inj hsession']
      exact hw.idle w hsession
    · rw [hnew] at hsession'
      rw [← Option.some.inj hsession']
      exact ⟨rfl, rfl⟩
  uncalled := h.called.trans hw.uncalled

theorem firstWrite_registered {path : Str} {ws more : List (Str × Callback)}
    (h : path ∈ ws.map Prod.fst) : firstWrite (ws ++ more) path = firstWrite ws path := by
  obtain ⟨callback, hcallback⟩ := Option.isSome_iff_exists.mp ((firstWrite_isSome ws path).mpr h)
  rw [hcallback]
  exact firstWrite_append_of_some hcallback more

theorem Steady.granted {id : StreamId} {headers : Http2HeaderBlock} {response : WebTransportResponse}
    {path : Str} {w : WebTransportSession} (h : Steady v v' id)
    (hg : Granted q v id headers response path w) : ∃ w', Granted q v' id headers response path w' := by
  obtain ⟨out, heff, hquiet⟩ := h.asked
  obtain ⟨more, hreg⟩ := h.registered
  have hasked : processed (effects id v'.log) = [(headers, response)] := by
    rw [heff, processed_append, hquiet, List.append_nil]
    exact hg.asked
  have hwritten : Effect.writeHeaders .response response.responseHeaders false ∈ effects id v'.log := by
    rw [heff]
    exact List.mem_append_left out hg.written
  have hregistered : q.gurlPath path ∈ (registrations v'.log).map Prod.fst := by
    rw [hreg, List.map_append]
    exact List.mem_append_left _ hg.registered
  have hcalled : callbacks id v'.log =
      if w.ready then [firstWrite (registrations v'.log) (q.gurlPath path)] else [] := by
    rw [h.called, hreg, firstWrite_registered hg.registered]
    exact hg.called
  rcases h.session with hsame | ⟨w', incoming, hsession, hqueue⟩ | ⟨hnone, -⟩
  · exact ⟨w, hasked, hg.accepted, hwritten, hg.target, hregistered, hsame.trans hg.opened,
      hg.headersReceived, hg.visitor, hcalled⟩
  · obtain rfl := Option.some.inj (hsession.symm.trans hg.opened)
    exact ⟨_, hasked, hg.accepted, hwritten, hg.target, hregistered, hqueue, hg.headersReceived,
      hg.visitor, hcalled⟩
  · rw [hg.opened] at hnone
    cases hnone

theorem Steady.routes {id : StreamId} (h : Steady v v' id) (hr : Routes q v id) : Routes q v' id := by
  rcases hr with hw | ⟨headers, response, path, w, hg⟩
  · exact Or.inl (h.withheld hw)
  · exact Or.inr ⟨headers, response, path, h.granted hg⟩

theorem Steady.transport {id : StreamId} {transport : QuailTransport} (h : Steady v v' id)
    (ht : v.transport id = some transport) : v'.transport id = some transport := by
  unfold Server.transport at ht ⊢
  rcases h.session with hsame | ⟨w, incoming, hsession, hqueue⟩ | ⟨hnone, -⟩
  · rw [hsame]
    exact ht
  · rw [hsession] at ht
    rw [hqueue]
    exact ht
  · rw [hnone] at ht
    cases ht

theorem StreamLinked.transfer {x : StreamId} {entries : List Entry} (h : StreamLinked v x)
    (hlog : v'.log = v.log ++ entries) (hsessions : sessions x entries = [])
    (hmessages : messages x entries = []) (hreceived : received x entries = [])
    (hstream : v'.streams x = v.streams x)
    (htransport : ∀ id transport, v.transport id = some transport → v'.transport id = some transport) :
    StreamLinked v' x where
  session := by
    rw [hlog, sessions_append, hsessions, List.append_nil, hstream]
    exact h.session
  conserved := by
    rw [hlog, messages_append, hmessages, received_append, hreceived, hstream]
    simpa only [List.append_nil] using h.conserved
  visitor := by
    intro visitor hvisitor
    rw [hstream] at hvisitor ⊢
    obtain ⟨id, heq, hsession, ht⟩ := h.visitor visitor hvisitor
    exact ⟨id, heq, hsession, htransport id _ ht⟩

theorem on_linked (h : Linked q v) (path : Str) (callback : Callback) :
    Linked q (v.on path callback) := by
  have hlog : (v.on path callback).log = v.log ++ [.on path callback] := rfl
  have hsteady : ∀ id, Steady v (v.on path callback) id := by
    intro id
    exact steady_of_stream hlog rfl rfl (Or.inl rfl)
  refine ⟨⟨?_, ?_, h.requests.named, h.requests.sound⟩, fun id => (hsteady id).routes (h.routes id),
    h.queue, ?_, ?_⟩
  · rw [hlog, registrations_append]
    change insertNew v.backend.callbacks path callback = _
    rw [h.requests.registered]
    exact (ofWrites_concat _ _ _).symm
  · intro id
    rw [hlog, effects_append]
    exact (List.append_nil _).trans (h.requests.traced id)
  · intro x
    exact (h.stream x).transfer hlog rfl rfl rfl rfl fun id transport ht => (hsteady id).transport ht
  · rw [hlog]
    exact (History.holds_append _ _ _).mpr ⟨h.history, trivial, trivial⟩

theorem processWebTransportRequest_answers {b : QuailServerBackend} {ws : List (Str × Callback)}
    (hb : b.callbacks = ofWrites ws) (id : StreamId) (headers : Http2HeaderBlock) :
    Answers q ws id headers (b.processWebTransportRequest q headers id) := by
  unfold Answers QuailServerBackend.processWebTransportRequest
  cases headers.find ":path" with
  | none => exact ⟨Http2HeaderBlock.find_set .., rfl⟩
  | some path =>
    have hmem : q.gurlPath path ∈ b.callbacks ↔ q.gurlPath path ∈ ws.map Prod.fst := by
      rw [hb, ← Finmap.lookup_isSome, lookup_ofWrites]
      exact firstWrite_isSome ws _
    dsimp only
    by_cases hfound : q.gurlPath path ∈ b.callbacks
    · rw [if_pos hfound, if_pos (hmem.mp hfound)]
      exact ⟨Http2HeaderBlock.find_set .., rfl⟩
    · rw [if_neg hfound, if_neg fun hregistered => hfound (hmem.mpr hregistered)]
      exact ⟨Http2HeaderBlock.find_set .., rfl⟩

/-- A visitor comes with status 200, for a registered path, and with nothing else. -/
theorem Answers.cases {ws : List (Str × Callback)} {id : StreamId} {headers : Http2HeaderBlock}
    {response : WebTransportResponse} (h : Answers q ws id headers response) :
    (∃ path, headers.find ":path" = some path ∧ q.gurlPath path ∈ ws.map Prod.fst ∧
      response.responseHeaders.find ":status" = some ("200" : Str) ∧
      response.visitor = some ⟨id, [q.gurlPath path], none⟩) ∨
    (response.responseHeaders.find ":status" ≠ some ("200" : Str) ∧ response.visitor = none) := by
  unfold Answers at h
  cases hpath : headers.find ":path" with
  | none =>
    rw [hpath] at h
    exact Or.inr ⟨by rw [h.1]; decide, h.2⟩
  | some path =>
    rw [hpath] at h
    dsimp only at h
    split at h
    · rename_i hregistered
      exact Or.inl ⟨path, rfl, hregistered, h.1, h.2⟩
    · exact Or.inr ⟨by rw [h.1]; decide, h.2⟩

theorem answered_queue (response : WebTransportResponse) :
    (answered response).incomingBidirectionalStreams = [] := by
  unfold answered
  split <;> rfl

theorem permitted_quiet {out : List Effect} (hquiet : processed out = []) (id : StreamId) :
    ∀ e ∈ out.map (Entry.request id), ∀ before, Permitted q before e := by
  intro e he before
  obtain ⟨effect, heffect, rfl⟩ := List.mem_map.mp he
  have hnone := List.filterMap_eq_nil_iff.mp hquiet effect heffect
  cases effect with
  | processWebTransportRequest headers response => cases hnone
  | _ => trivial

def Server.setRequest (id : StreamId) (s : QuitServerStream) (out : List Effect) (v : Server) :
    Server :=
  { v with requests := Function.update v.requests id s }.append (out.map (.request id))

section Request
variable {id : StreamId} {s : QuitServerStream} {out : List Effect}

theorem setRequest_requests (j : StreamId) :
    (v.setRequest id s out).requests j = if j = id then s else v.requests j :=
  Function.update_apply ..

theorem setRequest_session (j : StreamId) :
    (v.setRequest id s out).session j = if j = id then s.webTransport else v.session j := by
  unfold Server.session
  rw [setRequest_requests]
  split <;> rfl

theorem setRequest_log : (v.setRequest id s out).log = v.log ++ out.map (.request id) := rfl

theorem setRequest_requestsLinked (h : RequestsLinked v) (htrace : s.trace = (v.requests id).trace ++ out)
    (hid : s.id = id) (hs : s.SessionSound) : RequestsLinked (v.setRequest id s out) where
  registered := by
    rw [setRequest_log, registrations_append, registrations_request, List.append_nil]
    exact h.registered
  traced j := by
    rw [setRequest_log, effects_append, effects_request, setRequest_requests, h.traced j]
    by_cases hj : j = id
    · subst hj
      rw [if_pos rfl, if_pos rfl, htrace]
    · rw [if_neg hj, if_neg fun heq => hj heq.symm, List.append_nil]
  named j := by
    rw [setRequest_requests]
    split
    · rename_i hj
      exact hid.trans hj.symm
    · exact h.named j
  sound j := by
    rw [setRequest_requests]
    split
    · exact hs
    · exact h.sound j

theorem setRequest_steady {j : StreamId} (hj : j ≠ id) : Steady v (v.setRequest id s out) j := by
  refine steady_of_stream setRequest_log ?_ (callbacks_request ..) (Or.inl ?_)
  · rw [effects_request, if_neg fun heq => hj heq.symm]
  · rw [setRequest_session, if_neg hj]

theorem setRequest_linked (h : Linked q v) (hrequests : RequestsLinked (v.setRequest id s out))
    (hroutes : Routes q (v.setRequest id s out) id)
    (hkept : ∀ w, v.session id = some w → s.webTransport = some w)
    (hqueue : ∀ w, s.webTransport = some w →
      v.session id = some w ∨ w.incomingBidirectionalStreams = [])
    (hhistory : History.Holds (Permitted q) v.log (out.map (.request id))) :
    Linked q (v.setRequest id s out) := by
  refine ⟨hrequests, ?_, ?_, ?_, ?_⟩
  · intro j
    by_cases hj : j = id
    · exact hj ▸ hroutes
    · exact (setRequest_steady hj).routes (h.routes j)
  · intro j w hw x hx
    rw [setRequest_session] at hw
    split at hw
    · rename_i hj
      subst hj
      rcases hqueue w hw with hold | hempty
      · exact h.queue j w hold x hx
      · rw [hempty] at hx
        cases hx
    · exact h.queue j w hw x hx
  · intro x
    refine (h.stream x).transfer setRequest_log (sessions_request ..) (messages_request ..)
      (received_request ..) rfl ?_
    intro j transport ht
    by_cases hj : j = id
    · subst hj
      unfold Server.transport at ht ⊢
      rw [setRequest_session, if_pos rfl]
      cases hw : v.session j with
      | none =>
        rw [hw] at ht
        cases ht
      | some w =>
        rw [hkept w hw, ← hw]
        exact ht
    · exact (setRequest_steady hj).transport ht
  · exact (History.holds_append _ _ _).mpr ⟨h.history, hhistory⟩

theorem setRequest_routes_of_quiet (h : Routes q v id) (hquiet : processed out = [])
    (hkept : ∀ w, v.session id = some w → s.webTransport = some w)
    (hfresh : ∀ w, s.webTransport = some w → v.session id = some w ∨ w = .new) :
    Routes q (v.setRequest id s out) id := by
  have hsteady : Steady v (v.setRequest id s out) id := by
    refine ⟨⟨out, ?_, hquiet⟩, ⟨[], ?_⟩, ?_, ?_⟩
    · rw [setRequest_log, effects_append, effects_request, if_pos rfl]
    · rw [setRequest_log, registrations_append, registrations_request]
    · rw [setRequest_log, callbacks_append, callbacks_request, List.append_nil]
    · rw [setRequest_session, if_pos rfl]
      cases hold : v.session id with
      | some w => exact Or.inl (hkept w hold)
      | none =>
        cases hnew : s.webTransport with
        | none => exact Or.inl rfl
        | some w =>
          rcases hfresh w hnew with hsame | rfl
          · rw [hold] at hsame
            cases hsame
          · exact Or.inr (Or.inr ⟨rfl, rfl⟩)
  exact hsteady.routes h

theorem routes_of_answer {headers : Http2HeaderBlock} {response : WebTransportResponse}
    (hanswers : Answers q (registrations v.log) id headers response)
    (hasked : processed (effects id v.log) = [(headers, response)])
    (hanswered : ∀ e ∈ answer headers response, e ∈ effects id v.log)
    (hopened : v.session id = some (answered response)) (huncalled : callbacks id v.log = []) :
    Routes q v id := by
  rcases hanswers.cases with ⟨path, htarget, hregistered, hstatus, hvisitor⟩ | ⟨hstatus, hvisitor⟩
  · rw [answered_accepted hstatus] at hopened
    refine Or.inr ⟨headers, response, path, _, hasked, by rw [hvisitor]; rfl, ?_, htarget,
      hregistered, hopened, rfl, hvisitor, huncalled⟩
    apply hanswered
    rw [answer_accepted hstatus]
    exact List.mem_cons_self
  · refine Or.inl ⟨Or.inr ⟨headers, response, hasked, hvisitor⟩, ?_, huncalled⟩
    intro w hw
    rw [hopened, answered_refused hstatus] at hw
    rw [← Option.some.inj hw]
    exact ⟨rfl, rfl⟩

theorem setRequest_routes_of_answer {headers : Http2HeaderBlock} {response : WebTransportResponse}
    (h : Routes q v id) (hfirst : processed (effects id v.log) = [])
    (hanswers : Answers q (registrations v.log) id headers response) (hquiet : processed out = [])
    (hopened : s.webTransport = some (answered response)) :
    Routes q (v.setRequest id s
      (out ++ .processWebTransportRequest headers response :: answer headers response)) id := by
  refine @routes_of_answer q _ id headers response ?_ ?_ ?_ ?_ ?_
  · rw [setRequest_log, registrations_append, registrations_request, List.append_nil]
    exact hanswers
  · rw [setRequest_log, effects_append, effects_request, if_pos rfl, processed_append,
      processed_append, hfirst, hquiet]
    change (headers, response) :: processed (answer headers response) = _
    rw [processed_answer]
  · intro e he
    rw [setRequest_log, effects_append, effects_request, if_pos rfl]
    exact List.mem_append_right _ (List.mem_append_right _ (List.mem_cons_of_mem _ he))
  · rw [setRequest_session, if_pos rfl, hopened]
  · rw [setRequest_log, callbacks_append, callbacks_request, List.append_nil]
    rcases h with hw | ⟨_, _, _, _, hg⟩
    · exact hw.uncalled
    · rw [hg.asked] at hfirst
      cases hfirst

end Request

theorem onRequest_linked (h : Linked q v) (react : List Effect → List HandlerCall) (id : StreamId)
    (e : Event) : Linked q (v.onRequest q react id e) := by
  have hsound := h.requests.sound id
  have hs := QuitServerStream.step_sound q (v.streamBackend q react) e hsound
  have hid := (QuitServerStream.step_id q (v.streamBackend q react) e hsound).trans (h.requests.named id)
  have hstep := QuitServerStream.step_sessionStep q (v.streamBackend q react) e hsound
  change Linked q (v.setRequest id
    (ServerStream.step q (v.streamBackend q react) (v.requests id) e)
    ((ServerStream.step q (v.streamBackend q react) (v.requests id) e).trace.drop
      (v.requests id).trace.length))
  generalize ServerStream.step q (v.streamBackend q react) (v.requests id) e = s at hs hid hstep ⊢
  cases hstep with
  | continues out htrace hquiet hkept hfresh =>
    rw [htrace, List.drop_left]
    refine setRequest_linked h (setRequest_requestsLinked h.requests htrace hid hs)
      (setRequest_routes_of_quiet (h.routes id) hquiet hkept hfresh) hkept ?_
      (History.holds_of_all (permitted_quiet hquiet id))
    intro w hw
    rcases hfresh w hw with hold | rfl
    · exact Or.inl hold
    · exact Or.inr rfl
  | processes out headers response hfirst hclosed hquiet hasked htrace hopened =>
    have hanswers : Answers q (registrations v.log) id headers response := by
      rw [hasked, h.requests.named id]
      exact processWebTransportRequest_answers h.requests.registered id headers
    rw [htrace, List.drop_left]
    refine setRequest_linked h (setRequest_requestsLinked h.requests htrace hid hs)
      (setRequest_routes_of_answer (h.routes id) ?_ hanswers hquiet hopened) ?_ ?_ ?_
    · rw [h.requests.traced id]
      exact hfirst
    · intro w hw
      have hnone : v.session id = none := hclosed
      rw [hw] at hnone
      cases hnone
    · intro w hw
      rw [hopened] at hw
      rw [← Option.some.inj hw]
      exact Or.inr (answered_queue response)
    · rw [List.map_append, List.map_cons]
      refine (History.holds_append _ _ _).mpr ⟨History.holds_of_all (permitted_quiet hquiet id), ?_,
        History.holds_of_all (permitted_quiet (processed_answer headers response) id)⟩
      change Answers q (registrations (v.log ++ out.map (.request id))) id headers response
      rw [registrations_append, registrations_request, List.append_nil]
      exact hanswers

end QuailServer.WebTransportServer
