import QuailServer.SessionInvariant

set_option autoImplicit false

namespace QuailServer.WebTransportServer
open HeaderBlock WebTransport ServerStream ServerBackend FirstWrite

variable {q : Platform} {v : Server}

def readied (w : WebTransportSession) (id : StreamId) (found : Str) : WebTransportSession :=
  { w with ready := true, visitor := some ⟨id, [found], some ⟨id⟩⟩ }

def Server.setReady (id : StreamId) (w : WebTransportSession) (found : Str) (v : Server) : Server :=
  (v.setSession id (readied w id found)).append
    [.callback (firstWrite (registrations v.log) found) ⟨id⟩]

section Ready
variable {id : StreamId} {headers : Http2HeaderBlock} {response : WebTransportResponse} {path : Str}
  {w : WebTransportSession}

theorem sessionReady_granted (h : Linked q v) (hg : Granted q v id headers response path w)
    (hr : w.ready = false) : v.sessionReady id = v.setReady id w (q.gurlPath path) := by
  have hvisitor : w.visitor = some ⟨id, [q.gurlPath path], none⟩ := by
    rw [hg.visitor, hr]
    rfl
  have hlookup : v.backend.callbacks.lookup (q.gurlPath path) =
      firstWrite (registrations v.log) (q.gurlPath path) := by
    rw [h.requests.registered, lookup_ofWrites]
  unfold Server.sessionReady
  rw [hg.opened]
  dsimp only
  rw [hg.headersReceived, hr, hvisitor, if_pos (by rfl)]
  dsimp only [Server.onSessionReady, List.map]
  rw [hlookup]
  unfold Server.setReady readied
  rw [hg.headersReceived]

theorem sessionReady_ready (hg : Granted q v id headers response path w) (hr : w.ready = true) :
    v.sessionReady id = v := by
  unfold Server.sessionReady
  rw [hg.opened]
  dsimp only
  rw [hr, if_neg (by simp)]

theorem sessionReady_withheld (hw : Withheld v id) : v.sessionReady id = v := by
  unfold Server.sessionReady
  cases hsession : v.session id with
  | none => rfl
  | some w =>
    dsimp only
    rw [(hw.idle w hsession).2, if_neg (by simp)]

theorem setReady_session (found : Str) (j : StreamId) :
    (v.setReady id w found).session j = if j = id then some (readied w id found) else v.session j :=
  Server.setSession_session ..

theorem setReady_steady (found : Str) {j : StreamId} (hj : j ≠ id) :
    Steady v (v.setReady id w found) j := by
  refine steady_of_stream rfl rfl ?_ (Or.inl ?_)
  · simp [callbacks, Ne.symm hj]
  · rw [setReady_session, if_neg hj]

theorem setReady_granted (hg : Granted q v id headers response path w) (hr : w.ready = false) :
    Granted q (v.setReady id w (q.gurlPath path)) id headers response path
      (readied w id (q.gurlPath path)) := by
  have hlog : (v.setReady id w (q.gurlPath path)).log =
      v.log ++ [.callback (firstWrite (registrations v.log) (q.gurlPath path)) ⟨id⟩] := rfl
  have heff : effects id (v.setReady id w (q.gurlPath path)).log = effects id v.log := by
    rw [hlog, effects_append]
    exact List.append_nil _
  have hreg : registrations (v.setReady id w (q.gurlPath path)).log = registrations v.log := by
    rw [hlog, registrations_append]
    exact List.append_nil _
  refine ⟨heff ▸ hg.asked, hg.accepted, heff ▸ hg.written, hg.target, hreg ▸ hg.registered, ?_,
    hg.headersReceived, rfl, ?_⟩
  · rw [setReady_session, if_pos rfl]
  · rw [hreg, hlog, callbacks_append, hg.called, hr]
    simp [callbacks, readied]

theorem setReady_linked (h : Linked q v) (hg : Granted q v id headers response path w)
    (hr : w.ready = false) : Linked q (v.setReady id w (q.gurlPath path)) := by
  refine ⟨(h.requests.setSession hg.opened _).append rfl fun _ => rfl, ?_, ?_, ?_, ?_⟩
  · intro j
    by_cases hj : j = id
    · subst hj
      exact Or.inr ⟨headers, response, path, _, setReady_granted hg hr⟩
    · exact (setReady_steady _ hj).routes (h.routes j)
  · intro j u hu x hx
    rw [setReady_session] at hu
    split at hu
    · rename_i hj
      subst hj
      rw [← Option.some.inj hu] at hx
      exact h.queue j w hg.opened x hx
    · exact h.queue j u hu x hx
  · intro x
    refine (h.stream x).transfer rfl rfl rfl rfl rfl ?_
    intro j transport ht
    by_cases hj : j = id
    · -- The session had no transport before.
      subst hj
      unfold Server.transport at ht
      rw [hg.opened] at ht
      simp only [Option.bind_some, hg.visitor, hr] at ht
      cases ht
    · exact (setReady_steady _ hj).transport ht
  · obtain ⟨callback, hcallback⟩ := Option.isSome_iff_exists.mp
      ((firstWrite_isSome (registrations v.log) (q.gurlPath path)).mpr hg.registered)
    have hmem : (headers, response) ∈ processed (effects id v.log) := by
      rw [hg.asked]
      exact List.mem_cons_self
    exact (History.holds_append _ _ _).mpr ⟨h.history, ⟨headers, response, path, callback, hmem,
      hg.accepted, hg.written, hg.target, hcallback, hcallback⟩, trivial⟩

end Ready

theorem sessionReady_linked (h : Linked q v) (id : StreamId) : Linked q (v.sessionReady id) := by
  rcases h.routes id with hw | ⟨headers, response, path, w, hg⟩
  · rw [sessionReady_withheld hw]
    exact h
  · cases hr : w.ready with
    | true =>
      rw [sessionReady_ready hg hr]
      exact h
    | false =>
      rw [sessionReady_granted h hg hr]
      exact setReady_linked h hg hr

section Stream
variable {v' : Server} {entries : List Entry}

/-- An event that concerns one stream, and of the sessions at most their queues. -/
theorem linked_of_stream (x : StreamId) (h : Linked q v) (hlog : v'.log = v.log ++ entries)
    (hrequests : RequestsLinked v') (hsteady : ∀ j, Steady v v' j)
    (hqueue : ∀ id w, v'.session id = some w → ∀ y ∈ w.incomingBidirectionalStreams,
      (v'.streams y).session = some id)
    (hother : ∀ y, y ≠ x → v'.streams y = v.streams y ∧ sessions y entries = [] ∧
      messages y entries = [] ∧ received y entries = [])
    (hstream : StreamLinked v' x) (hhistory : History.Holds (Permitted q) v.log entries) :
    Linked q v' := by
  refine ⟨hrequests, fun j => (hsteady j).routes (h.routes j), hqueue, ?_, ?_⟩
  · intro y
    by_cases hy : y = x
    · exact hy ▸ hstream
    · obtain ⟨hsame, hsessions, hmessages, hreceived⟩ := hother y hy
      exact (h.stream y).transfer hlog hsessions hmessages hreceived hsame
        fun j transport ht => (hsteady j).transport ht
  · rw [hlog]
    exact (History.holds_append _ _ _).mpr ⟨h.history, hhistory⟩

theorem steady_of_queue {id : StreamId} {w : WebTransportSession} {incoming : List StreamId}
    (hw : v.session id = some w) (hlog : v'.log = v.log ++ entries)
    (heff : ∀ j, effects j entries = []) (hcall : ∀ j, callbacks j entries = [])
    (hsession : ∀ j, v'.session j =
      if j = id then some { w with incomingBidirectionalStreams := incoming } else v.session j)
    (j : StreamId) : Steady v v' j := by
  refine steady_of_stream hlog (heff j) (hcall j) ?_
  rw [hsession]
  by_cases hj : j = id
  · subst hj
    exact Or.inr ⟨w, incoming, hw, if_pos rfl⟩
  · exact Or.inl (if_neg hj)

theorem queue_of_updates {id x : StreamId} {w : WebTransportSession} {incoming : List StreamId}
    {u : WebTransportStream} (h : Linked q v)
    (hsession : ∀ j, v'.session j =
      if j = id then some { w with incomingBidirectionalStreams := incoming } else v.session j)
    (hstreams : ∀ y, v'.streams y = if y = x then u else v.streams y)
    (hincoming : ∀ y ∈ incoming, (v'.streams y).session = some id)
    (hkept : ∀ j, (v.streams x).session = some j → u.session = some j) :
    ∀ j w', v'.session j = some w' → ∀ y ∈ w'.incomingBidirectionalStreams,
      (v'.streams y).session = some j := by
  intro j w' hw' y hy
  rw [hsession] at hw'
  split at hw'
  · rename_i hj
    subst hj
    rw [← Option.some.inj hw'] at hy
    exact hincoming y hy
  · have hold := h.queue j w' hw' y hy
    rw [hstreams]
    split
    · rename_i hyx
      rw [hyx] at hold
      exact hkept j hold
    · exact hold

end Stream

theorem streamArrives_linked (h : Linked q v) (id x : StreamId) : Linked q (v.streamArrives id x) := by
  unfold Server.streamArrives
  cases hw : v.session id with
  | none => exact h
  | some w =>
    cases hx : (v.streams x).session with
    | some id' => exact h
    | none =>
      dsimp only
      generalize hv : ((v.setStream x { v.streams x with session := some id }).setSession id
        { w with incomingBidirectionalStreams := w.incomingBidirectionalStreams ++ [x] }).append
        [.arrived id x] = v'
      have hlog : v'.log = v.log ++ [.arrived id x] := by rw [← hv]; rfl
      have hstreams : ∀ y, v'.streams y =
          if y = x then { v.streams x with session := some id } else v.streams y := by
        intro y
        rw [← hv]
        exact Server.setStream_streams ..
      have hsession : ∀ j, v'.session j = if j = id then some { w with
          incomingBidirectionalStreams := w.incomingBidirectionalStreams ++ [x] } else v.session j := by
        intro j
        rw [← hv]
        exact Server.setSession_session ..
      have hstream : v'.streams x = { v.streams x with session := some id } := by
        rw [hstreams, if_pos rfl]
      have hlinked := h.stream x
      refine linked_of_stream x h hlog ?_ (steady_of_queue hw hlog (fun _ => rfl) (fun _ => rfl) hsession)
        ?_ ?_ ⟨?_, ?_, ?_⟩ ⟨trivial, trivial⟩
      · rw [← hv]
        exact RequestsLinked.append (RequestsLinked.setSession (h.requests.setStream x _) hw _) rfl
          fun _ => rfl
      · refine queue_of_updates h hsession hstreams ?_ (fun j hj => ?_)
        · intro y hy
          rw [hstreams]
          split
          · rfl
          · rename_i hne
            exact h.queue id w hw y ((List.mem_append.mp hy).resolve_right
              fun hlast => hne (List.mem_singleton.mp hlast))
        · rw [hx] at hj
          cases hj
      · intro y hy
        refine ⟨?_, ?_, rfl, rfl⟩
        · rw [hstreams, if_neg hy]
        · simp [sessions, Ne.symm hy]
      · rw [hlog, sessions_append, hlinked.session, hx, hstream]
        simp [sessions]
      · rw [hlog, messages_append, received_append, hstream]
        simpa [messages, received] using hlinked.conserved
      · intro visitor hvisitor
        rw [hstream] at hvisitor
        obtain ⟨id', -, hsome, -⟩ := hlinked.visitor visitor hvisitor
        rw [hx] at hsome
        cases hsome

/-- An event that concerns neither the session of a stream nor its visitor. -/
theorem setStream_linked (h : Linked q v) {x : StreamId} {u : WebTransportStream}
    {entries : List Entry} (hreg : registrations entries = []) (heff : ∀ id, effects id entries = [])
    (hcall : ∀ id, callbacks id entries = []) (hsessions : ∀ y, sessions y entries = [])
    (hother : ∀ y, y ≠ x → messages y entries = [] ∧ received y entries = [])
    (hsession : u.session = (v.streams x).session) (hvisitor : u.visitor = (v.streams x).visitor)
    (hconserved : messages x v.log ++ messages x entries ++ u.unread =
      received x v.log ++ received x entries)
    (hhistory : History.Holds (Permitted q) v.log entries) :
    Linked q ((v.setStream x u).append entries) := by
  have hstream : ((v.setStream x u).append entries).streams x = u := Server.setStream_same ..
  refine linked_of_stream x h rfl ((h.requests.setStream x u).append hreg heff)
    (fun j => steady_of_stream rfl (heff j) (hcall j) (Or.inl rfl)) ?_ ?_ ⟨?_, ?_, ?_⟩ hhistory
  · intro j w hw y hy
    have hold := h.queue j w hw y hy
    rw [Server.append_streams, Server.setStream_streams]
    split
    · rename_i heq
      rw [hsession, ← heq]
      exact hold
    · exact hold
  · intro y hy
    refine ⟨?_, hsessions y, hother y hy⟩
    rw [Server.append_streams, Server.setStream_streams, if_neg hy]
  · rw [hstream, hsession, Server.append_log, sessions_append, hsessions, List.append_nil]
    exact (h.stream x).session
  · rw [hstream, Server.append_log, messages_append, received_append]
    exact hconserved
  · rw [hstream, hvisitor, hsession]
    exact (h.stream x).visitor

theorem onCanRead_linked (h : Linked q v) {x : StreamId} {visitor : QuitTransportStream}
    (hvisitor : (v.streams x).visitor = some visitor) : Linked q (v.onCanRead x visitor) := by
  have hlinked := h.stream x
  obtain ⟨id, rfl, hsession, htransport⟩ := hlinked.visitor visitor hvisitor
  unfold Server.onCanRead
  dsimp only [List.map]
  rw [htransport]
  refine setStream_linked h rfl (fun _ => rfl) (fun _ => rfl) (fun _ => rfl) ?_ rfl rfl ?_ ?_
  · intro y hy
    exact ⟨by simp [messages, Ne.symm hy], rfl⟩
  · simpa [messages, received] using hlinked.conserved
  · refine ⟨⟨id, rfl, ?_, hlinked.conserved⟩, trivial⟩
    rw [hlinked.session, hsession]
    rfl

theorem dataArrives_linked (h : Linked q v) (x : StreamId) (data : Str) (fin : Bool) :
    Linked q (v.dataArrives x data fin) := by
  unfold Server.dataArrives
  split
  · have hreceived : Linked q ((v.setStream x
        { v.streams x with unread := (v.streams x).unread ++ data, fin := fin }).append
        [.received x data]) := by
      refine setStream_linked h rfl (fun _ => rfl) (fun _ => rfl) (fun _ => rfl) ?_ rfl rfl ?_
        ⟨trivial, trivial⟩
      · intro y hy
        exact ⟨rfl, by simp [received, Ne.symm hy]⟩
      · have hdata : received x [.received x data] = data := by simp [received]
        have hnone : messages x [.received x data] = [] := rfl
        rw [hdata, hnone, List.append_nil, ← (h.stream x).conserved, List.append_assoc]
    dsimp only
    split
    · rename_i visitor hvisitor
      exact onCanRead_linked hreceived hvisitor
    · exact hreceived
  · exact h

theorem transport_ready (h : Linked q v) {id : StreamId} {w : WebTransportSession}
    (hw : v.session id = some w) (hready : w.ready = true) (hvisitor : w.visitor.isSome = true) :
    v.transport id = some ⟨id⟩ := by
  rcases h.routes id with hwithheld | ⟨headers, response, path, w', hg⟩
  · rw [(hwithheld.idle w hw).1] at hvisitor
    cases hvisitor
  · obtain rfl := Option.some.inj (hg.opened.symm.trans hw)
    unfold Server.transport
    rw [hw]
    simp [hg.visitor, hready]

theorem onIncomingBidirectionalStreamAvailable_linked (h : Linked q v) {id : StreamId}
    {w : WebTransportSession} (hw : v.session id = some w) (htransport : v.transport id = some ⟨id⟩) :
    Linked q (v.onIncomingBidirectionalStreamAvailable id w) := by
  unfold Server.onIncomingBidirectionalStreamAvailable
  cases hqueue : w.incomingBidirectionalStreams with
  | nil => exact h
  | cons x incoming =>
    dsimp only
    generalize hv : (v.setSession id { w with incomingBidirectionalStreams := incoming }).setStream x
      { v.streams x with visitor := some ⟨x, [id]⟩ } = v'
    have hlog : v'.log = v.log ++ [] := by rw [← hv, List.append_nil]; rfl
    have hstreams : ∀ y, v'.streams y =
        if y = x then { v.streams x with visitor := some ⟨x, [id]⟩ } else v.streams y := by
      intro y
      rw [← hv]
      exact Server.setStream_streams ..
    have hsession : ∀ j, v'.session j = if j = id then some { w with
        incomingBidirectionalStreams := incoming } else v.session j := by
      intro j
      rw [← hv]
      exact Server.setSession_session ..
    have hsame : ∀ y, (v'.streams y).session = (v.streams y).session := by
      intro y
      rw [hstreams]
      split
      · rename_i hy
        rw [hy]
      · rfl
    have hstream : v'.streams x = { v.streams x with visitor := some ⟨x, [id]⟩ } := by
      rw [hstreams, if_pos rfl]
    have hsteady := steady_of_queue hw hlog (fun _ => rfl) (fun _ => rfl) hsession
    have hqueued : ∀ y ∈ x :: incoming, (v.streams y).session = some id := by
      rw [← hqueue]
      exact h.queue id w hw
    refine linked_of_stream x h hlog ?_ hsteady ?_ ?_ ⟨?_, ?_, ?_⟩ trivial
    · rw [← hv]
      exact (h.requests.setSession hw _).setStream x _
    · refine queue_of_updates h hsession hstreams (fun y hy => ?_) (fun j hj => hj)
      rw [hsame]
      exact hqueued y (List.mem_cons_of_mem x hy)
    · intro y hy
      refine ⟨?_, rfl, rfl, rfl⟩
      rw [hstreams, if_neg hy]
    · rw [hsame, hlog, List.append_nil]
      exact (h.stream x).session
    · rw [hlog, List.append_nil, hstream]
      exact (h.stream x).conserved
    · intro visitor hvisitor
      rw [hstream] at hvisitor
      refine ⟨id, (Option.some.inj hvisitor).symm, ?_, (hsteady id).transport htransport⟩
      rw [hsame]
      exact hqueued x List.mem_cons_self

theorem streamAvailable_linked (h : Linked q v) (id : StreamId) : Linked q (v.streamAvailable id) := by
  unfold Server.streamAvailable
  cases hw : v.session id with
  | none => exact h
  | some w =>
    dsimp only
    split
    · rename_i hnotified
      simp only [Bool.and_eq_true] at hnotified
      exact onIncomingBidirectionalStreamAvailable_linked h hw
        (transport_ready h hw hnotified.1 hnotified.2)
    · exact h

theorem new_linked (q : Platform) : Linked q .new where
  requests := ⟨rfl, fun _ => rfl, fun _ => rfl, QuitServerStream.new_sound⟩
  routes _ := Or.inl ⟨Or.inl rfl, (fun _ hw => by cases hw), rfl⟩
  queue _ _ hw := by cases hw
  stream _ := ⟨rfl, rfl, fun _ hvisitor => by cases hvisitor⟩
  history := trivial

theorem step_linked (h : Linked q v) (react : List Effect → List HandlerCall) (e : ServerEvent) :
    Linked q (v.step q react e) := by
  cases e with
  | on path callback => exact on_linked h path callback
  | request id event => exact onRequest_linked h react id event
  | sessionReady id => exact sessionReady_linked h id
  | streamArrives id x => exact streamArrives_linked h id x
  | dataArrives x data fin => exact dataArrives_linked h x data fin
  | streamAvailable id => exact streamAvailable_linked h id

theorem serve_linked (q : Platform) (react : List Effect → List HandlerCall)
    (events : List ServerEvent) : Linked q (serve q react events) :=
  StepMachine.invariant_after (I := Linked q) (fun _ e h => step_linked h react e) (new_linked q) events

end QuailServer.WebTransportServer
