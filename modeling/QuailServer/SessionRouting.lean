import QuailServer.SessionEvents

set_option autoImplicit false

namespace QuailServer.SessionRouting
open HeaderBlock WebTransport ServerStream ServerBackend WebTransportServer FirstWrite

/-- Requests are answered at most once each, by the registrations before them, and the answer is
    what the stream does next. A refused session has neither a visitor nor a callback. An accepted
    one has a visitor, and once it is ready exactly the callback first registered for its path. -/
structure Routed (q : Platform) (v : Server) : Prop where
  history : History.Holds (Permitted q) [] v.log
  once : ∀ id, (processed (effects id v.log)).length ≤ 1
  answered : ∀ id headers response, (headers, response) ∈ processed (effects id v.log) →
    .processWebTransportRequest headers response :: answer headers response <:+: effects id v.log
  refused : ∀ id, (∀ asked ∈ processed (effects id v.log), asked.2.visitor = none) →
    (v.session id).bind WebTransportSession.visitor = none ∧ callbacks id v.log = []
  accepted : ∀ id headers response, (headers, response) ∈ processed (effects id v.log) →
    response.visitor.isSome = true → ∃ path callback,
      headers.find ":path" = some path ∧
      firstWrite (registrations v.log) (q.gurlPath path) = some callback ∧
      ((v.session id).bind WebTransportSession.visitor).isSome = true ∧
      (callbacks id v.log = [] ∨ callbacks id v.log = [some callback]) ∧
      callbacks id (v.sessionReady id).log = [some callback]

section Linked
variable {q : Platform} {v : Server} {id : StreamId} {headers : Http2HeaderBlock}
  {response : WebTransportResponse} {path : Str} {w : WebTransportSession}

theorem linked_once (h : Linked q v) (id : StreamId) : (processed (effects id v.log)).length ≤ 1 := by
  rcases h.routes id with hw | ⟨headers, response, path, w, hg⟩
  · rcases hw.asked with hnone | ⟨headers, response, hone, -⟩
    · rw [hnone]
      exact Nat.zero_le 1
    · rw [hone]
      exact Nat.le_refl 1
  · rw [hg.asked]
    exact Nat.le_refl 1

theorem linked_refused (h : Linked q v)
    (hrefused : ∀ asked ∈ processed (effects id v.log), asked.2.visitor = none) :
    (v.session id).bind WebTransportSession.visitor = none ∧ callbacks id v.log = [] := by
  rcases h.routes id with hw | ⟨headers, response, path, w, hg⟩
  · refine ⟨?_, hw.uncalled⟩
    cases hsession : v.session id with
    | none => rfl
    | some w => exact (hw.idle w hsession).1
  · have hnone : response.visitor = none := by
      refine hrefused (headers, response) ?_
      rw [hg.asked]
      exact List.mem_cons_self
    have haccepted := hg.accepted
    rw [hnone] at haccepted
    cases haccepted

theorem granted_of_accepted (h : Linked q v) (hmem : (headers, response) ∈ processed (effects id v.log))
    (haccepted : response.visitor.isSome = true) :
    ∃ path w, Granted q v id headers response path w := by
  rcases h.routes id with hw | ⟨headers', response', path, w, hg⟩
  · rcases hw.asked with hnone | ⟨headers', response', hone, hrefused⟩
    · rw [hnone] at hmem
      cases hmem
    · rw [hone, List.mem_singleton] at hmem
      obtain ⟨rfl, rfl⟩ := Prod.mk.inj hmem
      rw [hrefused] at haccepted
      cases haccepted
  · have hone := hg.asked
    rw [hone, List.mem_singleton] at hmem
    obtain ⟨rfl, rfl⟩ := Prod.mk.inj hmem
    exact ⟨path, w, hg⟩

theorem granted_callbacks (hg : Granted q v id headers response path w) {callback : Callback}
    (hcallback : firstWrite (registrations v.log) (q.gurlPath path) = some callback) :
    callbacks id v.log = if w.ready then [some callback] else [] := by
  rw [← hcallback]
  exact hg.called

theorem granted_sessionReady (h : Linked q v) (hg : Granted q v id headers response path w)
    {callback : Callback}
    (hcallback : firstWrite (registrations v.log) (q.gurlPath path) = some callback) :
    callbacks id (v.sessionReady id).log = [some callback] := by
  cases hr : w.ready with
  | true =>
    rw [sessionReady_ready hg hr, granted_callbacks hg hcallback, hr]
    rfl
  | false =>
    have hready := setReady_granted hg hr
    have hsame : firstWrite (registrations (v.setReady id w (q.gurlPath path)).log)
        (q.gurlPath path) = some callback := by
      unfold Server.setReady
      rw [Server.append_log, registrations_append]
      exact firstWrite_append_of_some hcallback _
    rw [sessionReady_granted h hg hr]
    exact granted_callbacks hready hsame

theorem linked_routed (h : Linked q v) : Routed q v where
  history := h.history
  once := linked_once h
  answered id headers response hmem := by
    rw [h.requests.traced id] at hmem ⊢
    exact (h.requests.sound id).answered headers response hmem
  refused id := linked_refused h
  accepted id headers response hmem haccepted := by
    obtain ⟨path, w, hg⟩ := granted_of_accepted h hmem haccepted
    obtain ⟨callback, hcallback⟩ := Option.isSome_iff_exists.mp
      ((firstWrite_isSome (registrations v.log) (q.gurlPath path)).mpr hg.registered)
    refine ⟨path, callback, hg.target, hcallback, ?_, ?_, granted_sessionReady h hg hcallback⟩
    · rw [hg.opened, Option.bind_some, hg.visitor]
      rfl
    · rw [granted_callbacks hg hcallback]
      cases w.ready with
      | true => exact Or.inr rfl
      | false => exact Or.inl rfl

end Linked

/-- In every run, with any reactions of the backend on other requests. -/
theorem sessions_routed (q : Platform) (react : List Effect → List HandlerCall)
    (events : List ServerEvent) : Routed q (serve q react events) :=
  linked_routed (serve_linked q react events)

end QuailServer.SessionRouting
