import QuailServer.BodyDelivery

set_option autoImplicit false

namespace QuailServer.ServerStream
open HeaderBlock WebTransport

def processed (trace : List Effect) : List (Http2HeaderBlock × WebTransportResponse) :=
  trace.filterMap fun
    | .processWebTransportRequest headers response => some (headers, response)
    | _ => none

@[simp] theorem processed_append (t u : List Effect) :
    processed (t ++ u) = processed t ++ processed u := List.filterMap_append

theorem processed_output {out : List Effect} (h : ∀ e ∈ out, e.isOutput = true) :
    processed out = [] := by
  refine List.filterMap_eq_nil_iff.mpr ?_
  intro e he
  have ho := h e he
  cases e with
  | processWebTransportRequest headers response => cases ho
  | _ => rfl

/-- What the stream does with a result of `ProcessWebTransportRequest`. -/
def answer (headers : Http2HeaderBlock) (response : WebTransportResponse) : List Effect :=
  if response.responseHeaders.find ":status" = some ("200" : Str) then
    .writeHeaders .response response.responseHeaders false ::
      ((response.visitor.map Effect.setVisitor).toList ++ [.headersReceived headers])
  else [.writeHeaders .response response.responseHeaders true]

def answered (response : WebTransportResponse) : WebTransportSession :=
  if response.responseHeaders.find ":status" = some ("200" : Str) then
    { WebTransportSession.new with visitor := response.visitor, headersReceived := true }
  else .new

section Answer
variable {response : WebTransportResponse}

theorem answer_accepted (h : response.responseHeaders.find ":status" = some ("200" : Str))
    (headers : Http2HeaderBlock) : answer headers response =
      .writeHeaders .response response.responseHeaders false ::
        ((response.visitor.map Effect.setVisitor).toList ++ [.headersReceived headers]) := if_pos h

theorem answered_accepted (h : response.responseHeaders.find ":status" = some ("200" : Str)) :
    answered response = ⟨response.visitor, true, false, []⟩ := if_pos h

theorem answered_refused (h : response.responseHeaders.find ":status" ≠ some ("200" : Str)) :
    answered response = .new := if_neg h

end Answer

theorem processed_answer (headers : Http2HeaderBlock) (response : WebTransportResponse) :
    processed (answer headers response) = [] := by
  unfold answer
  split
  · cases response.visitor <;> rfl
  · rfl

namespace QuitServerStream

theorem processWebTransport_eq (b : Backend) {s : QuitServerStream}
    (hs : s.webTransport = some .new) : ∃ fin, s.processWebTransport b = { s with
      trace := s.trace ++ .processWebTransportRequest s.requestHeaders
          (b.processWebTransportRequest s.requestHeaders s.id) ::
        answer s.requestHeaders (b.processWebTransportRequest s.requestHeaders s.id)
      webTransport := some (answered (b.processWebTransportRequest s.requestHeaders s.id))
      finBuffered := fin } := by
  unfold processWebTransport answer answered
  generalize b.processWebTransportRequest s.requestHeaders s.id = response
  dsimp only
  by_cases hstatus : response.responseHeaders.find ":status" = some ("200" : Str)
  · simp only [if_pos hstatus]
    cases hvisitor : response.visitor with
    | none => exact ⟨s.finBuffered, by simp [headersReceived, writeHeaders, emit, hs, WebTransportSession.new]⟩
    | some visitor =>
      exact ⟨s.finBuffered, by
        simp [headersReceived, setVisitor, writeHeaders, emit, hs, WebTransportSession.new]⟩
  · simp only [if_neg hstatus]
    exact ⟨true, by simp [writeHeaders, emit, hs]⟩

structure Continues (s u : QuitServerStream) : Prop where
  trace : ∃ out, u.trace = s.trace ++ out ∧ processed out = []
  id : u.id = s.id
  requestHeaders : u.requestHeaders = s.requestHeaders
  headersComplete : u.headersComplete = s.headersComplete
  webTransport : u.webTransport = s.webTransport
  readingStopped : s.readingStopped = true → u.readingStopped = true

theorem Continues.refl (s : QuitServerStream) : Continues s s :=
  ⟨⟨[], (List.append_nil _).symm, rfl⟩, rfl, rfl, rfl, rfl, fun h => h⟩

theorem Continues.trans {s u v : QuitServerStream} (h : Continues s u) (k : Continues u v) :
    Continues s v where
  trace := by
    obtain ⟨out, ho, hout⟩ := h.trace
    obtain ⟨more, hm, hmore⟩ := k.trace
    refine ⟨out ++ more, by rw [hm, ho, List.append_assoc], ?_⟩
    rw [processed_append, hout, hmore, List.append_nil]
  id := k.id.trans h.id
  requestHeaders := k.requestHeaders.trans h.requestHeaders
  headersComplete := k.headersComplete.trans h.headersComplete
  webTransport := k.webTransport.trans h.webTransport
  readingStopped := k.readingStopped ∘ h.readingStopped

theorem Responds.continues {s u : QuitServerStream} (h : Responds s u) : Continues s u where
  trace := by
    obtain ⟨out, htrace, hout⟩ := h.trace
    exact ⟨out, htrace, processed_output hout⟩
  id := h.id
  requestHeaders := h.requestHeaders
  headersComplete := h.headersComplete
  webTransport := h.webTransport
  readingStopped := h.readingStopped

theorem emit_continues (s : QuitServerStream) {e : Effect} (he : processed [e] = []) :
    Continues s (s.emit e) :=
  ⟨⟨[e], rfl, he⟩, rfl, rfl, rfl, rfl, fun h => h⟩

theorem callBackend_continues (q : Platform) (b : Backend) (c : BackendCall)
    (s : QuitServerStream) : Continues s (s.callBackend q b c) :=
  (emit_continues s rfl).trans (callBackend_responds q b c s).continues

theorem sendErrorResponse_continues (s : QuitServerStream) (code : ℕ) :
    Continues s (s.sendErrorResponse code) := (sendErrorResponse_writes s code).toResponds.continues

theorem withBody_continues (s : QuitServerStream) (d : Delivery) : Continues s (s.withBody d) :=
  ⟨⟨[.onBodyAvailable d], rfl, rfl⟩, rfl, rfl, rfl, rfl, fun h => h⟩

theorem onFinRead_continues (s : QuitServerStream) : Continues s s.onFinRead :=
  ⟨⟨[], (List.append_nil _).symm, rfl⟩, rfl, rfl, rfl, rfl, fun h => h⟩

theorem sendResponse_continues (q : Platform) (b : Backend) {s : QuitServerStream}
    (hc : s.isConnectRequest = false) (hweb : s.webTransport = none) :
    Continues s (s.sendResponse q (some b)) := by
  have hchecking : Continues s (checking s) :=
    ⟨⟨[.sendResponse, .dcheck true], rfl, rfl⟩, rfl, rfl, rfl, rfl, fun h => h⟩
  by_cases hs : Checked s
  · rw [sendResponse_of_checked q b hc hweb hs]
    exact hchecking.trans (callBackend_continues q b _ _)
  · rw [sendResponse_of_unchecked q b hc hweb hs]
    exact hchecking.trans (sendErrorResponse_continues _ 0)

def SessionConnect (s : QuitServerStream) : Prop :=
  s.webTransport.isSome = true → s.isConnectRequest = true ∨ s.readingStopped = true

theorem Continues.sessionConnect {s u : QuitServerStream} (h : Continues s u)
    (hs : s.SessionConnect) : u.SessionConnect := by
  intro hweb
  rw [h.webTransport] at hweb
  rw [isConnectRequest_congr h.requestHeaders]
  exact (hs hweb).imp_right h.readingStopped

theorem SessionConnect.no_session {s : QuitServerStream} (hs : s.SessionConnect)
    (hc : s.isConnectRequest = false) (hreading : (s.readingStopped || s.readSideClosed) = false) :
    s.webTransport = none := by
  by_contra hne
  rcases hs (Option.isSome_iff_ne_none.mpr hne) with h | h
  · rw [hc] at h
    cases h
  · simp [h] at hreading

/-- The branch of `SendResponse` for a session is never reached: the session makes the request
    a CONNECT one, and its body goes to `HandleRequestConnectData`. -/
theorem offerBody_continues (q : Platform) (b : Backend) (d : Delivery) {s : QuitServerStream}
    (hs : s.SessionConnect) : Continues s (s.offerBody q (some b) d) := by
  unfold offerBody
  split
  · exact .refl s
  · rename_i hreading
    rcases onBodyAvailable_cases q (some b) s d with ⟨htakes, -⟩ | ⟨-, body, heq⟩
    · cases hc : s.isConnectRequest with
      | true =>
        have hhanding : Continues s (s.handing d) :=
          ⟨⟨[.onBodyAvailable d, .dcheck true], rfl, rfl⟩, rfl, rfl, rfl, rfl, fun h => h⟩
        rw [onBodyAvailable_connect q b hc htakes]
        split
        · exact (withBody_continues s d).trans (onFinRead_continues _)
        · exact hhanding.trans (callBackend_continues q b _ _)
      | false =>
        have hweb : s.webTransport = none := hs.no_session hc (by simpa using hreading)
        have hfin := (withBody_continues s d).trans (onFinRead_continues _)
        rw [onBodyAvailable_request q (some b) hc htakes]
        split
        · split
          · exact hfin
          · exact hfin.trans
              (sendResponse_continues q b ((isConnectRequest_congr rfl).trans hc) hweb)
        · exact withBody_continues s d
    · rw [heq]
      have hbody : Continues s { s.emit (.onBodyAvailable d) with body := body } :=
        ⟨⟨[.onBodyAvailable d], rfl, rfl⟩, rfl, rfl, rfl, rfl, fun h => h⟩
      exact hbody.trans (sendErrorResponse_continues _ 0)

structure SessionSound (s : QuitServerStream) : Prop where
  blank : s.headersComplete = false → Blank s
  connect : s.SessionConnect
  answered : ∀ headers response, (headers, response) ∈ processed s.trace →
    .processWebTransportRequest headers response :: answer headers response <:+: s.trace

inductive SessionStep (b : Backend) (s u : QuitServerStream) : Prop where
  | continues (out : List Effect) (trace : u.trace = s.trace ++ out) (quiet : processed out = [])
      (kept : ∀ w, s.webTransport = some w → u.webTransport = some w)
      (fresh : ∀ w, u.webTransport = some w → s.webTransport = some w ∨ w = .new)
  | processes (out : List Effect) (headers : Http2HeaderBlock) (response : WebTransportResponse)
      (first : processed s.trace = []) (closed : s.webTransport = none)
      (quiet : processed out = []) (asked : response = b.processWebTransportRequest headers s.id)
      (trace : u.trace = s.trace ++
        (out ++ .processWebTransportRequest headers response :: answer headers response))
      (opened : u.webTransport = some (answered response))

theorem Continues.sessionStep {s u : QuitServerStream} (h : Continues s u) (b : Backend) :
    SessionStep b s u := by
  obtain ⟨out, htrace, hquiet⟩ := h.trace
  refine .continues out htrace hquiet ?_ ?_
  · intro w hw
    rw [h.webTransport, hw]
  · intro w hw
    exact Or.inl (h.webTransport ▸ hw)

theorem Blank.processed {s : QuitServerStream} (h : Blank s) : processed s.trace = [] := by
  refine List.filterMap_eq_nil_iff.mpr ?_
  intro e he
  rw [h.trace e he]

theorem new_sound (id : StreamId) : SessionSound (new id) :=
  ⟨fun _ => new_blank id, fun h => absurd h Bool.false_ne_true, fun _ _ h => absurd h List.not_mem_nil⟩

theorem opened_sessionConnect {h : InitialHeaders} (hv : h.Valid) (s : QuitServerStream) :
    (s.opened h).SessionConnect := by
  intro hweb
  obtain ⟨w, hw⟩ := Option.isSome_iff_exists.mp hweb
  have hmethod := h.webTransport_connect (opened_webTransport w hw).2 hv.2
  exact Or.inl (decide_eq_true hmethod)

theorem answerConnect_cases (q : Platform) (b : Backend) (fin : Bool) {s : QuitServerStream}
    (hs : ∀ w, s.webTransport = some w → w = .new) : Continues s (s.answerConnect q (some b) fin) ∨
      (s.webTransport = some .new ∧ s.isConnectRequest = true ∧
        s.answerConnect q (some b) fin = s.processWebTransport b) := by
  unfold answerConnect
  split
  · rename_i hasked
    simp only [Bool.and_eq_true] at hasked
    dsimp only
    split
    · rename_i hweb
      obtain ⟨w, hw⟩ := Option.isSome_iff_exists.mp hweb
      exact Or.inr ⟨hs w hw ▸ hw, hasked.2, rfl⟩
    · exact Or.inl (callBackend_continues q b _ s)
  · exact Or.inl (.refl s)

theorem consumeHeaderList_continues (q : Platform) (b : Backend) (bodyAvailable : Option Delivery)
    {s : QuitServerStream} (hs : s.SessionConnect) :
    Continues s (s.consumeHeaderList q (some b) bodyAvailable) := by
  unfold consumeHeaderList
  cases bodyAvailable with
  | none => exact .refl s
  | some d => exact offerBody_continues q b d hs

structure HeadersStep (b : Backend) (s u : QuitServerStream) : Prop where
  id : u.id = s.id
  complete : u.headersComplete = true
  connect : u.SessionConnect
  session : SessionStep b s u

theorem onInitialHeadersComplete_session (q : Platform) (b : Backend) (h : InitialHeaders)
    {s : QuitServerStream} (hs : Blank s) :
    HeadersStep b s (s.onInitialHeadersComplete q (some b) h) := by
  by_cases hv : h.Valid
  · rw [onInitialHeadersComplete_valid q (some b) hs hv]
    have hopened := opened_sessionConnect hv s
    have hread := consumeHeaderList_continues q b h.bodyAvailable hopened
    obtain ⟨out, htrace, hquiet⟩ := hread.trace
    generalize (s.opened h).consumeHeaderList q (some b) h.bodyAvailable = u at hread htrace
    have hnew : ∀ w, u.webTransport = some w → w = .new := by
      intro w hw
      rw [hread.webTransport] at hw
      exact (opened_webTransport w hw).1
    rcases answerConnect_cases q b h.fin hnew with hcontinues | ⟨hweb, hconnect, heq⟩
    · have hall := hread.trans hcontinues
      obtain ⟨out, htrace, hquiet⟩ := hall.trace
      refine ⟨hall.id, hall.headersComplete, hall.sessionConnect hopened,
        .continues out htrace hquiet ?_ ?_⟩
      · intro w hw
        rw [hs.webTransport] at hw
        cases hw
      · intro w hw
        rw [hall.webTransport] at hw
        exact Or.inr (opened_webTransport w hw).1
    · rw [heq]
      obtain ⟨fin, hprocess⟩ := processWebTransport_eq b hweb
      rw [hprocess]
      refine ⟨hread.id, hread.headersComplete, fun _ => Or.inl hconnect,
        .processes out u.requestHeaders _ hs.processed hs.webTransport hquiet ?_ ?_ rfl⟩
      · rw [hread.id]
        rfl
      · dsimp only
        rw [htrace, List.append_assoc]
        rfl
  · obtain ⟨u, code, heq, -, hu⟩ := onInitialHeadersComplete_invalid q (some b) hs hv
    rw [heq]
    have herror := sendErrorResponse_continues u code
    obtain ⟨out, htrace, hquiet⟩ := herror.trace
    refine ⟨herror.id.trans hu.id, herror.headersComplete.trans hu.complete, ?_,
      .continues out (by rw [htrace, hu.trace]) hquiet ?_ ?_⟩
    · intro _
      exact Or.inr (by rw [sendErrorResponse_eq])
    · intro w hw
      rw [hs.webTransport] at hw
      cases hw
    · intro w hw
      rw [herror.webTransport] at hw
      exact Or.inr (hu.webTransport w hw).1

/-- Every step but that of the headers leaves the session alone. -/
theorem step_continues (q : Platform) (b : Backend) {s : QuitServerStream} (hs : s.SessionConnect)
    {e : Event} (he : ∀ h, e ≠ .initialHeaders h) : Continues s (step q b s e) := by
  cases e with
  | initialHeaders h => exact absurd rfl (he h)
  | bodyAvailable d =>
    simp only [step]
    split
    · exact offerBody_continues q b d hs
    · exact .refl s
  | handlerCall c =>
    simp only [step]
    split
    · exact (handle_responds q c s).continues
    · exact .refl s
  | alarm => exact (onAlarm_responds q s).continues
  | canWrite =>
    exact (emit_continues s rfl).trans
      (writeGeneratedBytes_writes q (s.emit .onCanWrite)).toResponds.continues
  | writeSideClosed =>
    exact ⟨⟨[], (List.append_nil _).symm, rfl⟩, rfl, rfl, rfl, rfl, fun h => h⟩

theorem step_session_cases (q : Platform) (b : Backend) {s : QuitServerStream} (e : Event)
    (hs : SessionSound s) :
    (Continues s (step q b s e) ∧ (s.headersComplete = false → Blank (step q b s e))) ∨
      HeadersStep b s (step q b s e) := by
  by_cases he : ∀ h, e ≠ .initialHeaders h
  · exact Or.inl ⟨step_continues q b hs.connect he,
      fun hcomplete => (hs.blank hcomplete).step q b he⟩
  · simp only [ne_eq, not_forall, not_not] at he
    obtain ⟨h, rfl⟩ := he
    simp only [step]
    split
    · rename_i hcomplete
      exact Or.inl ⟨.refl s, hs.blank⟩
    · rename_i hcomplete
      exact Or.inr (onInitialHeadersComplete_session q b h (hs.blank (by simpa using hcomplete)))

theorem SessionStep.answered {b : Backend} {s u : QuitServerStream} (h : SessionStep b s u)
    (hs : SessionSound s) {headers : Http2HeaderBlock} {response : WebTransportResponse}
    (hmem : (headers, response) ∈ processed u.trace) :
    .processWebTransportRequest headers response :: answer headers response <:+: u.trace := by
  cases h with
  | continues out htrace hquiet hkept hfresh =>
    rw [htrace, processed_append, hquiet, List.append_nil] at hmem
    rw [htrace]
    exact (hs.answered headers response hmem).trans (List.prefix_append _ _).isInfix
  | processes out headers' response' hfirst hclosed hquiet hasked htrace hopened =>
    rw [htrace, processed_append, processed_append, hfirst, hquiet] at hmem
    change (headers, response) ∈ (headers', response') :: processed (answer headers' response') at hmem
    rw [processed_answer, List.mem_singleton] at hmem
    obtain ⟨rfl, rfl⟩ := Prod.mk.inj hmem
    rw [htrace, ← List.append_assoc]
    exact (List.suffix_append _ _).isInfix

theorem step_sessionStep (q : Platform) (b : Backend) {s : QuitServerStream} (e : Event)
    (hs : SessionSound s) : SessionStep b s (step q b s e) := by
  rcases step_session_cases q b e hs with ⟨hcontinues, -⟩ | hheaders
  · exact hcontinues.sessionStep b
  · exact hheaders.session

theorem step_id (q : Platform) (b : Backend) {s : QuitServerStream} (e : Event)
    (hs : SessionSound s) : (step q b s e).id = s.id := by
  rcases step_session_cases q b e hs with ⟨hcontinues, -⟩ | hheaders
  · exact hcontinues.id
  · exact hheaders.id

theorem step_sound (q : Platform) (b : Backend) {s : QuitServerStream} (e : Event)
    (hs : SessionSound s) : SessionSound (step q b s e) := by
  have hanswered := fun headers response =>
    @SessionStep.answered b s (step q b s e) (step_sessionStep q b e hs) hs headers response
  rcases step_session_cases q b e hs with ⟨hcontinues, hblank⟩ | hheaders
  · refine ⟨?_, hcontinues.sessionConnect hs.connect, hanswered⟩
    intro hcomplete
    exact hblank (hcontinues.headersComplete ▸ hcomplete)
  · refine ⟨?_, hheaders.connect, hanswered⟩
    intro hnot
    rw [hheaders.complete] at hnot
    cases hnot

end QuitServerStream
end QuailServer.ServerStream
