import QuailServer.BodyDelivery

set_option autoImplicit false

namespace QuailServer.ConnectOrder
open HeaderBlock WebTransport ServerStream QuitServerStream

def isConnectHeaders : BackendCall → Bool
  | .handleConnectHeaders _ => true
  | _ => false

def isConnectData : BackendCall → Bool
  | .handleConnectData _ _ => true
  | _ => false

/-- `HandleConnectHeaders` exactly once, and every `HandleConnectData` after it. -/
def HeadersThenData (calls : List BackendCall) : Prop :=
  calls.countP isConnectHeaders = 1 ∧
    ∀ before c after, calls = before ++ c :: after → isConnectData c = true →
      ∃ c' ∈ before, isConnectHeaders c' = true

structure ConnectRequest (h : InitialHeaders) : Prop where
  valid : h.Valid
  connect : h.requestHeaders.find ":method" = some "CONNECT"
  plain : h.webTransport = false

/-- A body that comes with the headers and does not reach the backend: it brings the FIN to a
    stream whose write side is closed, and it is no longer than announced. -/
structure DroppedFin (s : QuitServerStream) (h : InitialHeaders) (d : Delivery) : Prop where
  fin : d.fin = true
  closed : s.writeSideClosed = true
  short : ¬ h.Overlong d.bytes

/-- The FIN did not come with the headers, and the `OnBodyAvailable` call from inside
    `ConsumeHeaderList()`, if there was one, did not reach the backend. -/
def HeadersFirst (s : QuitServerStream) (h : InitialHeaders) : Prop :=
  h.fin = false ∧ ∀ d, h.bodyAvailable = some d → DroppedFin s h d

structure Connected (s : QuitServerStream) : Prop where
  complete : s.headersComplete = true
  connect : s.isConnectRequest = true
  plain : s.webTransport = none

theorem Connected.responds {s u : QuitServerStream} (h : Connected s) (hr : Responds s u) :
    Connected u :=
  ⟨hr.headersComplete.trans h.complete, hr.isConnectRequest.trans h.connect,
    hr.webTransport.trans h.plain⟩

theorem Connected.responds_of_fields {s w u : QuitServerStream} (h : Connected s)
    (hr : Responds w u) (hcomplete : w.headersComplete = s.headersComplete)
    (hreq : w.requestHeaders = s.requestHeaders) (hweb : w.webTransport = s.webTransport) :
    Connected u := by
  have hw : Connected w := by
    refine ⟨hcomplete.trans h.complete, ?_, hweb.trans h.plain⟩
    have hc := h.connect
    unfold isConnectRequest at hc ⊢
    rw [hreq]
    exact hc
  exact hw.responds hr

def DataOnly (s u : QuitServerStream) : Prop :=
  ∃ more, backendCalls u.trace = backendCalls s.trace ++ more ∧ ∀ c ∈ more, isConnectData c = true

theorem dataOnly_of_eq {s u : QuitServerStream} (h : backendCalls u.trace = backendCalls s.trace) :
    DataOnly s u := ⟨[], by rw [h, List.append_nil], by simp⟩

theorem DataOnly.trans {s u v : QuitServerStream} (h : DataOnly s u) (k : DataOnly u v) :
    DataOnly s v := by
  obtain ⟨xs, hx, hxs⟩ := h
  obtain ⟨ys, hy, hys⟩ := k
  refine ⟨xs ++ ys, by rw [hy, hx, List.append_assoc], ?_⟩
  intro c hc
  rcases List.mem_append.mp hc with hc | hc
  · exact hxs c hc
  · exact hys c hc

theorem onBodyAvailable_dataOnly (q : Platform) (b : Backend) {s : QuitServerStream}
    (h : Connected s) (d : Delivery) :
    Connected (s.onBodyAvailable q (some b) d) ∧ DataOnly s (s.onBodyAvailable q (some b) d) := by
  have hemit : backendCalls (s.emit (.onBodyAvailable d)).trace = backendCalls s.trace := by
    change backendCalls (s.trace ++ [_]) = _
    rw [backendCalls_append]
    exact List.append_nil _
  rcases onBodyAvailable_cases q (some b) s d with ⟨hread, -⟩ | ⟨-, body, heq⟩
  · rw [onBodyAvailable_connect q b h.connect hread]
    split
    · exact ⟨⟨h.complete, h.connect, h.plain⟩, dataOnly_of_eq hemit⟩
    · have hr := callBackend_responds q b (.handleConnectData (s.body ++ d.bytes) d.fin)
        { s with
          trace := s.trace ++ [.onBodyAvailable d, .dcheck true]
          body := []
          readSideClosed := s.readSideClosed || d.fin }
      refine ⟨h.responds_of_fields hr rfl rfl rfl, ?_⟩
      refine ⟨[s.handingCall d], ?_, by simp [handingCall, isConnectData]⟩
      rw [callBackend_backendCalls]
      simp [handing, backendCalls]
  · rw [heq]
    have hw := (sendErrorResponse_writes { s.emit (.onBodyAvailable d) with body := body } 0).toResponds
    exact ⟨h.responds_of_fields hw rfl rfl rfl, dataOnly_of_eq (hw.backendCalls.trans hemit)⟩

theorem connected_step (q : Platform) (b : Backend) {s : QuitServerStream} (h : Connected s)
    (e : Event) : Connected (step q b s e) ∧ DataOnly s (step q b s e) := by
  have quiet : ∀ u, Responds s u → Connected u ∧ DataOnly s u := fun u hr =>
    ⟨h.responds hr, dataOnly_of_eq hr.backendCalls⟩
  cases e with
  | initialHeaders headers =>
    simp only [step, h.complete, if_true]
    exact quiet s (.refl s)
  | bodyAvailable d =>
    simp only [step, h.complete, if_true]
    unfold offerBody
    split
    · exact quiet s (.refl s)
    · exact onBodyAvailable_dataOnly q b h d
  | handlerCall c =>
    simp only [step]
    split
    · exact quiet _ (handle_responds q c s)
    · exact quiet s (.refl s)
  | alarm => exact quiet _ (onAlarm_responds q s)
  | canWrite =>
    have hw := (writeGeneratedBytes_writes q (s.emit .onCanWrite)).toResponds
    refine ⟨h.responds_of_fields hw rfl rfl rfl, dataOnly_of_eq ?_⟩
    change backendCalls ((s.emit .onCanWrite).writeGeneratedBytes q).trace = _
    rw [hw.backendCalls]
    change backendCalls (s.trace ++ [_]) = _
    rw [backendCalls_append]
    exact List.append_nil _
  | writeSideClosed => exact ⟨⟨h.complete, h.connect, h.plain⟩, dataOnly_of_eq rfl⟩

theorem connected_run (q : Platform) (b : Backend) {s : QuitServerStream} (h : Connected s)
    (events : List Event) : DataOnly s (StepMachine.after (step q b) s events) := by
  refine (StepMachine.invariant_after (I := fun u => Connected u ∧ DataOnly s u) ?_
    ⟨h, dataOnly_of_eq rfl⟩ events).2
  rintro u e ⟨hu, hs⟩
  obtain ⟨hv, hd⟩ := connected_step q b hu e
  exact ⟨hv, hs.trans hd⟩

theorem countP_of_data {more : List BackendCall} (hmore : ∀ c ∈ more, isConnectData c = true) :
    more.countP isConnectHeaders = 0 := by
  refine List.countP_eq_zero.mpr ?_
  intro c hc
  have hdata := hmore c hc
  cases c with
  | handleConnectData data complete => exact Bool.false_ne_true
  | handleConnectHeaders headers => cases hdata
  | fetchResponseFromBackend headers body => cases hdata

theorem not_headersThenData {more : List BackendCall}
    (hmore : ∀ c ∈ more, isConnectData c = true) : ¬ HeadersThenData more := by
  rintro ⟨hcount, -⟩
  rw [countP_of_data hmore] at hcount
  cases hcount

theorem not_headersThenData_cons (data : Str) (complete : Bool) (more : List BackendCall) :
    ¬ HeadersThenData (.handleConnectData data complete :: more) := by
  rintro ⟨-, hafter⟩
  obtain ⟨c', hc', -⟩ := hafter [] _ more rfl rfl
  cases hc'

theorem headersThenData_cons (headers : Http2HeaderBlock) {more : List BackendCall}
    (hmore : ∀ c ∈ more, isConnectData c = true) :
    HeadersThenData (.handleConnectHeaders headers :: more) := by
  refine ⟨?_, ?_⟩
  · rw [List.countP_cons, countP_of_data hmore]
    rfl
  · intro before c after heq hc
    cases before with
    | nil =>
      simp only [List.nil_append, List.cons.injEq] at heq
      rw [← heq.1] at hc
      cases hc
    | cons c' before =>
      simp only [List.cons_append, List.cons.injEq] at heq
      exact ⟨c', List.mem_cons_self, by rw [← heq.1]; rfl⟩

theorem answerConnect_calls (q : Platform) (b : Backend) {s : QuitServerStream} (h : Connected s)
    (fin : Bool) : Connected (s.answerConnect q (some b) fin) ∧
      backendCalls (s.answerConnect q (some b) fin).trace = backendCalls s.trace ++
        if fin = false ∧ s.responseSent = false then [.handleConnectHeaders s.requestHeaders]
        else [] := by
  unfold answerConnect
  by_cases hasks : fin = false ∧ s.responseSent = false
  · rw [if_pos hasks, if_pos (by simp [hasks.1, hasks.2, h.connect])]
    rw [h.plain]
    dsimp only [Option.isSome]
    rw [if_neg Bool.false_ne_true]
    have hr := callBackend_responds q b (.handleConnectHeaders s.requestHeaders) s
    exact ⟨h.responds_of_fields hr rfl rfl rfl, callBackend_backendCalls q b _ s⟩
  · rw [if_neg hasks, if_neg (by simp only [h.connect]; simpa using hasks), List.append_nil]
    exact ⟨h, rfl⟩

/-- What `ConsumeHeaderList()` leaves behind: no call at all, with a response sent if the body is
    too long, or one data call. -/
theorem consumeHeaderList_calls (q : Platform) (b : Backend) {s : QuitServerStream} (hs : Blank s)
    {h : InitialHeaders} (hreq : ConnectRequest h) :
    let u := (s.opened h).consumeHeaderList q (some b) h.bodyAvailable
    Connected u ∧
      (((∀ d, h.bodyAvailable = some d → DroppedFin s h d) ∧ backendCalls u.trace = [] ∧
          u.responseSent = false) ∨
        ((∃ d, h.bodyAvailable = some d ∧ ¬ DroppedFin s h d) ∧
          (backendCalls u.trace = [] ∧ u.responseSent = true ∨
            ∃ data complete, backendCalls u.trace = [.handleConnectData data complete]))) := by
  have hopen : Connected (s.opened h) :=
    ⟨rfl, decide_eq_true hreq.connect, if_neg (by simp [hreq.plain])⟩
  have hcalls : backendCalls (s.opened h).trace = [] := hs.backendCalls
  cases hbody : h.bodyAvailable with
  | none => exact ⟨hopen, Or.inl ⟨by simp, hcalls, hs.responseSent⟩⟩
  | some d =>
    have hoffer : (s.opened h).consumeHeaderList q (some b) (some d) =
        (s.opened h).onBodyAvailable q (some b) d := by
      refine if_neg ?_
      simp [opened, hs.readingStopped, hs.readSideClosed]
    have hlen : (s.opened h).Overflows d ↔ h.Overlong d.bytes := by
      simp [Overflows, InitialHeaders.Overlong, opened, hs.body]
    have hended : (s.opened h).writeEnded = s.writeSideClosed := by
      simp [writeEnded, opened, hs.finBuffered]
    have hfits : (s.opened h).BodyFits := by
      intro h0
      simpa [opened, hs.body] using h0
    have hemit : backendCalls ((s.opened h).emit (.onBodyAvailable d)).trace = [] := by
      change backendCalls ((s.opened h).trace ++ [_]) = []
      rw [backendCalls_append, hcalls]
      rfl
    dsimp only
    rw [hoffer]
    refine ⟨(onBodyAvailable_dataOnly q b hopen d).1, ?_⟩
    rcases onBodyAvailable_cases q (some b) (s.opened h) d with ⟨hread, hnot⟩ | ⟨hover, body, heq⟩
    · have hshort : ¬ h.Overlong d.bytes := fun ho =>
        fits_withBody.mp (hnot hfits) (hlen.mpr ho)
      rw [onBodyAvailable_connect q b hopen.connect hread, hended]
      by_cases hlate : (d.fin && s.writeSideClosed) = true
      · rw [if_pos hlate]
        obtain ⟨hfin, hclosed⟩ := Bool.and_eq_true_iff.mp hlate
        refine Or.inl ⟨?_, hemit, hs.responseSent⟩
        rintro d' ⟨rfl⟩
        exact ⟨hfin, hclosed, hshort⟩
      · rw [if_neg hlate]
        refine Or.inr ⟨⟨d, rfl, fun hd => hlate (by simp [hd.fin, hd.closed])⟩, Or.inr ?_⟩
        refine ⟨(s.opened h).body ++ d.bytes, d.fin, ?_⟩
        rw [callBackend_backendCalls]
        simp only [handing, backendCalls_append, hcalls]
        rfl
    · refine Or.inr ⟨⟨d, rfl, fun hd => hd.short (hlen.mp hover)⟩, Or.inl ?_⟩
      rw [heq]
      have hw := (sendErrorResponse_writes
        { (s.opened h).emit (.onBodyAvailable d) with body := body } 0).toResponds
      exact ⟨hw.backendCalls.trans hemit, by rw [sendErrorResponse_eq]⟩

/-- The backend sees the headers first exactly when the body does not overtake them. -/
theorem headers_then_data_iff (q : Platform) (b : Backend) (id : StreamId) (before : List Event)
    (h : InitialHeaders) (later : List Event) (hbefore : ∀ h', .initialHeaders h' ∉ before)
    (hreq : ConnectRequest h) :
    HeadersThenData (backendCalls (run q b id (before ++ .initialHeaders h :: later)).trace) ↔
      HeadersFirst (run q b id before) h := by
  have hs := blank_run q b id hbefore
  rw [run_headers q b id h hbefore later, onInitialHeadersComplete_valid q (some b) hs hreq.valid]
  obtain ⟨hconsumed, hread⟩ := consumeHeaderList_calls q b hs hreq
  obtain ⟨hanswered, hcalls⟩ := answerConnect_calls q b hconsumed h.fin
  obtain ⟨more, hmore, hdata⟩ := connected_run q b hanswered later
  rw [hmore, hcalls]
  rcases hread with ⟨hfirst, hnone, hsent⟩ | ⟨⟨d, hd, hovertaken⟩, hread⟩
  · rw [hnone, hsent]
    cases hfin : h.fin with
    | false =>
      refine iff_of_true ?_ ⟨hfin, hfirst⟩
      exact headersThenData_cons _ hdata
    | true =>
      refine iff_of_false ?_ fun hf => by simp [hf.1] at hfin
      exact not_headersThenData hdata
  · refine iff_of_false ?_ fun hf => hovertaken (hf.2 d hd)
    rcases hread with ⟨hnone, hsent⟩ | ⟨data, complete, hone⟩
    · rw [hnone, if_neg (by simp [hsent])]
      exact not_headersThenData hdata
    · rw [hone]
      exact not_headersThenData_cons data complete _

theorem connectHeaders_request (fin : Bool) (bodyAvailable : Option Delivery) :
    ConnectRequest (connectHeaders fin bodyAvailable) := ⟨⟨rfl, rfl⟩, rfl, rfl⟩

theorem headers_then_data_tunnel : HeadersThenData (backendCalls
    (run plainPlatform silentBackend 0
      ([] ++ .initialHeaders (connectHeaders false none) :: [.bodyAvailable ⟨["a"], true⟩])).trace) :=
  (headers_then_data_iff plainPlatform silentBackend 0 [] _ _ (by simp)
    (connectHeaders_request false none)).mpr ⟨rfl, by simp [connectHeaders]⟩

theorem headers_never_seen : ConnectRequest (connectHeaders true (some ⟨[], true⟩)) ∧
    ¬ HeadersThenData (backendCalls (run plainPlatform silentBackend 0
      [.initialHeaders (connectHeaders true (some ⟨[], true⟩))]).trace) :=
  ⟨connectHeaders_request _ _, not_headersThenData_cons [] true []⟩

end QuailServer.ConnectOrder
