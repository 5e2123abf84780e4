import QuailServer.Library.StepMachine
import QuailServer.StreamEffects

set_option autoImplicit false

namespace QuailServer.ServerStream
open HeaderBlock WebTransport

def run (q : Platform) (b : Backend) (id : StreamId) (events : List Event) : QuitServerStream :=
  StepMachine.after (step q b) (.new id) events

def InitialHeaders.Valid (h : InitialHeaders) : Prop := h.receivedValid = true ∧ h.copiedValid = true

def InitialHeaders.Overlong (h : InitialHeaders) (body : Str) : Prop :=
  0 ≤ h.contentLength ∧ h.contentLength < body.length

theorem run_concat (q : Platform) (b : Backend) (id : StreamId) (events : List Event) (e : Event) :
    run q b id (events ++ [e]) = step q b (run q b id events) e :=
  StepMachine.after_concat _ _ _ _

/-- The request offered so far: whether its headers are in, its body bytes, its FIN. -/
structure Intake where
  started : Bool
  body : Str
  complete : Bool

namespace Intake

def new : Intake := ⟨false, [], false⟩

def offer (d : Delivery) (i : Intake) : Intake :=
  if i.complete then i else { i with body := i.body ++ d.bytes, complete := d.fin }

def step (i : Intake) : Event → Intake
  | .initialHeaders h =>
    if i.started then i
    else match h.bodyAvailable with
      | some d => offer d { i with started := true }
      | none => { i with started := true }
  | .bodyAvailable d => if i.started then i.offer d else i
  | _ => i

theorem offer_started (i : Intake) (d : Delivery) : (i.offer d).started = i.started := by
  unfold offer
  split <;> rfl

theorem offer_complete {i : Intake} (hi : i.complete = true) (d : Delivery) : i.offer d = i :=
  if_pos hi

theorem offer_open {i : Intake} (hi : i.complete = false) (d : Delivery) :
    i.offer d = { i with body := i.body ++ d.bytes, complete := d.fin } := by
  unfold offer
  rw [hi]
  rfl

theorem step_headers_new (h : InitialHeaders) : Intake.new.step (.initialHeaders h) =
    match h.bodyAvailable with
      | some d => offer d { Intake.new with started := true }
      | none => { Intake.new with started := true } := rfl

theorem step_new {e : Event} (he : ∀ headers, e ≠ .initialHeaders headers) :
    Intake.new.step e = .new := by
  cases e with
  | initialHeaders h => exact absurd rfl (he h)
  | bodyAvailable d => rfl
  | handlerCall c => rfl
  | alarm => rfl
  | canWrite => rfl
  | writeSideClosed => rfl

theorem step_headers_started (i : Intake) (h : InitialHeaders) :
    (i.step (.initialHeaders h)).started = true := by
  simp only [step]
  split
  · assumption
  · cases h.bodyAvailable with
    | none => rfl
    | some d => exact offer_started _ d

end Intake

def intake (events : List Event) : Intake := StepMachine.after Intake.step .new events

theorem intake_concat (events : List Event) (e : Event) :
    intake (events ++ [e]) = (intake events).step e := StepMachine.after_concat _ _ _ _

def backendCalls (trace : List Effect) : List BackendCall :=
  trace.filterMap fun
    | .backendCall c => some c
    | _ => none

def connectData (trace : List Effect) : List (Str × Bool) :=
  (backendCalls trace).filterMap fun
    | .handleConnectData data complete => some (data, complete)
    | _ => none

def fetches (trace : List Effect) : List (Http2HeaderBlock × Str) :=
  (backendCalls trace).filterMap fun
    | .fetchResponseFromBackend headers body => some (headers, body)
    | _ => none

def Effect.isFrame : Effect → Bool
  | .writeHeaders _ _ _ | .writeOrBufferBody _ _ | .writeTrailers _ => true
  | _ => false

def frames (trace : List Effect) : List Effect := trace.filter Effect.isFrame

@[simp] theorem backendCalls_append (t u : List Effect) :
    backendCalls (t ++ u) = backendCalls t ++ backendCalls u := List.filterMap_append

@[simp] theorem connectData_append (t u : List Effect) :
    connectData (t ++ u) = connectData t ++ connectData u := by
  simp only [connectData, backendCalls_append, List.filterMap_append]

@[simp] theorem fetches_append (t u : List Effect) : fetches (t ++ u) = fetches t ++ fetches u := by
  simp only [fetches, backendCalls_append, List.filterMap_append]

@[simp] theorem frames_append (t u : List Effect) : frames (t ++ u) = frames t ++ frames u :=
  List.filter_append t u

theorem backendCalls_output {out : List Effect} (h : ∀ e ∈ out, e.isOutput = true) :
    backendCalls out = [] := by
  refine List.filterMap_eq_nil_iff.mpr ?_
  intro e he
  have ho := h e he
  cases e with
  | backendCall c => cases ho
  | _ => rfl

theorem any_isBackendCall {trace : List Effect} :
    trace.any Effect.isBackendCall = false ↔ backendCalls trace = [] := by
  unfold backendCalls
  rw [List.any_eq_false, List.filterMap_eq_nil_iff]
  refine forall₂_congr ?_
  intro e _
  cases e <;> simp [Effect.isBackendCall]

namespace QuitServerStream

theorem Responds.backendCalls {s u : QuitServerStream} (h : Responds s u) :
    backendCalls u.trace = backendCalls s.trace := by
  obtain ⟨out, ht, ho⟩ := h.trace
  rw [ht, backendCalls_append, backendCalls_output ho, List.append_nil]

theorem Responds.mem_trace {s u : QuitServerStream} (h : Responds s u) {e : Effect}
    (he : e.isOutput = false) : e ∈ u.trace ↔ e ∈ s.trace := by
  obtain ⟨out, ht, ho⟩ := h.trace
  rw [ht, List.mem_append]
  refine or_iff_left ?_
  intro hmem
  rw [ho e hmem] at he
  cases he

theorem Responds.connectData {s u : QuitServerStream} (h : Responds s u) :
    connectData u.trace = connectData s.trace := by
  unfold ServerStream.connectData
  rw [h.backendCalls]

theorem Responds.fetches {s u : QuitServerStream} (h : Responds s u) :
    fetches u.trace = fetches s.trace := by
  unfold ServerStream.fetches
  rw [h.backendCalls]

theorem Responds.isConnectRequest {s u : QuitServerStream} (h : Responds s u) :
    u.isConnectRequest = s.isConnectRequest := by
  unfold QuitServerStream.isConnectRequest
  rw [h.requestHeaders]

theorem callBackend_backendCalls (q : Platform) (b : Backend) (c : BackendCall)
    (s : QuitServerStream) :
    backendCalls (s.callBackend q b c).trace = backendCalls s.trace ++ [c] := by
  rw [(callBackend_responds q b c s).backendCalls]
  exact backendCalls_append s.trace [.backendCall c]

/-- A stream whose headers have not come in: as constructed, but for the write side and for
    write notifications. -/
structure Blank (s : QuitServerStream) : Prop where
  fields : s = { new s.id with writeSideClosed := s.writeSideClosed, trace := s.trace }
  trace : ∀ e ∈ s.trace, e = .onCanWrite

theorem new_blank (id : StreamId) : Blank (new id) := ⟨rfl, by simp [new]⟩

theorem writeGeneratedBytes_idle (q : Platform) {s : QuitServerStream}
    (h : s.generateBytesLength = 0) : s.writeGeneratedBytes q = s := by
  rw [writeGeneratedBytes, dif_neg (by omega)]

namespace Blank
variable {s : QuitServerStream}

theorem headersComplete (h : Blank s) : s.headersComplete = false := by rw [h.fields]; rfl
theorem responseSent (h : Blank s) : s.responseSent = false := by rw [h.fields]; rfl
theorem readingStopped (h : Blank s) : s.readingStopped = false := by rw [h.fields]; rfl
theorem readSideClosed (h : Blank s) : s.readSideClosed = false := by rw [h.fields]; rfl
theorem finBuffered (h : Blank s) : s.finBuffered = false := by rw [h.fields]; rfl
theorem body (h : Blank s) : s.body = [] := by rw [h.fields]; rfl
theorem alarm (h : Blank s) : s.delayedResponseAlarm = none := by rw [h.fields]; rfl
theorem idle (h : Blank s) : s.generateBytesLength = 0 := by rw [h.fields]; rfl
theorem webTransport (h : Blank s) : s.webTransport = none := by rw [h.fields]; rfl

theorem trace_any (h : Blank s) {p : Effect → Bool} (hp : p .onCanWrite = false) :
    s.trace.any p = false := by
  refine List.any_eq_false.mpr ?_
  intro e he
  rw [h.trace e he, hp]
  exact Bool.false_ne_true

theorem backendCalls (h : Blank s) : backendCalls s.trace = [] := by
  refine List.filterMap_eq_nil_iff.mpr ?_
  intro e he
  rw [h.trace e he]

theorem frames (h : Blank s) : frames s.trace = [] := by
  refine List.filter_eq_nil_iff.mpr ?_
  intro e he
  rw [h.trace e he]
  exact Bool.false_ne_true

theorem step (h : Blank s) (q : Platform) (b : Backend) {e : Event}
    (he : ∀ headers, e ≠ .initialHeaders headers) : Blank (step q b s e) := by
  cases e with
  | initialHeaders headers => exact absurd rfl (he headers)
  | bodyAvailable d => simpa only [ServerStream.step, h.headersComplete, Bool.false_eq_true, if_false]
  | handlerCall c =>
    simpa only [ServerStream.step, h.trace_any (p := Effect.isBackendCall) rfl, Bool.false_eq_true,
      if_false]
  | alarm => simpa only [ServerStream.step, onAlarm, h.alarm]
  | canWrite =>
    have hidle : (s.emit .onCanWrite).writeGeneratedBytes q = s.emit .onCanWrite :=
      writeGeneratedBytes_idle q h.idle
    simp only [ServerStream.step, onCanWrite, hidle]
    refine ⟨?_, ?_⟩
    · conv_lhs => rw [h.fields]
      rfl
    · intro e he
      rcases List.mem_append.mp he with he | he
      · exact h.trace e he
      · exact List.mem_singleton.mp he
  | writeSideClosed =>
    refine ⟨?_, h.trace⟩
    conv_lhs => rw [h.fields]
    rfl

end Blank

theorem blank_run (q : Platform) (b : Backend) (id : StreamId) {before : List Event}
    (hbefore : ∀ h, .initialHeaders h ∉ before) : Blank (run q b id before) := by
  refine StepMachine.after_of_labels (I := Blank) (P := fun e => ∀ h, e ≠ .initialHeaders h)
    (fun s e he hs => hs.step q b he) (new_blank id) ?_
  intro e he h heq
  exact hbefore h (heq ▸ he)

theorem intake_blank {before : List Event} (hbefore : ∀ h, .initialHeaders h ∉ before) :
    intake before = .new := by
  refine StepMachine.after_of_labels (I := fun i => i = Intake.new)
    (P := fun e => ∀ h, e ≠ Event.initialHeaders h) ?_ rfl ?_
  · rintro i e he rfl
    exact Intake.step_new he
  · intro e he h heq
    exact hbefore h (heq ▸ he)

theorem run_headers (q : Platform) (b : Backend) (id : StreamId) {before : List Event}
    (h : InitialHeaders) (hbefore : ∀ h', .initialHeaders h' ∉ before) (later : List Event) :
    run q b id (before ++ .initialHeaders h :: later) = StepMachine.after (step q b)
      ((run q b id before).onInitialHeadersComplete q (some b) h) later := by
  have hs := blank_run q b id hbefore
  have hstep : step q b (run q b id before) (.initialHeaders h) =
      (run q b id before).onInitialHeadersComplete q (some b) h := if_neg (by simp [hs.headersComplete])
  rw [← hstep]
  exact StepMachine.after_append _ _ _ _

theorem intake_headers {before : List Event} (h : InitialHeaders)
    (hbefore : ∀ h', .initialHeaders h' ∉ before) (later : List Event) :
    intake (before ++ .initialHeaders h :: later) =
      StepMachine.after Intake.step (Intake.new.step (.initialHeaders h)) later := by
  rw [← intake_blank hbefore]
  exact StepMachine.after_append _ _ _ _

def opened (h : InitialHeaders) (s : QuitServerStream) : QuitServerStream :=
  { s with
    headersComplete := true
    webTransport := if h.webTransport then some .new else none
    contentLength := h.contentLength
    requestHeaders := h.requestHeaders }

theorem opened_webTransport {h : InitialHeaders} {s : QuitServerStream} (w : WebTransportSession)
    (hw : (s.opened h).webTransport = some w) : w = .new ∧ h.webTransport = true := by
  unfold opened at hw
  split at hw
  · rename_i hweb
    exact ⟨(Option.some.inj hw).symm, hweb⟩
  · cases hw

/-- The stream when it consumes the header list. An error response may have been sent. -/
def headersRead (h : InitialHeaders) (s : QuitServerStream) : QuitServerStream :=
  let s := s.baseOnInitialHeadersComplete h
  if !s.responseSent then s.copyAndValidateHeaders h else s

theorem headersRead_valid {h : InitialHeaders} {s : QuitServerStream} (hs : Blank s) (hv : h.Valid) :
    s.headersRead h = s.opened h := by
  simp [headersRead, baseOnInitialHeadersComplete, copyAndValidateHeaders, opened, hv.1, hv.2,
    hs.responseSent]

theorem onInitialHeadersComplete_valid (q : Platform) (b : Option Backend) {h : InitialHeaders}
    {s : QuitServerStream} (hs : Blank s) (hv : h.Valid) : s.onInitialHeadersComplete q b h =
      ((s.opened h).consumeHeaderList q b h.bodyAvailable).answerConnect q b h.fin := by
  rw [← headersRead_valid hs hv]
  rfl

theorem rejected_consumeHeaderList (q : Platform) (b : Option Backend)
    (bodyAvailable : Option Delivery) (u : QuitServerStream) (code : ℕ) :
    (u.sendErrorResponse code).consumeHeaderList q b bodyAvailable = u.sendErrorResponse code := by
  unfold consumeHeaderList
  cases bodyAvailable with
  | none => rfl
  | some d => simp [offerBody, sendErrorResponse_eq]

theorem rejected_answerConnect (q : Platform) (b : Option Backend) (fin : Bool)
    (u : QuitServerStream) (code : ℕ) :
    (u.sendErrorResponse code).answerConnect q b fin = u.sendErrorResponse code := by
  simp [answerConnect, sendErrorResponse_eq]

structure Rejecting (s : QuitServerStream) (h : InitialHeaders) (u : QuitServerStream) : Prop where
  id : u.id = s.id
  complete : u.headersComplete = true
  responseSent : u.responseSent = false
  readingStopped : u.readingStopped = false
  trace : u.trace = s.trace
  alarm : u.delayedResponseAlarm = none
  webTransport : ∀ w, u.webTransport = some w → w = .new ∧ h.webTransport = true

theorem headersRead_invalid {h : InitialHeaders} {s : QuitServerStream} (hs : Blank s)
    (hv : ¬ h.Valid) : ∃ (u : QuitServerStream) (code : ℕ),
      s.headersRead h = u.sendErrorResponse code ∧ (code = 0 ∨ code = 400) ∧ Rejecting s h u := by
  unfold headersRead
  by_cases hr : h.receivedValid = true
  · have hc : h.copiedValid = false := by
      by_contra hne
      exact hv ⟨hr, by simpa using hne⟩
    refine ⟨s.opened h, 0, ?_, Or.inl rfl, rfl, rfl, hs.responseSent, hs.readingStopped, rfl, hs.alarm,
      opened_webTransport⟩
    · have hbase : s.baseOnInitialHeadersComplete h = { s with
          headersComplete := true
          webTransport := if h.webTransport then some .new else none } := if_pos hr
      have hcopy : copyAndValidateHeaders h { s with
          headersComplete := true
          webTransport := if h.webTransport then some .new else none } =
          (s.opened h).sendErrorResponse 0 := if_neg (by simp [hc])
      rw [hbase]
      dsimp only
      rw [if_pos (by simp [hs.responseSent]), hcopy]
  · refine ⟨{ s with headersComplete := true }, 400, ?_, Or.inr rfl, rfl, rfl, hs.responseSent,
      hs.readingStopped, rfl, hs.alarm, by simp [hs.webTransport]⟩
    have hsent : (sendErrorResponse 400 { s with headersComplete := true }).responseSent = true := by
      rw [sendErrorResponse_eq]
    simp only [baseOnInitialHeadersComplete, hr, Bool.false_eq_true, if_false, onInvalidHeaders,
      hsent, Bool.not_true]

theorem onInitialHeadersComplete_invalid (q : Platform) (b : Option Backend) {h : InitialHeaders}
    {s : QuitServerStream} (hs : Blank s)
    (hv : ¬ h.Valid) : ∃ (u : QuitServerStream) (code : ℕ),
      s.onInitialHeadersComplete q b h = u.sendErrorResponse code ∧ (code = 0 ∨ code = 400) ∧
        Rejecting s h u := by
  obtain ⟨u, code, heq, hcode, hu⟩ := headersRead_invalid hs hv
  refine ⟨u, code, ?_, hcode, hu⟩
  have hparts : s.onInitialHeadersComplete q b h =
      ((s.headersRead h).consumeHeaderList q b h.bodyAvailable).answerConnect q b h.fin := rfl
  rw [hparts, heq, rejected_consumeHeaderList, rejected_answerConnect]

end QuitServerStream
end QuailServer.ServerStream
