import QuailServer.StreamRuns

set_option autoImplicit false

namespace QuailServer.ResponseFraming
open HeaderBlock WebTransport ServerStream QuitServerStream

/-- A response as the peer gets it. An open one has no FIN yet. -/
structure Answer where
  block : Http2HeaderBlock
  body : Str
  trailers : Option Http2HeaderBlock
  isOpen : Bool

def finOf : Effect → Bool
  | .writeHeaders _ _ fin => fin
  | .writeOrBufferBody _ fin => fin
  | .writeTrailers _ => true
  | _ => false

def bytesOf : Effect → Str
  | .writeOrBufferBody data _ => data
  | _ => []

def trailerFrames (trailers : Option Http2HeaderBlock) : List Effect :=
  trailers.toList.map .writeTrailers

/-- One header block, the body cut into data frames, the trailers. -/
structure Sends (a : Answer) (fs : List Effect) : Prop where
  shape : ∃ fin data, fs = .writeHeaders .response a.block fin :: (data ++ trailerFrames a.trailers) ∧
    (∀ e ∈ data, ∃ bytes fin, e = .writeOrBufferBody bytes fin) ∧ (data.map bytesOf).flatten = a.body
  fin : ∃ n, fs.map finOf = List.replicate n false ++ if a.isOpen then [] else [true]

theorem Sends.data {a : Answer} {fs : List Effect} (h : Sends a fs) (hopen : a.isOpen = true)
    (htrailers : a.trailers = none) (data : Str) (last : Bool) :
    Sends { a with body := a.body ++ data, isOpen := !last } (fs ++ [.writeOrBufferBody data last]) := by
  obtain ⟨fin, sent, hfs, hdata, hbody⟩ := h.shape
  obtain ⟨n, hn⟩ := h.fin
  refine ⟨⟨fin, sent ++ [.writeOrBufferBody data last], ?_, ?_, ?_⟩, ?_⟩
  · rw [hfs, htrailers]
    simp [trailerFrames]
  · intro e he
    rcases List.mem_append.mp he with he | he
    · exact hdata e he
    · exact ⟨data, last, List.mem_singleton.mp he⟩
  · simp [hbody, bytesOf]
  · rw [hopen, if_pos rfl, List.append_nil] at hn
    cases last with
    | false => exact ⟨n + 1, by simp [hn, finOf, List.replicate_succ']⟩
    | true => exact ⟨n, by simp [hn, finOf]⟩

def answer (q : Platform) : Option QuicBackendResponse → Answer
  | none => ⟨statusBlock "404" kNotFoundResponseBody, kNotFoundResponseBody, none, false⟩
  | some r =>
    if r.responseType = .backendErrResponse then ⟨errorBlock 502, kErrorResponseBody, none, false⟩
    else if q.parseHeaderStatusCode r.headers = none then
      ⟨errorBlock 0, kErrorResponseBody, none, false⟩
    else if r.responseType = .incompleteResponse then ⟨r.headers, r.body, none, true⟩
    else ⟨r.headers, r.body, if r.trailers.empty then none else some r.trailers, false⟩

structure InterimResponse (q : Platform) (r : QuicBackendResponse) : Prop where
  type : r.responseType = .incompleteResponse
  status : q.parseHeaderStatusCode r.headers = some 100
  body : r.body = []

def FinalResponse (q : Platform) : Option QuicBackendResponse → Prop
  | none => True
  | some r => r.delay = 0 ∧ (r.responseType = .backendErrResponse ∨
      r.responseType = .regularResponse ∧ q.parseHeaderStatusCode r.headers ≠ some 100 ∨
      r.responseType = .incompleteResponse ∧
        ∃ code, q.parseHeaderStatusCode r.headers = some code ∧ code ≠ 100)

/-- What the backend does with one request. -/
structure Exchange (q : Platform) where
  interim : List QuicBackendResponse
  final : Option QuicBackendResponse
  streamed : List Str
  closing : Option Str
  interim_continue : ∀ r ∈ interim, InterimResponse q r
  final_response : FinalResponse q final
  streamed_nonempty : ∀ data ∈ streamed, data ≠ []
  streamed_open : (answer q final).isOpen = false → streamed = [] ∧ closing = none

namespace Exchange
variable {q : Platform}

def calls (x : Exchange q) : List HandlerCall :=
  x.interim.map (fun r => .onResponseBackendComplete (some r)) ++
    .onResponseBackendComplete x.final :: (x.streamed.map (fun data => .sendStreamData data false) ++
      x.closing.toList.map (fun data => .sendStreamData data true))

def answer (x : Exchange q) : Answer :=
  let a := ResponseFraming.answer q x.final
  { a with
    body := a.body ++ (x.streamed ++ x.closing.toList).flatten
    isOpen := a.isOpen && x.closing.isNone }

end Exchange

def hintFrames (hints : List Http2HeaderBlock) : List Effect :=
  hints.map fun block => .writeHeaders .earlyHints block false

def afterHints (s : QuitServerStream) (hints : List Http2HeaderBlock) : QuitServerStream :=
  { s with trace := s.trace ++ hintFrames hints }

theorem earlyHints_eq (hints : List Http2HeaderBlock) (s : QuitServerStream) :
    hints.foldl (fun s headers => s.writeHeaders .earlyHints headers false) s =
      afterHints s hints := by
  induction hints generalizing s with
  | nil => simp [afterHints, hintFrames]
  | cons hint hints ih =>
    rw [List.foldl_cons, ih]
    simp [afterHints, hintFrames, writeHeaders, emit]

theorem sendHeadersAndBodyAndTrailers_sends (s : QuitServerStream) (block : Http2HeaderBlock)
    (body : Str) (trailers : Http2HeaderBlock) : ∃ fs,
      frames (s.sendHeadersAndBodyAndTrailers (some block) body trailers).trace =
        frames s.trace ++ fs ∧
      Sends ⟨block, body, if trailers.empty then none else some trailers, false⟩ fs := by
  cases hbody : body.isEmpty <;> cases htrailers : trailers.empty
  · refine ⟨[.writeHeaders .response block false, .writeOrBufferBody body false,
      .writeTrailers trailers], ?_, ⟨false, [.writeOrBufferBody body false], rfl, ?_, ?_⟩, 2, rfl⟩
    · simp [sendHeadersAndBodyAndTrailers, sendBodyAndTrailers, writeHeaders, writeOrBufferBody,
        writeTrailers, emit, hbody, htrailers, frames, Effect.isFrame]
    · simp
    · simp [bytesOf]
  · refine ⟨[.writeHeaders .response block false, .writeOrBufferBody body true],
      ?_, ⟨false, [.writeOrBufferBody body true], rfl, ?_, ?_⟩, 1, rfl⟩
    · simp [sendHeadersAndBodyAndTrailers, sendBodyAndTrailers, writeHeaders, writeOrBufferBody,
        emit, hbody, htrailers, frames, Effect.isFrame]
    · simp
    · simp [bytesOf]
  · have hnil : body = [] := List.isEmpty_iff.mp hbody
    refine ⟨[.writeHeaders .response block false, .writeTrailers trailers],
      ?_, ⟨false, [], rfl, ?_, ?_⟩, 1, rfl⟩
    · simp [sendHeadersAndBodyAndTrailers, sendBodyAndTrailers, writeHeaders, writeTrailers,
        emit, hnil, htrailers, frames, Effect.isFrame]
    · simp
    · simp [hnil]
  · have hnil : body = [] := List.isEmpty_iff.mp hbody
    refine ⟨[.writeHeaders .response block true], ?_, ⟨true, [], rfl, ?_, ?_⟩, 0, rfl⟩
    · simp [sendHeadersAndBodyAndTrailers, writeHeaders, emit, hnil, htrailers, frames,
        Effect.isFrame]
    · simp
    · simp [hnil]

theorem sendHeadersAndBody_sends (s : QuitServerStream) (block : Http2HeaderBlock) (body : Str) :
    ∃ fs, frames (s.sendHeadersAndBody block body).trace = frames s.trace ++ fs ∧
      Sends ⟨block, body, none, false⟩ fs :=
  sendHeadersAndBodyAndTrailers_sends s block body ∅

theorem sendErrorResponse_sends (s : QuitServerStream) (code : ℕ) :
    ∃ fs, frames (s.sendErrorResponse code).trace = frames s.trace ++ fs ∧
      Sends ⟨errorBlock code, kErrorResponseBody, none, false⟩ fs := by
  have hstop : frames (if s.readingStopped then s else s.stopReading).trace = frames s.trace := by
    split
    · rfl
    · exact (frames_append s.trace [.stopReading]).trans (List.append_nil _)
  obtain ⟨fs, hfs, hsends⟩ := sendHeadersAndBody_sends
    (if s.readingStopped then s else s.stopReading) (errorBlock code) kErrorResponseBody
  exact ⟨fs, hstop ▸ hfs, hsends⟩

theorem handlerCall_frames (s : QuitServerStream) (c : HandlerCall) :
    frames (s.emit (.handlerCall c)).trace = frames s.trace :=
  (frames_append s.trace [.handlerCall c]).trans (List.append_nil _)

end QuailServer.ResponseFraming
