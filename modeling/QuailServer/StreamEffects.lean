import QuailServer.StreamRequests

set_option autoImplicit false

namespace QuailServer.ServerStream
open HeaderBlock WebTransport

def Effect.isOutput : Effect → Bool
  | .backendCall _ | .onBodyAvailable _ | .sendResponse | .onCanWrite
  | .processWebTransportRequest _ _ | .setVisitor _ | .headersReceived _ => false
  | _ => true

def handlerCalls (trace : List Effect) : List HandlerCall :=
  trace.filterMap fun
    | .handlerCall c => some c
    | _ => none

@[simp] theorem handlerCalls_append (t u : List Effect) :
    handlerCalls (t ++ u) = handlerCalls t ++ handlerCalls u := List.filterMap_append

namespace QuitServerStream

def writeEnded (s : QuitServerStream) : Bool := s.writeSideClosed || s.finBuffered

structure Responds (s u : QuitServerStream) : Prop where
  trace : ∃ out, u.trace = s.trace ++ out ∧ ∀ e ∈ out, e.isOutput = true
  id : u.id = s.id
  requestHeaders : u.requestHeaders = s.requestHeaders
  contentLength : u.contentLength = s.contentLength
  body : u.body = s.body
  headersComplete : u.headersComplete = s.headersComplete
  webTransport : u.webTransport = s.webTransport
  responseSent : s.responseSent = true → u.responseSent = true
  readingStopped : s.readingStopped = true → u.readingStopped = true
  readSideClosed : s.readSideClosed = true → u.readSideClosed = true
  writeEnded : s.writeEnded = true → u.writeEnded = true
  stoppedSent : u.readingStopped = true → s.readingStopped = true ∨ u.responseSent = true
  stillReading : u.writeEnded = false →
    u.readingStopped = s.readingStopped ∧ u.readSideClosed = s.readSideClosed

/-- A response function appends output effects, never reopens a side of the stream, and stops reading
    only together with ending the write side. `Responds` is the same without the alarm. -/
structure Writes (s u : QuitServerStream) : Prop extends Responds s u where
  alarm : u.delayedResponseAlarm = s.delayedResponseAlarm
  handlerCalls : handlerCalls u.trace = handlerCalls s.trace

theorem Responds.refl (s : QuitServerStream) : Responds s s where
  trace := ⟨[], by simp, by simp⟩
  id := rfl
  requestHeaders := rfl
  contentLength := rfl
  body := rfl
  headersComplete := rfl
  webTransport := rfl
  responseSent := fun h => h
  readingStopped := fun h => h
  readSideClosed := fun h => h
  writeEnded := fun h => h
  stoppedSent := Or.inl
  stillReading := fun _ => ⟨rfl, rfl⟩

theorem Responds.trans {s u v : QuitServerStream} (h : Responds s u) (k : Responds u v) :
    Responds s v where
  trace := by
    obtain ⟨out, ho, hout⟩ := h.trace
    obtain ⟨more, hm, hmore⟩ := k.trace
    refine ⟨out ++ more, by rw [hm, ho, List.append_assoc], ?_⟩
    intro e he
    rcases List.mem_append.mp he with he | he
    · exact hout e he
    · exact hmore e he
  id := k.id.trans h.id
  requestHeaders := k.requestHeaders.trans h.requestHeaders
  contentLength := k.contentLength.trans h.contentLength
  body := k.body.trans h.body
  headersComplete := k.headersComplete.trans h.headersComplete
  webTransport := k.webTransport.trans h.webTransport
  responseSent := k.responseSent ∘ h.responseSent
  readingStopped := k.readingStopped ∘ h.readingStopped
  readSideClosed := k.readSideClosed ∘ h.readSideClosed
  writeEnded := k.writeEnded ∘ h.writeEnded
  stoppedSent := by
    intro hv
    rcases k.stoppedSent hv with hu | hv
    · exact (h.stoppedSent hu).imp_right k.responseSent
    · exact Or.inr hv
  stillReading := by
    intro hv
    have hu : u.writeEnded = false := by
      by_contra hne
      simp [k.writeEnded (by simpa using hne)] at hv
    obtain ⟨hr, hc⟩ := k.stillReading hv
    obtain ⟨hr', hc'⟩ := h.stillReading hu
    exact ⟨hr.trans hr', hc.trans hc'⟩

theorem Writes.refl (s : QuitServerStream) : Writes s s := ⟨.refl s, rfl, rfl⟩

theorem Writes.trans {s u v : QuitServerStream} (h : Writes s u) (k : Writes u v) : Writes s v :=
  ⟨h.toResponds.trans k.toResponds, k.alarm.trans h.alarm, k.handlerCalls.trans h.handlerCalls⟩

theorem writes_of_fields {s u : QuitServerStream} (out : List Effect)
    (trace : u.trace = s.trace ++ out) (output : ∀ e ∈ out, e.isOutput = true)
    (calls : ServerStream.handlerCalls out = [])
    (fields : (u.id, u.requestHeaders, u.contentLength, u.body, u.headersComplete, u.webTransport,
        u.readingStopped, u.delayedResponseAlarm) =
      (s.id, s.requestHeaders, s.contentLength, s.body, s.headersComplete, s.webTransport,
        s.readingStopped, s.delayedResponseAlarm))
    (sent : s.responseSent = true → u.responseSent = true)
    (closed : s.readSideClosed = true → u.readSideClosed = true)
    (ended : s.writeEnded = true → u.writeEnded = true)
    (still : u.writeEnded = false → u.readSideClosed = s.readSideClosed) : Writes s u := by
  simp only [Prod.mk.injEq] at fields
  obtain ⟨hid, hreq, hlen, hbody, hcomplete, hweb, hstop, halarm⟩ := fields
  exact ⟨⟨⟨out, trace, output⟩, hid, hreq, hlen, hbody, hcomplete, hweb, sent,
    fun h => hstop.trans h, closed, ended, fun h => Or.inl (hstop.symm.trans h),
    fun h => ⟨hstop, still h⟩⟩, halarm, by rw [trace, handlerCalls_append, calls, List.append_nil]⟩

theorem emit_writes (s : QuitServerStream) {e : Effect} (he : e.isOutput = true)
    (hcall : ServerStream.handlerCalls [e] = []) : Writes s (s.emit e) :=
  writes_of_fields [e] rfl (by simpa using he) hcall rfl (fun h => h) (fun h => h) (fun h => h)
    fun _ => rfl

theorem sent_writes (s : QuitServerStream) : Writes s { s with responseSent := true } :=
  writes_of_fields [] (by simp) (by simp) rfl rfl (fun _ => rfl) (fun h => h) (fun h => h)
    fun _ => rfl

theorem generating_writes (s : QuitServerStream) (n : ℕ) :
    Writes s { s with generateBytesLength := n } :=
  writes_of_fields [] (by simp) (by simp) rfl rfl (fun h => h) (fun h => h) (fun h => h)
    fun _ => rfl

theorem fin_writes (s : QuitServerStream) (fin : Bool) :
    Writes s { s with finBuffered := s.finBuffered || fin } := by
  refine writes_of_fields [] (by simp) (by simp) rfl rfl (fun h => h) (fun h => h) ?_
    fun _ => rfl
  simp only [writeEnded, Bool.or_eq_true]
  rintro (h | h) <;> simp [h]

theorem writeHeaders_writes (s : QuitServerStream) (origin : HeadersOrigin)
    (block : Http2HeaderBlock) (fin : Bool) : Writes s (s.writeHeaders origin block fin) :=
  (emit_writes s rfl rfl).trans (fin_writes (s.emit _) fin)

theorem writeOrBufferBody_writes (s : QuitServerStream) (data : Str) (fin : Bool) :
    Writes s (s.writeOrBufferBody data fin) :=
  (emit_writes s rfl rfl).trans (fin_writes (s.emit _) fin)

theorem writeTrailers_writes (s : QuitServerStream) (block : Http2HeaderBlock) :
    Writes s (s.writeTrailers block) := by
  have h := (emit_writes s (e := .writeTrailers block) rfl rfl).trans (fin_writes (s.emit _) true)
  simp only [Bool.or_true] at h
  exact h

theorem resetWriteSide_writes (s : QuitServerStream) (error : QuicResetStreamError) :
    Writes s (s.resetWriteSide error) :=
  writes_of_fields [.resetWriteSide error] rfl (by simp [Effect.isOutput]) rfl rfl
    (fun h => h) (fun h => h) (fun _ => rfl) fun _ => rfl

theorem onUnrecoverableError_writes (s : QuitServerStream) : Writes s s.onUnrecoverableError := by
  refine writes_of_fields [.onUnrecoverableError] rfl (by simp [Effect.isOutput]) rfl rfl
    (fun h => h) (fun _ => rfl) (fun _ => rfl) ?_
  intro h
  cases h

theorem sendBodyAndTrailers_writes (s : QuitServerStream) (body : Str)
    (trailers : Http2HeaderBlock) : Writes s (s.sendBodyAndTrailers body trailers) := by
  have hbody : Writes s (if !body.isEmpty || trailers.empty then
      s.writeOrBufferBody body trailers.empty else s) := by
    split
    · exact writeOrBufferBody_writes s body _
    · exact .refl s
  unfold sendBodyAndTrailers
  dsimp only
  by_cases hfin : trailers.empty = true
  · rw [if_pos hfin]
    exact hbody
  · rw [if_neg hfin]
    exact hbody.trans (writeTrailers_writes _ trailers)

/-- All that the send functions do comes after their assertion. -/
theorem sendHeadersAndBodyAndTrailers_asserts (s : QuitServerStream)
    (headers : Option Http2HeaderBlock) (body : Str) (trailers : Http2HeaderBlock) :
    Writes (s.emit (.dcheckNe headers.isSome s.responseSent))
      (s.sendHeadersAndBodyAndTrailers headers body trailers) := by
  cases headers with
  | none => exact sendBodyAndTrailers_writes _ body trailers
  | some block =>
    have hsent := (writeHeaders_writes (s.emit (.dcheckNe true s.responseSent)) .response block
      (body.isEmpty && trailers.empty)).trans (sent_writes _)
    simp only [sendHeadersAndBodyAndTrailers]
    split
    · exact hsent
    · exact hsent.trans (sendBodyAndTrailers_writes _ body trailers)

theorem sendHeadersAndBodyAndTrailers_writes (s : QuitServerStream)
    (headers : Option Http2HeaderBlock) (body : Str) (trailers : Http2HeaderBlock) :
    Writes s (s.sendHeadersAndBodyAndTrailers headers body trailers) :=
  (emit_writes s rfl rfl).trans (sendHeadersAndBodyAndTrailers_asserts s headers body trailers)

theorem sendIncompleteResponse_asserts (q : Platform) (s : QuitServerStream)
    (headers : Option Http2HeaderBlock) (body : Str) :
    Writes (s.emit (.dcheckNe headers.isSome s.responseSent))
      (s.sendIncompleteResponse q headers body) := by
  have hbody : ∀ w u, Writes w u → Writes w (if body.isEmpty then u else u.writeOrBufferBody body false) := by
    intro w u hu
    split
    · exact hu
    · exact hu.trans (writeOrBufferBody_writes u body false)
  cases headers with
  | none => exact hbody _ _ (.refl _)
  | some block =>
    simp only [sendIncompleteResponse]
    apply hbody
    refine Writes.trans ?_ (writeHeaders_writes _ .response block false)
    split
    · exact .refl _
    · exact sent_writes _

theorem sendIncompleteResponse_writes (q : Platform) (s : QuitServerStream)
    (headers : Option Http2HeaderBlock) (body : Str) :
    Writes s (s.sendIncompleteResponse q headers body) :=
  (emit_writes s rfl rfl).trans (sendIncompleteResponse_asserts q s headers body)

theorem sendHeadersAndBody_eq (s : QuitServerStream) (block : Http2HeaderBlock) {body : Str}
    (hb : body ≠ []) : s.sendHeadersAndBody block body =
      { s with
        trace := s.trace ++ [.dcheckNe true s.responseSent, .writeHeaders .response block false,
          .writeOrBufferBody body true]
        responseSent := true
        finBuffered := true } := by
  have he : body.isEmpty = false := by simpa using hb
  have ht : Http2HeaderBlock.empty ∅ = true := rfl
  simp [sendHeadersAndBody, sendHeadersAndBodyAndTrailers, sendBodyAndTrailers, writeHeaders,
    writeOrBufferBody, emit, he, ht]

theorem sendNotFoundResponse_writes (s : QuitServerStream) : Writes s s.sendNotFoundResponse := by
  unfold sendNotFoundResponse sendHeadersAndBody
  exact sendHeadersAndBodyAndTrailers_writes s _ _ _

def errorBlock (code : ℕ) : Http2HeaderBlock :=
  statusBlock (if code = 0 then "500" else strCat code) kErrorResponseBody

theorem statusBlock_final (q : Platform) {status : Str} (body : Str) (hne : status ≠ strCat 100) :
    q.parseHeaderStatusCode (statusBlock status body) ≠ some 100 := by
  intro hparse
  have hstatus := q.parse_status _ _ hparse
  rw [statusBlock_status] at hstatus
  exact hne (Option.some.inj hstatus)

theorem errorBlock_final (q : Platform) {code : ℕ} (hcode : code = 0 ∨ code = 400 ∨ code = 502) :
    q.parseHeaderStatusCode (errorBlock code) ≠ some 100 := by
  rcases hcode with rfl | rfl | rfl
  · exact statusBlock_final q _ (by decide)
  · exact statusBlock_final q _ (by decide)
  · exact statusBlock_final q _ (by decide)

theorem sendErrorResponse_eq (s : QuitServerStream) (code : ℕ) : s.sendErrorResponse code =
    { s with
      trace := s.trace ++ (if s.readingStopped then [] else [.stopReading]) ++
        [.dcheckNe true s.responseSent, .writeHeaders .response (errorBlock code) false,
          .writeOrBufferBody kErrorResponseBody true]
      readingStopped := true
      responseSent := true
      finBuffered := true } := by
  unfold sendErrorResponse
  dsimp only
  rw [sendHeadersAndBody_eq _ _ (by decide)]
  by_cases h : s.readingStopped = true <;> simp [h, stopReading, emit, errorBlock]

theorem sendErrorResponse_writes (s : QuitServerStream) (code : ℕ) :
    Writes s (s.sendErrorResponse code) := by
  rw [sendErrorResponse_eq]
  refine ⟨⟨⟨_, List.append_assoc _ _ _, ?_⟩, rfl, rfl, rfl, rfl, rfl, rfl, fun _ => rfl,
    fun _ => rfl, fun h => h, fun _ => ?_, fun _ => Or.inr rfl, fun h => ?_⟩, rfl, ?_⟩
  · split <;> simp [Effect.isOutput]
  · simp [writeEnded]
  · simp [writeEnded] at h
  · split <;> simp [ServerStream.handlerCalls]

theorem writeGeneratedBytes_writes (q : Platform) (s : QuitServerStream) :
    Writes s (s.writeGeneratedBytes q) := by
  induction s using writeGeneratedBytes.induct q with
  | case1 s h len left ih =>
    rw [writeGeneratedBytes, dif_pos h]
    exact ((generating_writes s left).trans (writeOrBufferBody_writes _ _ _)).trans ih
  | case2 s h =>
    rw [writeGeneratedBytes, dif_neg h]
    exact .refl s

theorem writeGeneratedBytes_responseSent (q : Platform) (s : QuitServerStream) :
    (s.writeGeneratedBytes q).responseSent = s.responseSent := by
  induction s using writeGeneratedBytes.induct q with
  | case1 s h len left ih =>
    rw [writeGeneratedBytes, dif_pos h]
    exact ih
  | case2 s h => rw [writeGeneratedBytes, dif_neg h]

theorem respondGenerateBytes_writes (q : Platform) (r : QuicBackendResponse)
    (s : QuitServerStream) : Writes s (s.respondGenerateBytes q r) := by
  unfold respondGenerateBytes
  cases s.requestHeaders.asString ":path" with
  | nil => exact emit_writes s rfl rfl
  | cons c path =>
    have hlen := generating_writes s (q.simpleAtoi path).2
    dsimp only
    split
    · refine Writes.trans ?_ (writeGeneratedBytes_writes q _)
      exact ((hlen.trans (writeHeaders_writes _ _ _ _)).trans (emit_writes _ rfl rfl)).trans
        (sent_writes _)
    · exact hlen.trans (sendNotFoundResponse_writes _)

theorem earlyHints_writes (hints : List Http2HeaderBlock) (s : QuitServerStream) :
    Writes s (hints.foldl (fun s headers => s.writeHeaders .earlyHints headers false) s) := by
  induction hints generalizing s with
  | nil => exact .refl s
  | cons hint hints ih => exact (writeHeaders_writes s _ _ _).trans (ih _)

theorem respond_writes (q : Platform) (r : QuicBackendResponse) (s : QuitServerStream) :
    Writes s (s.respond q r) := by
  refine (earlyHints_writes r.earlyHints s).trans ?_
  unfold respond
  dsimp only
  split_ifs
  · exact onUnrecoverableError_writes _
  · exact .refl _
  · exact sendErrorResponse_writes _ _
  · exact sendErrorResponse_writes _ _
  · exact sendIncompleteResponse_writes q _ _ _
  · exact respondGenerateBytes_writes q r _
  · exact sendHeadersAndBodyAndTrailers_writes _ _ _ _

theorem alarm_responds (s : QuitServerStream) (alarm : Option QuicBackendResponse) :
    Responds s { s with delayedResponseAlarm := alarm } :=
  ⟨⟨[], by simp, by simp⟩, rfl, rfl, rfl, rfl, rfl, rfl, fun h => h, fun h => h, fun h => h,
    fun h => h, Or.inl, fun _ => ⟨rfl, rfl⟩⟩

theorem onResponseBackendComplete_responds (q : Platform) (r : Option QuicBackendResponse)
    (s : QuitServerStream) : Responds s (s.onResponseBackendComplete q r) := by
  cases r with
  | none => exact (sendNotFoundResponse_writes s).toResponds
  | some r =>
    unfold onResponseBackendComplete
    dsimp only
    split
    · exact (respond_writes q r s).toResponds
    · exact alarm_responds s _

theorem sendStreamData_writes (q : Platform) (data : Str) (close : Bool) (s : QuitServerStream) :
    Writes s (s.sendStreamData q data close) := by
  refine (emit_writes s (e := .dcheck (!data.isEmpty || close)) rfl rfl).trans ?_
  unfold sendStreamData
  dsimp only
  split
  · exact sendHeadersAndBodyAndTrailers_writes _ _ _ _
  · exact sendIncompleteResponse_writes q _ _ _

theorem handlerCall_responds (s : QuitServerStream) (c : HandlerCall) :
    Responds s (s.emit (.handlerCall c)) :=
  ⟨⟨[.handlerCall c], rfl, by simp [Effect.isOutput]⟩, rfl, rfl, rfl, rfl, rfl, rfl, fun h => h,
    fun h => h, fun h => h, fun h => h, Or.inl, fun _ => ⟨rfl, rfl⟩⟩

theorem handle_responds (q : Platform) (c : HandlerCall) (s : QuitServerStream) :
    Responds s (s.handle q c) := by
  have hcall := handlerCall_responds s c
  cases c with
  | onResponseBackendComplete r => exact hcall.trans (onResponseBackendComplete_responds q r _)
  | sendStreamData data close => exact hcall.trans (sendStreamData_writes q data close _).toResponds
  | terminateStreamWithError e => exact hcall.trans (resetWriteSide_writes _ e).toResponds

theorem handles_responds (q : Platform) (calls : List HandlerCall) (s : QuitServerStream) :
    Responds s (calls.foldl (fun s c => s.handle q c) s) := by
  induction calls generalizing s with
  | nil => exact .refl s
  | cons c calls ih => exact (handle_responds q c s).trans (ih _)

theorem onAlarm_responds (q : Platform) (s : QuitServerStream) : Responds s (s.onAlarm q) := by
  unfold onAlarm
  cases s.delayedResponseAlarm with
  | none => exact .refl s
  | some r => exact (alarm_responds s none).trans (respond_writes q r _).toResponds

theorem callBackend_responds (q : Platform) (b : Backend) (c : BackendCall) (s : QuitServerStream) :
    Responds (s.emit (.backendCall c)) (s.callBackend q b c) :=
  handles_responds q _ _

end QuitServerStream
end QuailServer.ServerStream
