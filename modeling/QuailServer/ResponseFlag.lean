import QuailServer.FinalHeaders
import QuailServer.StreamOperations
import QuailServer.StreamSessions

set_option autoImplicit false

namespace QuailServer.ResponseFlag
open HeaderBlock WebTransport ServerStream QuitServerStream FinalHeaders StepMachine

def FlagMeans (q : Platform) (s : QuitServerStream) : Prop :=
  s.responseSent = true ↔ 0 < finalHeaders q s.trace

/-- The flag is right after every event, and after every operation within one. -/
structure FlagKept (q : Platform) (b : Backend) (id : StreamId) (events : List Event) : Prop where
  afterEvents : Always (step q b) (FlagMeans q) (.new id) events
  afterOperations : Always (operate q b) (FlagMeans q) (.new id) (operationsOf q b (.new id) events)

/-- A 100 block that `Respond` writes and counts as the response. -/
def MarksInterim (q : Platform) (s : QuitServerStream) (r : QuicBackendResponse) : Prop :=
  match r.responseType with
  | .regularResponse => q.parseHeaderStatusCode r.headers = some 100
  | .generateBytes => q.parseHeaderStatusCode r.headers ≠ none ∧
      match s.requestHeaders.asString ":path" with
      | [] => False
      | _ :: path => (q.simpleAtoi path).1 = true ∧ q.parseHeaderStatusCode
          (r.headers.set "content-length" (strCat (q.simpleAtoi path).2)) = some 100
  | _ => False

/-- A session is answered with a final block, or a 100 block sets the flag. -/
def Misses (q : Platform) (b : Backend) (s : QuitServerStream) : Operation → Prop
  | .answerConnect fin => fin = false ∧ s.responseSent = false ∧ s.isConnectRequest = true ∧
      s.webTransport.isSome = true ∧ q.parseHeaderStatusCode
        (b.processWebTransportRequest s.requestHeaders s.id).responseHeaders ≠ some 100
  | .handlerCall (.onResponseBackendComplete (some r)) =>
    s.trace.any Effect.isBackendCall = true ∧ r.delay = 0 ∧ MarksInterim q s r
  | .alarm => ∃ r, s.delayedResponseAlarm = some r ∧ MarksInterim q s r
  | _ => False

def Marks (q : Platform) (b : Backend) (s : QuitServerStream) (o : Operation) : Prop :=
  s.responseSent = false → ¬ Misses q b s o

/-- The function sets the flag or not, and writes this many final header blocks. -/
structure Counts (q : Platform) (s u : QuitServerStream) (sent : Bool) (finals : ℕ) : Prop where
  sent : u.responseSent = (s.responseSent || sent)
  finals : finalHeaders q u.trace = finalHeaders q s.trace + finals

def Flags (q : Platform) (s u : QuitServerStream) : Prop :=
  ∃ sent finals, Counts q s u sent finals ∧ (sent = true ↔ 0 < finals)

def blockFinals (q : Platform) (block : Http2HeaderBlock) : ℕ :=
  if q.parseHeaderStatusCode block = some 100 then 0 else 1

section Counts
variable {q : Platform} {s u w : QuitServerStream}

theorem Counts.refl (q : Platform) (s : QuitServerStream) : Counts q s s false 0 :=
  ⟨(Bool.or_false _).symm, rfl⟩

theorem Counts.trans {sent sent' : Bool} {finals finals' : ℕ} (h : Counts q s u sent finals)
    (h' : Counts q u w sent' finals') : Counts q s w (sent || sent') (finals + finals') where
  sent := by rw [h'.sent, h.sent, Bool.or_assoc]
  finals := by rw [h'.finals, h.finals, Nat.add_assoc]

theorem counts_of_trace (out : List Effect) (htrace : u.trace = s.trace ++ out)
    (hfinal : finalHeaders q out = 0) (hsent : u.responseSent = s.responseSent) :
    Counts q s u false 0 where
  sent := by rw [hsent, Bool.or_false]
  finals := by rw [htrace, finalHeaders_append, hfinal]

theorem counts_of_fields (htrace : u.trace = s.trace) (hsent : u.responseSent = s.responseSent) :
    Counts q s u false 0 :=
  counts_of_trace [] (htrace.trans (List.append_nil _).symm) rfl hsent

theorem Counts.flags {sent : Bool} {finals : ℕ} (h : Counts q s u sent finals)
    (hboth : sent = true ↔ 0 < finals) : Flags q s u := ⟨sent, finals, h, hboth⟩

theorem Counts.quiet (h : Counts q s u false 0) : Flags q s u :=
  h.flags (iff_of_false nofun (lt_irrefl 0))

theorem Flags.trans (h : Flags q s u) (h' : Flags q u w) : Flags q s w := by
  obtain ⟨sent, finals, hc, hboth⟩ := h
  obtain ⟨sent', finals', hc', hboth'⟩ := h'
  refine (hc.trans hc').flags ?_
  rw [Bool.or_eq_true, hboth, hboth']
  omega

theorem writeHeaders_counts (block : Http2HeaderBlock) (fin : Bool) :
    Counts q s (s.writeHeaders .response block fin) false (blockFinals q block) where
  sent := (Bool.or_false _).symm
  finals := by
    change finalHeaders q (s.trace ++ [_]) = _
    rw [finalHeaders_append]
    unfold blockFinals
    split
    · next hcode => simp [finalHeaders, isFinalHeaders, hcode]
    · next hcode => simp [finalHeaders, isFinalHeaders, hcode]

theorem writeOrBufferBody_counts (data : Str) (fin : Bool) :
    Counts q s (s.writeOrBufferBody data fin) false 0 :=
  counts_of_trace [.writeOrBufferBody data fin] rfl rfl rfl

theorem asserts_counts (hasValue : Bool) :
    Counts q s (s.emit (.dcheckNe hasValue s.responseSent)) false 0 :=
  counts_of_trace [.dcheckNe hasValue s.responseSent] rfl rfl rfl

theorem dcheck_counts (holds : Bool) : Counts q s (s.emit (.dcheck holds)) false 0 :=
  counts_of_trace [.dcheck holds] rfl rfl rfl

theorem mark_counts : Counts q s { s with responseSent := true } true 0 where
  sent := (Bool.or_true _).symm
  finals := rfl

theorem sendBodyAndTrailers_counts (body : Str) (trailers : Http2HeaderBlock) :
    Counts q s (s.sendBodyAndTrailers body trailers) false 0 := by
  have hbody : Counts q s (if !body.isEmpty || trailers.empty then
      s.writeOrBufferBody body trailers.empty else s) false 0 := by
    split
    · exact writeOrBufferBody_counts body trailers.empty
    · exact .refl q s
  unfold sendBodyAndTrailers
  dsimp only
  split
  · exact hbody
  · have htrailers : ∀ w : QuitServerStream, Counts q w (w.writeTrailers trailers) false 0 :=
      fun w => counts_of_trace [.writeTrailers trailers] rfl rfl rfl
    exact hbody.trans (htrailers _)

theorem sendHeadersAndBodyAndTrailers_counts (block : Http2HeaderBlock) (body : Str)
    (trailers : Http2HeaderBlock) :
    Counts q s (s.sendHeadersAndBodyAndTrailers (some block) body trailers) true
      (blockFinals q block) := by
  have hcheck := asserts_counts (q := q) (s := s) true
  have hwrite := (hcheck.trans (writeHeaders_counts block (body.isEmpty && trailers.empty))).trans
    mark_counts
  rw [Nat.zero_add, Nat.add_zero] at hwrite
  unfold sendHeadersAndBodyAndTrailers
  dsimp only
  split
  · exact hwrite
  · exact hwrite.trans (sendBodyAndTrailers_counts body trailers)

theorem sendIncompleteResponse_counts (block : Http2HeaderBlock) (body : Str) :
    Counts q s (s.sendIncompleteResponse q (some block) body)
      (decide (q.parseHeaderStatusCode block ≠ some 100)) (blockFinals q block) := by
  have hmark : ∀ u : QuitServerStream, Counts q u
      (if q.parseHeaderStatusCode block = some 100 then u else { u with responseSent := true })
      (decide (q.parseHeaderStatusCode block ≠ some 100)) 0 := by
    intro u
    by_cases hcode : q.parseHeaderStatusCode block = some 100
    · rw [if_pos hcode, decide_eq_false (not_not.mpr hcode)]
      exact .refl q u
    · rw [if_neg hcode, decide_eq_true hcode]
      exact mark_counts
  have hcheck := asserts_counts (q := q) (s := s) true
  have hwrite := (hcheck.trans (hmark _)).trans (writeHeaders_counts block false)
  rw [Bool.false_or, Bool.or_false, Nat.zero_add] at hwrite
  unfold sendIncompleteResponse
  dsimp only
  split
  · exact hwrite
  · have hall := hwrite.trans (writeOrBufferBody_counts body false)
    rw [Bool.or_false] at hall
    exact hall

theorem sendHeadersAndBody_flags {block : Http2HeaderBlock}
    (hfinal : q.parseHeaderStatusCode block ≠ some 100) (body : Str) :
    Flags q s (s.sendHeadersAndBody block body) := by
  refine (sendHeadersAndBodyAndTrailers_counts block body ∅).flags (iff_of_true rfl ?_)
  unfold blockFinals
  rw [if_neg hfinal]
  exact Nat.one_pos

theorem sendNotFoundResponse_flags : Flags q s s.sendNotFoundResponse :=
  sendHeadersAndBody_flags (statusBlock_final q _ (by decide)) _

theorem sendErrorResponse_flags {code : ℕ} (hcode : code = 0 ∨ code = 400 ∨ code = 502) :
    Flags q s (s.sendErrorResponse code) := by
  have hstop : Flags q s (if s.readingStopped then s else s.stopReading) := by
    split
    · exact (Counts.refl q s).quiet
    · have hcounts : Counts q s s.stopReading false 0 :=
        counts_of_trace [.stopReading] rfl rfl rfl
      exact hcounts.quiet
  exact hstop.trans (sendHeadersAndBody_flags (errorBlock_final q hcode) _)

theorem writeGeneratedBytes_counts : Counts q s (s.writeGeneratedBytes q) false 0 := by
  induction s using writeGeneratedBytes.induct q with
  | case1 s hleft len left ih =>
    rw [writeGeneratedBytes, dif_pos hleft]
    have hleft : Counts q s { s with generateBytesLength := left } false 0 := counts_of_fields rfl rfl
    exact (hleft.trans (writeOrBufferBody_counts _ _)).trans ih
  | case2 s hleft =>
    rw [writeGeneratedBytes, dif_neg hleft]
    exact .refl q s

theorem earlyHints_counts (hints : List Http2HeaderBlock) : Counts q s
    (hints.foldl (fun s headers => s.writeHeaders .earlyHints headers false) s) false 0 := by
  induction hints generalizing s with
  | nil => exact .refl q s
  | cons hint hints ih =>
    have hhint : Counts q s (s.writeHeaders .earlyHints hint false) false 0 :=
      counts_of_trace [.writeHeaders .earlyHints hint false] rfl rfl rfl
    exact hhint.trans ih

/-- The flag and the final header blocks go apart exactly if `apart`, unless the flag was set. -/
def Parts (q : Platform) (s u : QuitServerStream) (apart : Prop) : Prop :=
  ∃ sent finals, Counts q s u sent finals ∧ ((sent = true ↔ 0 < finals) ↔ ¬ apart)

theorem Flags.parts (h : Flags q s u) {apart : Prop} (hnot : ¬ apart) : Parts q s u apart := by
  obtain ⟨sent, finals, hc, hboth⟩ := h
  exact ⟨sent, finals, hc, iff_of_true hboth hnot⟩

theorem Counts.trans_parts {apart : Prop} (h : Counts q s u false 0) (h' : Parts q u w apart) :
    Parts q s w apart := by
  obtain ⟨sent, finals, hc, hboth⟩ := h'
  have hall := h.trans hc
  rw [Bool.false_or, Nat.zero_add] at hall
  exact ⟨sent, finals, hall, hboth⟩

theorem Parts.congr {apart apart' : Prop} (h : Parts q s u apart) (heq : apart ↔ apart') :
    Parts q s u apart' := propext heq ▸ h

theorem marksInterim_congr (h : u.requestHeaders = s.requestHeaders) (r : QuicBackendResponse) :
    MarksInterim q u r ↔ MarksInterim q s r := by
  unfold MarksInterim
  rw [h]

theorem FlagMeans.iff_of_parts {apart : Prop} (hs : FlagMeans q s) (h : Parts q s u apart) :
    FlagMeans q u ↔ (s.responseSent = false → ¬ apart) := by
  obtain ⟨sent, finals, hc, hboth⟩ := h
  rw [← hboth]
  unfold FlagMeans at hs ⊢
  rw [hc.sent, hc.finals]
  cases hflag : s.responseSent with
  | true =>
    have hpos : 0 < finalHeaders q s.trace := hs.mp hflag
    exact iff_of_true (iff_of_true rfl (by omega)) nofun
  | false =>
    have hnone : finalHeaders q s.trace = 0 := by
      rw [hflag] at hs
      simpa using hs
    rw [hnone, Bool.false_or, Nat.zero_add]
    exact ⟨fun h _ => h, fun h => h rfl⟩

theorem Counts.parts_set {block : Http2HeaderBlock}
    (h : Counts q s u true (blockFinals q block)) :
    Parts q s u (q.parseHeaderStatusCode block = some 100) := by
  refine ⟨true, _, h, ?_⟩
  unfold blockFinals
  split
  · next hcode =>
    exact iff_of_false (fun hb => absurd (hb.mp rfl) (lt_irrefl 0)) (not_not.mpr hcode)
  · next hcode => exact iff_of_true (iff_of_true rfl Nat.one_pos) hcode

theorem Counts.parts_unset {block : Http2HeaderBlock}
    (h : Counts q s u false (blockFinals q block)) :
    Parts q s u (q.parseHeaderStatusCode block ≠ some 100) := by
  refine ⟨false, _, h, ?_⟩
  unfold blockFinals
  split
  · next hcode => exact iff_of_true (iff_of_false nofun (lt_irrefl 0)) (not_not.mpr hcode)
  · next hcode => exact iff_of_false (fun hb => absurd (hb.mpr Nat.one_pos) nofun) (not_not.mpr hcode)

theorem sendIncompleteResponse_flags (block : Http2HeaderBlock) (body : Str) :
    Flags q s (s.sendIncompleteResponse q (some block) body) := by
  refine (sendIncompleteResponse_counts block body).flags ?_
  unfold blockFinals
  split
  · next hcode => simp [hcode]
  · next hcode => simp [hcode]

theorem generating_counts (block : Http2HeaderBlock) (held : Bool) (n : ℕ) :
    Counts q s (writeGeneratedBytes q { (({ s with generateBytesLength := n }.writeHeaders .response
      block false).emit (.dcheck held)) with responseSent := true }) true (blockFinals q block) := by
  have hlength : Counts q s { s with generateBytesLength := n } false 0 :=
    counts_of_fields rfl rfl
  have hwrite := hlength.trans (writeHeaders_counts block false)
  have hall := ((hwrite.trans (dcheck_counts held)).trans mark_counts).trans writeGeneratedBytes_counts
  rw [Nat.zero_add] at hall
  exact hall

theorem respondGenerateBytes_parts {r : QuicBackendResponse}
    (htype : r.responseType = .generateBytes) (hcode : q.parseHeaderStatusCode r.headers ≠ none) :
    Parts q s (s.respondGenerateBytes q r) (MarksInterim q s r) := by
  unfold respondGenerateBytes MarksInterim
  rw [htype]
  dsimp only
  cases hpath : s.requestHeaders.asString ":path" with
  | nil =>
    have hcounts : Counts q s (s.emit .outOfRange) false 0 :=
      counts_of_trace [.outOfRange] rfl rfl rfl
    exact hcounts.quiet.parts And.right
  | cons c path =>
    dsimp only
    by_cases hatoi : (q.simpleAtoi path).1 = true
    · rw [if_pos hatoi]
      have hparts := (generating_counts (q := q) (s := s) (r.headers.set "content-length"
        (strCat (q.simpleAtoi path).2)) (!s.responseSent) (q.simpleAtoi path).2).parts_set
      simpa only [ne_eq, hcode, not_false_eq_true, hatoi, true_and] using hparts
    · rw [if_neg hatoi]
      have hlength : Counts q s { s with generateBytesLength := (q.simpleAtoi path).2 } false 0 :=
        counts_of_fields rfl rfl
      exact hlength.trans_parts (sendNotFoundResponse_flags.parts fun h => hatoi h.2.1)

theorem respond_parts (r : QuicBackendResponse) :
    Parts q s (s.respond q r) (MarksInterim q s r) := by
  have hhints := earlyHints_counts (q := q) (s := s) r.earlyHints
  have hw := (earlyHints_writes r.earlyHints s).requestHeaders
  unfold QuitServerStream.respond
  dsimp only
  generalize r.earlyHints.foldl (fun s headers => s.writeHeaders .earlyHints headers false) s = w
    at hhints hw ⊢
  refine hhints.trans_parts (Parts.congr ?_ (marksInterim_congr hw r))
  split_ifs with hclose hignore herr hmissing hincomplete hgenerate
  · have hcounts : Counts q w w.onUnrecoverableError false 0 :=
      counts_of_trace [.onUnrecoverableError] rfl rfl rfl
    exact hcounts.quiet.parts (by simp [MarksInterim, hclose])
  · exact (Counts.refl q w).quiet.parts (by simp [MarksInterim, hignore])
  · exact (sendErrorResponse_flags (Or.inr (Or.inr rfl))).parts (by simp [MarksInterim, herr])
  · refine (sendErrorResponse_flags (Or.inl rfl)).parts ?_
    unfold MarksInterim
    split
    · simp [hmissing]
    · exact fun h => h.1 hmissing
    · exact id
  · exact (sendIncompleteResponse_flags r.headers r.body).parts (by simp [MarksInterim, hincomplete])
  · exact respondGenerateBytes_parts hgenerate hmissing
  · have hregular : r.responseType = .regularResponse := by
      cases htype : r.responseType <;> simp_all
    have hparts := (sendHeadersAndBodyAndTrailers_counts (q := q) (s := w) r.headers r.body
      r.trailers).parts_set
    unfold MarksInterim
    rw [hregular]
    exact hparts

theorem sendBodyOnly_counts (body : Str) (trailers : Http2HeaderBlock) :
    Counts q s (s.sendHeadersAndBodyAndTrailers none body trailers) false 0 :=
  (asserts_counts false).trans (sendBodyAndTrailers_counts body trailers)

theorem sendIncompleteBody_counts (body : Str) :
    Counts q s (s.sendIncompleteResponse q none body) false 0 := by
  unfold sendIncompleteResponse
  dsimp only
  split
  · exact asserts_counts false
  · exact (asserts_counts false).trans (writeOrBufferBody_counts body false)

theorem sendStreamData_counts (data : Str) (closeStream : Bool) :
    Counts q s (s.sendStreamData q data closeStream) false 0 := by
  unfold sendStreamData
  dsimp only
  split
  · exact (dcheck_counts _).trans (sendBodyOnly_counts data ∅)
  · exact (dcheck_counts _).trans (sendIncompleteBody_counts data)

theorem alarm_counts (alarm : Option QuicBackendResponse) :
    Counts q s { s with delayedResponseAlarm := alarm } false 0 :=
  counts_of_fields rfl rfl

theorem onResponseBackendComplete_parts (response : Option QuicBackendResponse) :
    Parts q s (s.onResponseBackendComplete q response)
      (∃ r, response = some r ∧ r.delay = 0 ∧ MarksInterim q s r) := by
  unfold onResponseBackendComplete
  cases response with
  | none => exact sendNotFoundResponse_flags.parts (by simp)
  | some r =>
    dsimp only
    split
    · next hdelay => simpa [hdelay] using respond_parts r
    · next hdelay => exact (alarm_counts (some r)).quiet.parts (by simp [hdelay])

theorem handle_parts (call : HandlerCall) : Parts q s (s.handle q call)
    (∃ r, call = .onResponseBackendComplete (some r) ∧ r.delay = 0 ∧ MarksInterim q s r) := by
  have hcall : Counts q s (s.emit (.handlerCall call)) false 0 :=
    counts_of_trace [.handlerCall call] rfl rfl rfl
  refine hcall.trans_parts ?_
  cases call with
  | onResponseBackendComplete response =>
    have hmarks : ∀ r (e : Effect), MarksInterim q (s.emit e) r ↔ MarksInterim q s r :=
      fun r e => marksInterim_congr rfl r
    refine (onResponseBackendComplete_parts response).congr ?_
    simp only [hmarks, HandlerCall.onResponseBackendComplete.injEq]
  | sendStreamData data closeStream =>
    exact (sendStreamData_counts data closeStream).quiet.parts (by simp)
  | terminateStreamWithError error =>
    have hreset : ∀ w : QuitServerStream, Counts q w (w.resetWriteSide error) false 0 :=
      fun w => counts_of_trace [.resetWriteSide error] rfl rfl rfl
    exact (hreset _).quiet.parts (by simp)

theorem onAlarm_parts : Parts q s (s.onAlarm q)
    (∃ r, s.delayedResponseAlarm = some r ∧ MarksInterim q s r) := by
  unfold onAlarm
  cases halarm : s.delayedResponseAlarm with
  | none => exact (Counts.refl q s).quiet.parts (by simp)
  | some r =>
    refine ((alarm_counts none).trans_parts (respond_parts r)).congr
      (Iff.trans (marksInterim_congr (s := s) rfl r) ?_)
    simp

theorem setVisitor_counts (visitor : QuitConverter) : Counts q s (s.setVisitor visitor) false 0 :=
  counts_of_trace [.setVisitor visitor] rfl rfl rfl

theorem headersReceived_counts : Counts q s s.headersReceived false 0 :=
  counts_of_trace [.headersReceived s.requestHeaders] rfl rfl rfl

theorem processWebTransport_counts (b : Backend) : Counts q s (s.processWebTransport b) false
    (blockFinals q (b.processWebTransportRequest s.requestHeaders s.id).responseHeaders) := by
  unfold processWebTransport
  generalize b.processWebTransportRequest s.requestHeaders s.id = response
  dsimp only
  have hasked : Counts q s (s.emit (.processWebTransportRequest s.requestHeaders response)) false 0 :=
    counts_of_trace [.processWebTransportRequest s.requestHeaders response] rfl rfl rfl
  have hwrite : ∀ fin : Bool, Counts q s
      ((s.emit (.processWebTransportRequest s.requestHeaders response)).writeHeaders .response
        response.responseHeaders fin) false (blockFinals q response.responseHeaders) := by
    intro fin
    have hall := hasked.trans (writeHeaders_counts response.responseHeaders fin)
    rw [Nat.zero_add] at hall
    exact hall
  split
  · cases response.visitor with
    | none => exact (hwrite false).trans headersReceived_counts
    | some visitor =>
      exact ((hwrite false).trans (setVisitor_counts visitor)).trans headersReceived_counts
  · exact hwrite true

theorem callBackend_counts (b : Backend) (call : BackendCall) :
    Counts q s (s.callBackend q b.quiet call) false 0 :=
  counts_of_trace [.backendCall call] rfl rfl rfl

theorem withBody_counts (d : Delivery) : Counts q s (s.withBody d) false 0 :=
  counts_of_trace [.onBodyAvailable d] rfl rfl rfl

theorem onFinRead_counts : Counts q s s.onFinRead false 0 :=
  counts_of_fields rfl rfl

theorem sendResponse_flags (b : Backend) (hc : s.isConnectRequest = false)
    (hweb : s.webTransport = none) : Flags q s (s.sendResponse q (some b.quiet)) := by
  have hchecking : Counts q s (checking s) false 0 :=
    counts_of_trace [.sendResponse, .dcheck true] rfl rfl rfl
  by_cases hs : Checked s
  · rw [sendResponse_of_checked q b.quiet hc hweb hs]
    exact (hchecking.trans (callBackend_counts b _)).quiet
  · rw [sendResponse_of_unchecked q b.quiet hc hweb hs]
    exact hchecking.quiet.trans (sendErrorResponse_flags (Or.inl rfl))

theorem offerBody_flags (b : Backend) (d : Delivery) (hs : s.SessionConnect) :
    Flags q s (s.offerBody q (some b.quiet) d) := by
  unfold offerBody
  split
  · exact (Counts.refl q s).quiet
  · rename_i hreading
    have hfin := (withBody_counts (q := q) (s := s) d).trans onFinRead_counts
    rcases onBodyAvailable_cases q (some b.quiet) s d with ⟨htakes, -⟩ | ⟨-, body, heq⟩
    · cases hc : s.isConnectRequest with
      | true =>
        have hhanding : Counts q s (s.handing d) false 0 :=
          counts_of_trace [.onBodyAvailable d, .dcheck true] rfl rfl rfl
        rw [onBodyAvailable_connect q b.quiet hc htakes]
        split
        · exact hfin.quiet
        · exact (hhanding.trans (callBackend_counts b _)).quiet
      | false =>
        have hweb : s.webTransport = none := hs.no_session hc (by simpa using hreading)
        rw [onBodyAvailable_request q (some b.quiet) hc htakes]
        split
        · split
          · exact hfin.quiet
          · exact hfin.quiet.trans
              (sendResponse_flags b ((isConnectRequest_congr rfl).trans hc) hweb)
        · exact (withBody_counts d).quiet
    · rw [heq]
      have hbody : Counts q s { s.emit (.onBodyAvailable d) with body := body } false 0 :=
        counts_of_trace [.onBodyAvailable d] rfl rfl rfl
      exact hbody.quiet.trans (sendErrorResponse_flags (Or.inl rfl))

theorem consumeHeaderList_flags (b : Backend) (bodyAvailable : Option Delivery)
    (hs : s.SessionConnect) : Flags q s (s.consumeHeaderList q (some b.quiet) bodyAvailable) := by
  unfold consumeHeaderList
  cases bodyAvailable with
  | none => exact (Counts.refl q s).quiet
  | some d => exact offerBody_flags b d hs

end Counts

structure Sound (s : QuitServerStream) : Prop where
  blank : s.headersComplete = false → Blank s
  connect : s.SessionConnect

structure Reads (q : Platform) (s u : QuitServerStream) : Prop where
  flags : Flags q s u
  complete : u.headersComplete = true
  connect : u.SessionConnect

section Operations
variable {q : Platform} {b : Backend} {s : QuitServerStream}

theorem sound_of_continues {u : QuitServerStream} (h : Continues s u) (hs : Sound s)
    (hblank : s.headersComplete = false → Blank u) : Sound u where
  blank hcomplete := hblank (h.headersComplete ▸ hcomplete)
  connect := h.sessionConnect hs.connect

theorem readHeaders_reads (h : InitialHeaders) (hs : Blank s) :
    Reads q s (s.readHeaders q (some b.quiet) h) := by
  unfold readHeaders
  by_cases hv : h.Valid
  · rw [headersRead_valid hs hv]
    have hopened := opened_sessionConnect hv s
    have hread := consumeHeaderList_continues q b.quiet h.bodyAvailable hopened
    have hcounts : Counts q s (s.opened h) false 0 :=
      counts_of_fields rfl rfl
    exact ⟨hcounts.quiet.trans (consumeHeaderList_flags b h.bodyAvailable hopened),
      hread.headersComplete, hread.sessionConnect hopened⟩
  · obtain ⟨u, code, heq, hcode, hu⟩ := headersRead_invalid hs hv
    have hread : (u.sendErrorResponse code).consumeHeaderList q (some b.quiet) h.bodyAvailable =
        u.sendErrorResponse code := rejected_consumeHeaderList q _ _ u code
    have hcounts : Counts q s u false 0 :=
      counts_of_fields hu.trace (hu.responseSent.trans hs.responseSent.symm)
    rw [heq, hread]
    refine ⟨hcounts.quiet.trans (sendErrorResponse_flags (hcode.imp_right Or.inl)), ?_, ?_⟩
    · exact (sendErrorResponse_continues u code).headersComplete.trans hu.complete
    · intro _
      exact Or.inr (by rw [sendErrorResponse_eq])

theorem processWebTransport_requestHeaders (b : Backend) (s : QuitServerStream) :
    (s.processWebTransport b).requestHeaders = s.requestHeaders ∧
      (s.processWebTransport b).headersComplete = s.headersComplete := by
  unfold processWebTransport
  generalize b.processWebTransportRequest s.requestHeaders s.id = response
  dsimp only
  split
  · cases response.visitor with
    | none => simp only [headersReceived, writeHeaders, emit, and_self]
    | some visitor => simp only [headersReceived, setVisitor, writeHeaders, emit, and_self]
  · simp only [writeHeaders, emit, and_self]

theorem answerConnect_sound (fin : Bool) (hs : Sound s) :
    Sound (s.answerConnect q (some b.quiet) fin) := by
  cases hcomplete : s.headersComplete with
  | false =>
    rw [answerConnect_blank fin (hs.blank hcomplete)]
    exact hs
  | true =>
    unfold answerConnect
    dsimp only
    split_ifs with hasked hweb
    · simp only [Bool.and_eq_true] at hasked
      obtain ⟨hheaders, hkept⟩ := processWebTransport_requestHeaders b.quiet s
      refine ⟨fun hnot => ?_, fun _ => Or.inl ((isConnectRequest_congr hheaders).trans hasked.2)⟩
      rw [hkept, hcomplete] at hnot
      cases hnot
    · refine sound_of_continues (callBackend_continues q b.quiet _ s) hs fun hnot => ?_
      rw [hcomplete] at hnot
      cases hnot
    · exact hs

theorem answerConnect_parts (fin : Bool) :
    Parts q s (s.answerConnect q (some b.quiet) fin) (Misses q b s (.answerConnect fin)) := by
  unfold answerConnect Misses
  dsimp only
  split_ifs with hasked hweb
  · simp only [Bool.and_eq_true, Bool.not_eq_true'] at hasked
    refine (processWebTransport_counts b.quiet).parts_unset.congr ?_
    rw [hasked.1.1, hasked.1.2, hasked.2, hweb]
    simp only [true_and]
    exact Iff.rfl
  · exact (callBackend_counts b _).quiet.parts fun h => hweb h.2.2.2.1
  · refine (Counts.refl q s).quiet.parts fun h => hasked ?_
    simp [h.1, h.2.1, h.2.2.1]

theorem operate_sound (o : Operation) (hs : Sound s) : Sound (operate q b s o) := by
  have hstep : ∀ e, (∀ h, e ≠ .initialHeaders h) → Sound (step q b.quiet s e) := fun e he =>
    sound_of_continues (step_continues q b.quiet hs.connect he) hs
      fun hcomplete => (hs.blank hcomplete).step q b.quiet he
  cases o with
  | readHeaders h =>
    unfold operate
    dsimp only
    split
    · exact hs
    · rename_i hcomplete
      have hreads := readHeaders_reads (q := q) (b := b) h (hs.blank (by simpa using hcomplete))
      refine ⟨fun hnot => ?_, hreads.connect⟩
      rw [hreads.complete] at hnot
      cases hnot
  | answerConnect fin => exact answerConnect_sound fin hs
  | bodyAvailable d => exact hstep (.bodyAvailable d) nofun
  | handlerCall call => exact hstep (.handlerCall call) nofun
  | alarm => exact hstep .alarm nofun
  | canWrite => exact hstep .canWrite nofun
  | writeSideClosed => exact hstep .writeSideClosed nofun

theorem operate_parts (o : Operation) (hs : Sound s) :
    Parts q s (operate q b s o) (Misses q b s o) := by
  cases o with
  | readHeaders h =>
    unfold operate
    dsimp only
    split
    · exact (Counts.refl q s).quiet.parts id
    · rename_i hcomplete
      exact (readHeaders_reads h (hs.blank (by simpa using hcomplete))).flags.parts id
  | answerConnect fin => exact answerConnect_parts fin
  | bodyAvailable d =>
    simp only [operate, step]
    split
    · exact (offerBody_flags b d hs.connect).parts id
    · exact (Counts.refl q s).quiet.parts id
  | handlerCall call =>
    simp only [operate, step]
    split
    · next hasked =>
      refine (handle_parts call).congr ?_
      cases call with
      | onResponseBackendComplete response => cases response <;> simp [Misses, hasked]
      | sendStreamData data closeStream => simp [Misses]
      | terminateStreamWithError error => simp [Misses]
    · next hasked =>
      refine (Counts.refl q s).quiet.parts ?_
      unfold Misses
      split
      · cases ‹Operation.handlerCall call = Operation.answerConnect _›
      · exact fun h => hasked h.1
      · cases ‹Operation.handlerCall call = Operation.alarm›
      · exact id
  | alarm => exact onAlarm_parts
  | canWrite =>
    have hnotified : Counts q s (s.emit .onCanWrite) false 0 :=
      counts_of_trace [.onCanWrite] rfl rfl rfl
    exact (hnotified.trans writeGeneratedBytes_counts).quiet.parts id
  | writeSideClosed =>
    have hclosed : Counts q s { s with writeSideClosed := true } false 0 :=
      counts_of_fields rfl rfl
    exact hclosed.quiet.parts id

end Operations

theorem new_sound (id : StreamId) : Sound (.new id) :=
  ⟨fun _ => new_blank id, fun h => absurd h Bool.false_ne_true⟩

theorem new_flagMeans (q : Platform) (id : StreamId) : FlagMeans q (.new id) :=
  iff_of_false Bool.false_ne_true (lt_irrefl 0)

/-- The flag keeps its meaning exactly in the runs in which nothing misses it while it is unset. -/
theorem flag_means_iff (q : Platform) (b : Backend) (id : StreamId) (events : List Event) :
    FlagKept q b id events ↔
      Each (operate q b) (Marks q b) (.new id) (operationsOf q b (.new id) events) := by
  have hstep : ∀ s o, FlagMeans q s ∧ Sound s →
      (FlagMeans q (operate q b s o) ↔ Marks q b s o) :=
    fun s o hs => hs.1.iff_of_parts (operate_parts o hs.2)
  have hiff : Always (operate q b) (FlagMeans q) (.new id) (operationsOf q b (.new id) events) ↔
      Each (operate q b) (Marks q b) (.new id) (operationsOf q b (.new id) events) :=
    always_iff_each (A := fun _ _ => True) (fun s hs => hs.1)
      (fun s o hs _ hmarks => ⟨(hstep s o hs).mpr hmarks, operate_sound o hs.2⟩)
      (fun s o hs _ hmarks hmeans => hmarks ((hstep s o hs).mp hmeans))
      ⟨new_flagMeans q id, new_sound id⟩ (each_of_labels (Q := fun _ => True) _ fun _ _ => trivial)
  rw [← hiff]
  exact ⟨FlagKept.afterOperations, fun h => ⟨always_operationsOf h, h⟩⟩

def sessionHeaders : InitialHeaders where
  fin := false
  receivedValid := true
  copiedValid := true
  contentLength := -1
  requestHeaders := (Http2HeaderBlock.set ∅ ":method" "CONNECT").set ":path" "/"
  webTransport := true
  bodyAvailable := none
  webTransport_connect _ _ := rfl

def indexHeaders : InitialHeaders where
  fin := true
  receivedValid := true
  copiedValid := true
  contentLength := -1
  requestHeaders := ((Http2HeaderBlock.set ∅ ":method" "GET").set ":authority" "host").set ":path" "/"
  webTransport := false
  bodyAvailable := some ⟨[], true⟩
  webTransport_connect h := absurd h Bool.false_ne_true

def continueResponse : QuicBackendResponse :=
  { QuicBackendResponse.new with headers := Http2HeaderBlock.set ∅ ":status" "100" }

theorem flag_wrong :
    ¬ FlagKept plainPlatform silentBackend 0 [.initialHeaders sessionHeaders] ∧
      ¬ FlagKept plainPlatform silentBackend 0 [.initialHeaders indexHeaders,
        .handlerCall (.onResponseBackendComplete (some continueResponse))] := by
  refine ⟨fun h => ?_, fun h => ?_⟩
  · have hsent : (run plainPlatform silentBackend 0 [.initialHeaders sessionHeaders]).responseSent =
        false := rfl
    have hmeans : FlagMeans plainPlatform (run plainPlatform silentBackend 0
        [.initialHeaders sessionHeaders]) := h.afterEvents.last
    have hone : ∀ block, plainPlatform.parseHeaderStatusCode block ≠ some 100 →
        0 < finalHeaders plainPlatform [.processWebTransportRequest sessionHeaders.requestHeaders
          ⟨block, none⟩, .writeHeaders .response block true] := by
      intro block hfinal
      simp [finalHeaders, isFinalHeaders, hfinal]
    have htrace : (run plainPlatform silentBackend 0 [.initialHeaders sessionHeaders]).trace =
        [.processWebTransportRequest sessionHeaders.requestHeaders
            ⟨Http2HeaderBlock.set ∅ ":status" "404", none⟩,
          .writeHeaders .response (Http2HeaderBlock.set ∅ ":status" "404") true] := rfl
    have hfinal : plainPlatform.parseHeaderStatusCode (Http2HeaderBlock.set ∅ ":status" "404") ≠
        some 100 := fun hcode => absurd (plainPlatform.parse_status _ _ hcode) (by decide)
    rw [FlagMeans, hsent, htrace] at hmeans
    exact Bool.false_ne_true (hmeans.mpr (hone _ hfinal))
  · have hsent : (run plainPlatform silentBackend 0 [.initialHeaders indexHeaders,
        .handlerCall (.onResponseBackendComplete (some continueResponse))]).responseSent = true :=
      rfl
    have hmeans : FlagMeans plainPlatform (run plainPlatform silentBackend 0
        [.initialHeaders indexHeaders,
          .handlerCall (.onResponseBackendComplete (some continueResponse))]) := h.afterEvents.last
    have hfinals : finalHeaders plainPlatform (run plainPlatform silentBackend 0
        [.initialHeaders indexHeaders,
          .handlerCall (.onResponseBackendComplete (some continueResponse))]).trace = 0 := by
      decide +kernel
    exact absurd (hmeans.mp hsent) (by omega)

end QuailServer.ResponseFlag
