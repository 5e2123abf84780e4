import QuailServer.BodyDelivery

set_option autoImplicit false

namespace QuailServer.RequestBody
open HeaderBlock WebTransport ServerStream QuitServerStream

structure PlainRequest (h : InitialHeaders) : Prop where
  valid : h.Valid
  method : h.requestHeaders.find ":method" ≠ some "CONNECT"

/-- What a request must offer to be fetched. -/
structure Acceptable (h : InitialHeaders) (body : Str) : Prop where
  authority : h.requestHeaders.find ":authority" ≠ none
  path : h.requestHeaders.find ":path" ≠ none
  length : h.contentLength < 0 ∨ h.contentLength = body.length

def errorFrames : List Effect :=
  [.writeHeaders .response (errorBlock 0) false, .writeOrBufferBody kErrorResponseBody true]

theorem frames_output_append (t out : List Effect) (hout : frames out = []) :
    frames (t ++ out) = frames t := by rw [frames_append, hout, List.append_nil]

theorem sendErrorResponse_frames (s : QuitServerStream) :
    frames (s.sendErrorResponse 0).trace = frames s.trace ++ errorFrames := by
  rw [sendErrorResponse_eq]
  dsimp only
  rw [frames_append, frames_append]
  have hstop : frames (if s.readingStopped then [] else [.stopReading]) = [] := by
    split <;> rfl
  rw [hstop, List.append_nil]
  rfl

theorem PlainRequest.plain {h : InitialHeaders} (hh : PlainRequest h) : h.webTransport = false := by
  cases hw : h.webTransport with
  | false => rfl
  | true => exact absurd (h.webTransport_connect hw hh.valid.2) hh.method

structure Requested (s : QuitServerStream) (h : InitialHeaders) : Prop where
  complete : s.headersComplete = true
  requestHeaders : s.requestHeaders = h.requestHeaders
  contentLength : s.contentLength = h.contentLength
  plain : s.webTransport = none

theorem Requested.responds {s u : QuitServerStream} {h : InitialHeaders} (hs : Requested s h)
    (hr : Responds s u) : Requested u h :=
  ⟨hr.headersComplete.trans hs.complete, hr.requestHeaders.trans hs.requestHeaders,
    hr.contentLength.trans hs.contentLength, hr.webTransport.trans hs.plain⟩

theorem Requested.not_connect {s : QuitServerStream} {h : InitialHeaders} (hs : Requested s h)
    (hh : PlainRequest h) : s.isConnectRequest = false := by
  unfold isConnectRequest
  rw [hs.requestHeaders]
  exact decide_eq_false hh.method

structure Idle (s : QuitServerStream) : Prop where
  calls : backendCalls s.trace = []
  alarm : s.delayedResponseAlarm = none
  generated : s.generateBytesLength = 0

structure Reading (s : QuitServerStream) (i : Intake) : Prop extends Idle s where
  body : s.body = i.body
  fits : s.BodyFits
  incomplete : i.complete = false
  reading : s.readingStopped = false
  closed : s.readSideClosed = false
  ended : s.writeEnded = false
  silent : frames s.trace = []

structure Rejected (s : QuitServerStream) (h : InitialHeaders) (i : Intake) : Prop extends Idle s where
  stopped : s.readingStopped = true
  frames : frames s.trace = errorFrames
  reason : h.Overlong i.body ∨ i.complete = true ∧ ¬ Acceptable h i.body

structure Fetched (s : QuitServerStream) (h : InitialHeaders) (i : Intake) : Prop where
  closed : s.readSideClosed = true
  complete : i.complete = true
  calls : backendCalls s.trace = [.fetchResponseFromBackend h.requestHeaders i.body]
  acceptable : Acceptable h i.body

structure BodyRun (s : QuitServerStream) (h : InitialHeaders) (i : Intake) : Prop where
  requested : Requested s h
  started : i.started = true
  phase : Reading s i ∨ Rejected s h i ∨ Fetched s h i

/-- Together with the check in the reading loop, the checks are those for an acceptable request. -/
theorem checked_iff {s : QuitServerStream} {h : InitialHeaders} {body : Str} (hs : Requested s h)
    (hbody : s.body = body) (hfits : s.BodyFits) : Checked s ↔ Acceptable h body := by
  have hbound : 0 ≤ s.contentLength → (s.body.length : ℤ) ≤ s.contentLength := hfits
  rw [← hbody]
  constructor
  · rintro ⟨hauthority, hpath, hlength⟩
    rw [hs.requestHeaders] at hauthority hpath
    rw [hs.contentLength] at hlength hbound
    exact ⟨hauthority, hpath, by omega⟩
  · rintro ⟨hauthority, hpath, hlength⟩
    rw [← hs.requestHeaders] at hauthority hpath
    rw [← hs.contentLength] at hlength
    exact ⟨hauthority, hpath, by omega⟩

theorem Idle.of_fields {s u : QuitServerStream} (hs : Idle s) (out : List Effect)
    (htrace : u.trace = s.trace ++ out) (hcalls : backendCalls out = [])
    (halarm : u.delayedResponseAlarm = s.delayedResponseAlarm)
    (hgenerated : u.generateBytesLength = s.generateBytesLength) : Idle u :=
  ⟨by rw [htrace, backendCalls_append, hs.calls, hcalls]; rfl, halarm.trans hs.alarm,
    hgenerated.trans hs.generated⟩

theorem rejected_of_idle {s : QuitServerStream} {h : InitialHeaders} {i : Intake} (hs : Idle s)
    (hsilent : frames s.trace = [])
    (hreason : h.Overlong i.body ∨ i.complete = true ∧ ¬ Acceptable h i.body) :
    Rejected (s.sendErrorResponse 0) h i := by
  have hw := sendErrorResponse_writes s 0
  refine ⟨⟨hw.backendCalls.trans hs.calls, hw.alarm.trans hs.alarm, ?_⟩, ?_, ?_, hreason⟩
  · rw [sendErrorResponse_eq]
    exact hs.generated
  · rw [sendErrorResponse_eq]
  · rw [sendErrorResponse_frames, hsilent, List.nil_append]

theorem Reading.finish {s : QuitServerStream} {h : InitialHeaders} {i : Intake} (hs : Reading s i)
    (hreq : Requested s h) (hh : PlainRequest h) {d : Delivery} (hfits : (s.withBody d).BodyFits)
    (hfin : d.fin = true) (q : Platform) (b : Backend) :
    let u := (s.withBody d).onFinRead.sendResponse q (some b)
    Requested u h ∧ (Rejected u h (i.offer d) ∨ Fetched u h (i.offer d)) := by
  have hintake := Intake.offer_open hs.incomplete d
  have hbody : (s.withBody d).onFinRead.body = (i.offer d).body := by
    rw [hintake]
    exact congrArg (· ++ d.bytes) hs.body
  have hdone : (i.offer d).complete = true := by rw [hintake, hfin]
  have hw : Requested (s.withBody d).onFinRead h :=
    ⟨hreq.complete, hreq.requestHeaders, hreq.contentLength, hreq.plain⟩
  have hclosed : (s.withBody d).onFinRead.checking.readSideClosed = true := rfl
  have htrace : (s.withBody d).onFinRead.checking.trace =
      s.trace ++ [.onBodyAvailable d, .sendResponse, .dcheck true] := by
    simp [withBody, onFinRead, checking, emit]
  have hidle : Idle (s.withBody d).onFinRead.checking := hs.toIdle.of_fields _ htrace rfl rfl rfl
  have hsilent : frames (s.withBody d).onFinRead.checking.trace = [] := by
    rw [htrace, frames_output_append _ _ rfl, hs.silent]
  have hiff : Checked (s.withBody d).onFinRead ↔ Acceptable h (i.offer d).body :=
    checked_iff hw hbody hfits
  generalize (s.withBody d).onFinRead = w at hbody hw hclosed hidle hsilent hiff ⊢
  have hcheck : Requested w.checking h :=
    ⟨hw.complete, hw.requestHeaders, hw.contentLength, hw.plain⟩
  dsimp only
  by_cases hchecked : Checked w
  · rw [sendResponse_of_checked q b (hw.not_connect hh) hw.plain hchecked]
    have hr := callBackend_responds q b (.fetchResponseFromBackend w.requestHeaders w.body)
      w.checking
    have hasked : Requested (w.checking.emit
        (.backendCall (.fetchResponseFromBackend w.requestHeaders w.body))) h :=
      ⟨hw.complete, hw.requestHeaders, hw.contentLength, hw.plain⟩
    refine ⟨hasked.responds hr, Or.inr ⟨hr.readSideClosed hclosed, hdone, ?_, hiff.mp hchecked⟩⟩
    rw [callBackend_backendCalls, hidle.calls, hw.requestHeaders, hbody]
    rfl
  · rw [sendResponse_of_unchecked q b (hw.not_connect hh) hw.plain hchecked]
    exact ⟨hcheck.responds (sendErrorResponse_writes _ 0).toResponds,
      Or.inl (rejected_of_idle hidle hsilent
        (Or.inr ⟨hdone, fun ha => hchecked (hiff.mpr ha)⟩))⟩

theorem Reading.offerBody {s : QuitServerStream} {h : InitialHeaders} {i : Intake}
    (hs : Reading s i) (hreq : Requested s h) (hh : PlainRequest h) (hstarted : i.started = true)
    (q : Platform) (b : Backend) (d : Delivery) :
    BodyRun (s.offerBody q (some b) d) h (i.offer d) := by
  have hoffer : s.offerBody q (some b) d = s.onBodyAvailable q (some b) d :=
    if_neg (by simp [hs.reading, hs.closed])
  have hintake := Intake.offer_open hs.incomplete d
  have hbody : s.body ++ d.bytes = (i.offer d).body := by rw [hintake, hs.body]
  have hstart := (Intake.offer_started i d).trans hstarted
  rw [hoffer]
  rcases onBodyAvailable_cases q (some b) s d with ⟨htakes, hfits⟩ | ⟨hover, body, heq⟩
  · rw [onBodyAvailable_request q (some b) (hreq.not_connect hh) htakes, hs.ended]
    cases hfin : d.fin with
    | false =>
      rw [if_neg Bool.false_ne_true]
      have hidle : Idle (s.withBody d) :=
        hs.toIdle.of_fields [.onBodyAvailable d] rfl rfl rfl rfl
      refine ⟨⟨hreq.complete, hreq.requestHeaders, hreq.contentLength, hreq.plain⟩, hstart,
        Or.inl ⟨hidle, hbody, hfits hs.fits, by rw [hintake, hfin], hs.reading, hs.closed, hs.ended,
          ?_⟩⟩
      exact (frames_output_append s.trace [.onBodyAvailable d] rfl).trans hs.silent
    | true =>
      rw [if_pos rfl, if_neg Bool.false_ne_true]
      obtain ⟨hrequested, hphase⟩ := hs.finish hreq hh (hfits hs.fits) hfin q b
      exact ⟨hrequested, hstart, Or.inr hphase⟩
  · rw [heq]
    have hidle : Idle { s.emit (.onBodyAvailable d) with body := body } :=
      hs.toIdle.of_fields [.onBodyAvailable d] rfl rfl rfl rfl
    have hlong : h.Overlong (i.offer d).body := by
      rw [← hbody]
      exact ⟨hreq.contentLength ▸ hover.1, hreq.contentLength ▸ hover.2⟩
    have hw : Requested { s.emit (.onBodyAvailable d) with body := body } h :=
      ⟨hreq.complete, hreq.requestHeaders, hreq.contentLength, hreq.plain⟩
    have hsilent := (frames_output_append s.trace [.onBodyAvailable d] rfl).trans hs.silent
    exact ⟨hw.responds (sendErrorResponse_writes _ 0).toResponds, hstart,
      Or.inr (Or.inl (rejected_of_idle hidle hsilent (Or.inl hlong)))⟩

theorem Rejected.offer {s : QuitServerStream} {h : InitialHeaders} {i : Intake}
    (hs : Rejected s h i) (d : Delivery) : Rejected s h (i.offer d) := by
  refine ⟨hs.toIdle, hs.stopped, hs.frames, ?_⟩
  cases hi : i.complete with
  | true =>
    rw [Intake.offer_complete hi]
    exact hs.reason
  | false =>
    rcases hs.reason with hlong | ⟨hdone, -⟩
    · refine Or.inl ⟨hlong.1, ?_⟩
      rw [Intake.offer_open hi]
      have hlt := hlong.2
      simp only [List.length_append]
      omega
    · rw [hi] at hdone
      cases hdone

theorem BodyRun.offerBody {s : QuitServerStream} {h : InitialHeaders} {i : Intake}
    (hs : BodyRun s h i) (hh : PlainRequest h) (q : Platform) (b : Backend) (d : Delivery) :
    BodyRun (s.offerBody q (some b) d) h (i.offer d) := by
  have hstart := (Intake.offer_started i d).trans hs.started
  rcases hs.phase with hreading | hrejected | hfetched
  · exact hreading.offerBody hs.requested hh hs.started q b d
  · have hsame : s.offerBody q (some b) d = s := if_pos (by simp [hrejected.stopped])
    rw [hsame]
    exact ⟨hs.requested, hstart, Or.inr (Or.inl (hrejected.offer d))⟩
  · have hsame : s.offerBody q (some b) d = s := if_pos (by simp [hfetched.closed])
    rw [hsame, Intake.offer_complete hfetched.complete]
    exact hs

theorem Fetched.responds {s u : QuitServerStream} {h : InitialHeaders} {i : Intake}
    (hs : Fetched s h i) (hr : Responds s u) : Fetched u h i :=
  ⟨hr.readSideClosed hs.closed, hs.complete, hr.backendCalls.trans hs.calls, hs.acceptable⟩

theorem bodyRun_step (q : Platform) (b : Backend) {s : QuitServerStream} {h : InitialHeaders}
    {i : Intake} (hh : PlainRequest h) {e : Event} (he : e ≠ .writeSideClosed) (hs : BodyRun s h i) :
    BodyRun (step q b s e) h (i.step e) := by
  have hidle : Reading s i ∨ Rejected s h i → Idle s := fun hp =>
    hp.elim (fun hr => hr.toIdle) fun hr => hr.toIdle
  have hfetched : ∀ u, Responds s u → Fetched s h i → BodyRun u h i := fun u hr hf =>
    ⟨hs.requested.responds hr, hs.started, Or.inr (Or.inr (hf.responds hr))⟩
  cases e with
  | initialHeaders headers =>
    have hintake : i.step (.initialHeaders headers) = i := if_pos hs.started
    simp only [step, hs.requested.complete, if_true, hintake]
    exact hs
  | bodyAvailable d =>
    have hintake : i.step (.bodyAvailable d) = i.offer d := if_pos hs.started
    simp only [step, hs.requested.complete, if_true, hintake]
    exact hs.offerBody hh q b d
  | handlerCall c =>
    change BodyRun (if _ then _ else _) h i
    rcases or_assoc.mpr hs.phase with hwaiting | hf
    · rw [any_isBackendCall.mpr (hidle hwaiting).calls, if_neg Bool.false_ne_true]
      exact hs
    · split
      · exact hfetched _ (handle_responds q c s) hf
      · exact hs
  | alarm =>
    rcases or_assoc.mpr hs.phase with hwaiting | hf
    · have hsame : step q b s .alarm = s := by simp [step, onAlarm, (hidle hwaiting).alarm]
      rw [hsame]
      exact hs
    · exact hfetched _ (onAlarm_responds q s) hf
  | canWrite =>
    rcases or_assoc.mpr hs.phase with hwaiting | hf
    · have hsame : step q b s .canWrite = s.emit .onCanWrite :=
        writeGeneratedBytes_idle q (hidle hwaiting).generated
      have hstill := (hidle hwaiting).of_fields (u := s.emit .onCanWrite) [.onCanWrite] rfl rfl rfl rfl
      have hframes : frames (s.emit .onCanWrite).trace = frames s.trace :=
        frames_output_append s.trace [.onCanWrite] rfl
      rw [hsame]
      refine ⟨⟨hs.requested.complete, hs.requested.requestHeaders, hs.requested.contentLength,
        hs.requested.plain⟩, hs.started, ?_⟩
      rcases hwaiting with hr | hr
      · exact Or.inl ⟨hstill, hr.body, hr.fits, hr.incomplete, hr.reading, hr.closed, hr.ended,
          hframes.trans hr.silent⟩
      · exact Or.inr (Or.inl ⟨hstill, hr.stopped, hframes.trans hr.frames, hr.reason⟩)
    · have hw := (writeGeneratedBytes_writes q (s.emit .onCanWrite)).toResponds
      have hasked : Fetched (s.emit .onCanWrite) h i := by
        refine ⟨hf.closed, hf.complete, ?_, hf.acceptable⟩
        change backendCalls (s.trace ++ [.onCanWrite]) = _
        rw [backendCalls_append, hf.calls]
        rfl
      have hreq : Requested (s.emit .onCanWrite) h :=
        ⟨hs.requested.complete, hs.requested.requestHeaders, hs.requested.contentLength,
          hs.requested.plain⟩
      exact ⟨hreq.responds hw, hs.started, Or.inr (Or.inr (hasked.responds hw))⟩
  | writeSideClosed => exact absurd rfl he

theorem headers_bodyRun (q : Platform) (b : Backend) {s : QuitServerStream} {h : InitialHeaders}
    (hs : Blank s) (hopen : s.writeSideClosed = false) (hh : PlainRequest h) :
    BodyRun (s.onInitialHeadersComplete q (some b) h) h (Intake.new.step (.initialHeaders h)) := by
  have hreq : Requested (s.opened h) h := ⟨rfl, rfl, rfl, if_neg (by simp [hh.plain])⟩
  have hreading : Reading (s.opened h) { Intake.new with started := true } := by
    refine ⟨⟨hs.backendCalls, hs.alarm, hs.idle⟩, hs.body, ?_, rfl, hs.readingStopped,
      hs.readSideClosed, ?_, hs.frames⟩
    · intro h0
      simpa [opened, hs.body] using h0
    · simp [writeEnded, opened, hopen, hs.finBuffered]
  have hconsumed : BodyRun ((s.opened h).consumeHeaderList q (some b) h.bodyAvailable) h
      (Intake.new.step (.initialHeaders h)) := by
    rw [Intake.step_headers_new]
    unfold consumeHeaderList
    cases h.bodyAvailable with
    | none => exact ⟨hreq, rfl, Or.inl hreading⟩
    | some d => exact hreading.offerBody hreq hh rfl q b d
  rw [onInitialHeadersComplete_valid q (some b) hs hh.valid]
  unfold answerConnect
  rw [if_neg (by simp [hconsumed.requested.not_connect hh])]
  exact hconsumed

theorem blank_open (q : Platform) (b : Backend) (id : StreamId) {before : List Event}
    (hbefore : ∀ h, .initialHeaders h ∉ before) (hopen : .writeSideClosed ∉ before) :
    (run q b id before).writeSideClosed = false := by
  refine (StepMachine.after_of_labels (I := fun s => Blank s ∧ s.writeSideClosed = false)
    (P := fun e => (∀ h, e ≠ Event.initialHeaders h) ∧ e ≠ .writeSideClosed) ?_
    ⟨new_blank id, rfl⟩ ?_).2
  · rintro s e ⟨hheaders, hclosed⟩ ⟨hs, hw⟩
    refine ⟨hs.step q b hheaders, ?_⟩
    cases e with
    | initialHeaders h => exact absurd rfl (hheaders h)
    | bodyAvailable d => simpa only [step, hs.headersComplete, Bool.false_eq_true, if_false]
    | handlerCall c =>
      simpa only [step, hs.trace_any (p := Effect.isBackendCall) rfl, Bool.false_eq_true, if_false]
    | alarm => simpa only [step, onAlarm, hs.alarm]
    | canWrite =>
      have hsame : step q b s .canWrite = s.emit .onCanWrite := writeGeneratedBytes_idle q hs.idle
      rw [hsame]
      exact hw
    | writeSideClosed => exact absurd rfl hclosed
  · intro e he
    exact ⟨fun h heq => hbefore h (heq ▸ he), fun heq => hopen (heq ▸ he)⟩

theorem bodyRun_run (q : Platform) (b : Backend) (id : StreamId) (before : List Event)
    (h : InitialHeaders) (later : List Event) (hbefore : ∀ h', .initialHeaders h' ∉ before)
    (hh : PlainRequest h) (hopen : .writeSideClosed ∉ before ++ .initialHeaders h :: later) :
    BodyRun (run q b id (before ++ .initialHeaders h :: later)) h
      (intake (before ++ .initialHeaders h :: later)) := by
  simp only [List.mem_append, List.mem_cons, not_or] at hopen
  obtain ⟨hopenBefore, -, hopenLater⟩ := hopen
  rw [run_headers q b id h hbefore later, intake_headers h hbefore later]
  have hinit := headers_bodyRun q b (blank_run q b id hbefore)
    (blank_open q b id hbefore hopenBefore) hh
  refine StepMachine.simulation_after (R := fun s i => BodyRun s h i)
    (P := fun e => e ≠ Event.writeSideClosed) ?_ hinit ?_
  · intro s i e he hs
    exact bodyRun_step q b hh he hs
  · intro e he heq
    exact hopenLater (heq ▸ he)

theorem fetches_of_calls {trace : List Effect} (h : backendCalls trace = []) :
    fetches trace = [] := by
  unfold fetches
  rw [h]
  rfl

theorem Acceptable.not_overlong {h : InitialHeaders} {body : Str} (ha : Acceptable h body) :
    ¬ h.Overlong body := by
  rintro ⟨h0, hlt⟩
  have hlength := ha.length
  omega

theorem Fetched.fetches {s : QuitServerStream} {h : InitialHeaders} {i : Intake}
    (hs : Fetched s h i) : fetches s.trace = [(h.requestHeaders, i.body)] := by
  unfold ServerStream.fetches
  rw [hs.calls]
  rfl

/-- A request body reaches the backend at most once, whole and after the FIN, and it does so if
    and only if the request is acceptable. Any other one is answered with the 500 response, a body
    that is too long as soon as it is. -/
theorem request_body (q : Platform) (b : Backend) (id : StreamId) (before : List Event)
    (h : InitialHeaders) (later : List Event) (hbefore : ∀ h', .initialHeaders h' ∉ before)
    (hh : PlainRequest h) (hopen : .writeSideClosed ∉ before ++ .initialHeaders h :: later) :
    let trace := (run q b id (before ++ .initialHeaders h :: later)).trace
    let i := intake (before ++ .initialHeaders h :: later)
    (fetches trace = [] ∨ i.complete = true ∧ fetches trace = [(h.requestHeaders, i.body)]) ∧
      (i.complete = true → (fetches trace ≠ [] ↔ Acceptable h i.body)) ∧
      (h.Overlong i.body ∨ i.complete = true ∧ ¬ Acceptable h i.body →
        fetches trace = [] ∧ frames trace = errorFrames) := by
  have hrun := bodyRun_run q b id before h later hbefore hh hopen
  dsimp only
  rcases hrun.phase with hreading | hrejected | hfetched
  · have hnone := fetches_of_calls hreading.calls
    have hshort : ¬ h.Overlong (intake (before ++ .initialHeaders h :: later)).body := by
      rintro ⟨h0, hlt⟩
      rw [← hrun.requested.contentLength] at h0 hlt
      rw [← hreading.body] at hlt
      exact absurd hlt (Int.not_lt.mpr (hreading.fits h0))
    have hopen := hreading.incomplete
    refine ⟨Or.inl hnone, fun hdone => ?_, fun hreason => ?_⟩
    · rw [hopen] at hdone
      cases hdone
    · rcases hreason with hlong | ⟨hdone, -⟩
      · exact absurd hlong hshort
      · rw [hopen] at hdone
        cases hdone
  · have hnone := fetches_of_calls hrejected.calls
    refine ⟨Or.inl hnone, fun hdone => ?_, fun _ => ⟨hnone, hrejected.frames⟩⟩
    refine iff_of_false (fun hne => hne hnone) fun ha => ?_
    rcases hrejected.reason with hlong | ⟨-, hnot⟩
    · exact ha.not_overlong hlong
    · exact hnot ha
  · have hone := hfetched.fetches
    refine ⟨Or.inr ⟨hfetched.complete, hone⟩, fun _ => ?_, fun hreason => ?_⟩
    · exact iff_of_true (by simp [hone]) hfetched.acceptable
    · rcases hreason with hlong | ⟨-, hnot⟩
      · exact absurd hlong hfetched.acceptable.not_overlong
      · exact absurd hfetched.acceptable hnot

def postHeaders : InitialHeaders where
  fin := false
  receivedValid := true
  copiedValid := true
  contentLength := 2
  requestHeaders := ((Http2HeaderBlock.set ∅ ":method" "POST").set ":authority" "host").set ":path" "/"
  webTransport := false
  bodyAvailable := none
  webTransport_connect h := absurd h Bool.false_ne_true

theorem request_body_post :
    let events := [] ++ .initialHeaders postHeaders ::
      [.bodyAvailable ⟨["a"], false⟩, .bodyAvailable ⟨["b", ""], true⟩]
    fetches (run plainPlatform silentBackend 0 events).trace =
      [(postHeaders.requestHeaders, (intake events).body)] := by
  have hpost : PlainRequest postHeaders := ⟨⟨rfl, rfl⟩, by decide⟩
  obtain ⟨hone, hiff, -⟩ := request_body plainPlatform silentBackend 0 [] postHeaders
    [.bodyAvailable ⟨["a"], false⟩, .bodyAvailable ⟨["b", ""], true⟩] (by simp) hpost (by simp)
  have haccept : Acceptable postHeaders (intake ([] ++ .initialHeaders postHeaders ::
      [.bodyAvailable ⟨["a"], false⟩, .bodyAvailable ⟨["b", ""], true⟩])).body :=
    ⟨by decide, by decide, Or.inr rfl⟩
  exact (hone.resolve_left ((hiff rfl).mpr haccept)).2

end QuailServer.RequestBody
