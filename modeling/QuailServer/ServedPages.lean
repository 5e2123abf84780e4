import QuailServer.RequestBody
import QuailServer.ResponseFraming
import QuailServer.SavedFiles

set_option autoImplicit false

namespace QuailServer.ServedPages
open HeaderBlock WebTransport ServerStream QuitServerStream ServerBackend QuailServerBackend RequestBody
  ResponseFraming BackendDirectory ResponseStore StoreInvariant SavedFiles

/-- The backend as a stream sees it. What it calls on CONNECT requests is left open. -/
def storeBackend (q : Platform) (others : List Effect → List HandlerCall) (b : QuailServerBackend) :
    Backend where
  react trace :=
    match trace.getLast? with
    | some (.backendCall (.fetchResponseFromBackend headers body)) =>
      (b.fetchResponseFromBackend q headers body).toList
    | _ => others trace
  processWebTransportRequest headers session := b.processWebTransportRequest q headers session

theorem storeBackend_fetch (q : Platform) (others : List Effect → List HandlerCall)
    (b : QuailServerBackend) {trace : List Effect} {headers : Http2HeaderBlock} {body : Str}
    (last : trace.getLast? = some (.backendCall (.fetchResponseFromBackend headers body))) :
    (storeBackend q others b).react trace = (b.fetchResponseFromBackend q headers body).toList := by
  unfold storeBackend
  dsimp only
  rw [last]

/-- The entry that `GetResponse` finds for every request, if there is one. -/
def page (b : QuailServerBackend) : Option QuicBackendResponse := b.responses.lookup indexKey

structure Loaded (b : QuailServerBackend) : Prop where
  generateBytes : b.generateBytesResponse = none
  default : b.defaultResponse = none
  plain : ∀ r, page b = some r →
    r.responseType = .regularResponse ∧ r.delay = 0 ∧ r.earlyHints = []

theorem fetch_page (q : Platform) {b : QuailServerBackend} (hb : Loaded b)
    {headers : Http2HeaderBlock} (body : Str) (authority : headers.find ":authority" ≠ none)
    (path : headers.find ":path" ≠ none) :
    b.fetchResponseFromBackend q headers body = some (.onResponseBackendComplete (page b)) := by
  obtain ⟨host, hhost⟩ := Option.ne_none_iff_exists'.mp authority
  obtain ⟨name, hname⟩ := Option.ne_none_iff_exists'.mp path
  unfold fetchResponseFromBackend
  rw [hhost, hname]
  dsimp only
  unfold getResponse page
  by_cases hstored : indexKey ∈ b.responses
  · rw [if_pos hstored]
    rfl
  · rw [if_neg hstored, Finmap.lookup_eq_none.mpr hstored]
    unfold missing
    simp only [hb.generateBytes, hb.default, Option.isSome_none, Bool.false_eq_true, if_false]
    rfl

/-- The request was answered with the page, or with the 404 response for want of one, and nothing
    more is to come. -/
structure Served (q : Platform) (final : Option QuicBackendResponse) (s : QuitServerStream) :
    Prop where
  alarm : s.delayedResponseAlarm = none
  generated : s.generateBytesLength = 0
  frames : Sends (answer q final) (frames s.trace)

theorem respond_regular (q : Platform) (s : QuitServerStream) {r : QuicBackendResponse}
    (type : r.responseType = .regularResponse) (hints : r.earlyHints = []) :
    s.respond q r = if q.parseHeaderStatusCode r.headers = none then s.sendErrorResponse 0
      else s.sendHeadersAndBodyAndTrailers (some r.headers) r.body r.trailers := by
  unfold respond
  rw [hints]
  simp only [List.foldl_nil, type, reduceCtorEq, if_false]

theorem sendBodyAndTrailers_generated (s : QuitServerStream) (body : Str)
    (trailers : Http2HeaderBlock) :
    (s.sendBodyAndTrailers body trailers).generateBytesLength = s.generateBytesLength := by
  unfold sendBodyAndTrailers
  cases trailers.empty with
  | false => cases body.isEmpty <;> rfl
  | true => simp [writeOrBufferBody, emit]

theorem sendHeadersAndBodyAndTrailers_generated (s : QuitServerStream) (block : Http2HeaderBlock)
    (body : Str) (trailers : Http2HeaderBlock) :
    (s.sendHeadersAndBodyAndTrailers (some block) body trailers).generateBytesLength =
      s.generateBytesLength := by
  unfold sendHeadersAndBodyAndTrailers
  dsimp only
  split
  · rfl
  · exact sendBodyAndTrailers_generated _ body trailers

theorem sendErrorResponse_generated (s : QuitServerStream) (code : ℕ) :
    (s.sendErrorResponse code).generateBytesLength = s.generateBytesLength := by
  rw [sendErrorResponse_eq]

theorem handle_served (q : Platform) {b : QuailServerBackend} (hb : Loaded b) {s : QuitServerStream}
    (alarm : s.delayedResponseAlarm = none) (generated : s.generateBytesLength = 0)
    (silent : ServerStream.frames s.trace = []) :
    Served q (page b) (s.handle q (.onResponseBackendComplete (page b))) := by
  have hsilent := (handlerCall_frames s (.onResponseBackendComplete (page b))).trans silent
  change Served q (page b)
    ((s.emit (.handlerCall (.onResponseBackendComplete (page b)))).onResponseBackendComplete q (page b))
  obtain ⟨w, hw⟩ : ∃ w, s.emit (.handlerCall (.onResponseBackendComplete (page b))) = w := ⟨_, rfl⟩
  have halarm : w.delayedResponseAlarm = none := hw ▸ alarm
  have hgenerated : w.generateBytesLength = 0 := hw ▸ generated
  rw [hw] at hsilent ⊢
  cases hpage : page b with
  | none =>
    obtain ⟨fs, hfs, hsends⟩ := sendHeadersAndBody_sends w
      (statusBlock "404" kNotFoundResponseBody) kNotFoundResponseBody
    rw [hsilent, List.nil_append] at hfs
    refine ⟨?_, ?_, ?_⟩
    · exact (sendHeadersAndBodyAndTrailers_writes w _ _ _).alarm.trans halarm
    · exact (sendHeadersAndBodyAndTrailers_generated w _ _ _).trans hgenerated
    · exact hfs ▸ hsends
  | some r =>
    obtain ⟨htype, hdelay, hhints⟩ := hb.plain r hpage
    have hresponse : w.onResponseBackendComplete q (some r) =
        if q.parseHeaderStatusCode r.headers = none then w.sendErrorResponse 0
        else w.sendHeadersAndBodyAndTrailers (some r.headers) r.body r.trailers := by
      rw [← respond_regular q w htype hhints]
      exact if_pos hdelay
    have hanswer : answer q (some r) =
        if q.parseHeaderStatusCode r.headers = none then ⟨errorBlock 0, kErrorResponseBody, none, false⟩
        else ⟨r.headers, r.body, if r.trailers.empty then none else some r.trailers, false⟩ := by
      simp only [answer, htype, reduceCtorEq, if_false]
    rw [hresponse]
    refine ⟨?_, ?_, ?_⟩
    · split
      · exact (sendErrorResponse_writes w 0).alarm.trans halarm
      · exact (sendHeadersAndBodyAndTrailers_writes w _ _ _).alarm.trans halarm
    · split
      · exact (sendErrorResponse_generated w 0).trans hgenerated
      · exact (sendHeadersAndBodyAndTrailers_generated w _ _ _).trans hgenerated
    · rw [hanswer]
      split
      · obtain ⟨fs, hfs, hsends⟩ := sendErrorResponse_sends w 0
        rw [hsilent, List.nil_append] at hfs
        exact hfs ▸ hsends
      · obtain ⟨fs, hfs, hsends⟩ := sendHeadersAndBodyAndTrailers_sends w r.headers r.body r.trailers
        rw [hsilent, List.nil_append] at hfs
        exact hfs ▸ hsends

theorem fetch_served (q : Platform) (others : List Effect → List HandlerCall) {b : QuailServerBackend}
    (hb : Loaded b) {s : QuitServerStream} {headers : Http2HeaderBlock} (body : Str)
    (authority : headers.find ":authority" ≠ none) (path : headers.find ":path" ≠ none)
    (alarm : s.delayedResponseAlarm = none) (generated : s.generateBytesLength = 0)
    (silent : ServerStream.frames s.trace = []) :
    Served q (page b)
      (s.callBackend q (storeBackend q others b) (.fetchResponseFromBackend headers body)) := by
  have hreact : (storeBackend q others b).react
      (s.emit (.backendCall (.fetchResponseFromBackend headers body))).trace =
        [.onResponseBackendComplete (page b)] := by
    have hlast : (s.emit (.backendCall (.fetchResponseFromBackend headers body))).trace.getLast? =
        some (.backendCall (.fetchResponseFromBackend headers body)) := List.getLast?_concat
    rw [storeBackend_fetch q others b hlast, fetch_page q hb body authority path]
    rfl
  unfold callBackend
  dsimp only
  rw [hreact]
  refine handle_served q hb alarm generated ?_
  exact (frames_output_append s.trace [_] rfl).trans silent

structure PageRun (q : Platform) (b : QuailServerBackend) (s : QuitServerStream)
    (h : InitialHeaders) (i : Intake) : Prop extends BodyRun s h i where
  served : backendCalls s.trace ≠ [] → Served q (page b) s

theorem PageRun.idle_of_calls {q : Platform} {b : QuailServerBackend} {s : QuitServerStream}
    {h : InitialHeaders} {i : Intake} (hs : PageRun q b s h i) :
    s.delayedResponseAlarm = none ∧ s.generateBytesLength = 0 := by
  by_cases hcalls : backendCalls s.trace = []
  · rcases hs.phase with hr | hr | hf
    · exact ⟨hr.alarm, hr.generated⟩
    · exact ⟨hr.alarm, hr.generated⟩
    · rw [hf.calls] at hcalls
      cases hcalls
  · exact ⟨(hs.served hcalls).alarm, (hs.served hcalls).generated⟩

theorem offerBody_served (q : Platform) (others : List Effect → List HandlerCall)
    {b : QuailServerBackend} (hb : Loaded b) {s : QuitServerStream} {h : InitialHeaders} {i : Intake}
    (hs : Reading s i) (hreq : Requested s h) (hh : PlainRequest h) (d : Delivery)
    (hcalls : backendCalls (s.offerBody q (some (storeBackend q others b)) d).trace ≠ []) :
    Served q (page b) (s.offerBody q (some (storeBackend q others b)) d) := by
  have hoffer : s.offerBody q (some (storeBackend q others b)) d =
      s.onBodyAvailable q (some (storeBackend q others b)) d :=
    if_neg (by simp [hs.reading, hs.closed])
  rw [hoffer] at hcalls ⊢
  have hbody : backendCalls (s.trace ++ [.onBodyAvailable d]) = [] := by
    rw [backendCalls_append, hs.calls]
    rfl
  rcases onBodyAvailable_cases q (some (storeBackend q others b)) s d with
    ⟨htakes, -⟩ | ⟨-, body, heq⟩
  · rw [onBodyAvailable_request q _ (hreq.not_connect hh) htakes, hs.ended] at hcalls ⊢
    cases hfin : d.fin with
    | false =>
      rw [hfin, if_neg Bool.false_ne_true] at hcalls
      exact absurd hbody hcalls
    | true =>
      rw [hfin, if_pos rfl, if_neg Bool.false_ne_true] at hcalls
      rw [if_pos rfl, if_neg Bool.false_ne_true]
      have hw : Requested (s.withBody d).onFinRead h :=
        ⟨hreq.complete, hreq.requestHeaders, hreq.contentLength, hreq.plain⟩
      have htrace : (s.withBody d).onFinRead.checking.trace =
          s.trace ++ [.onBodyAvailable d, .sendResponse, .dcheck true] := by
        simp [withBody, onFinRead, checking, emit]
      have hidle : Idle (s.withBody d).onFinRead.checking := hs.toIdle.of_fields _ htrace rfl rfl rfl
      by_cases hchecked : Checked (s.withBody d).onFinRead
      · rw [sendResponse_of_checked q _ (hw.not_connect hh) hw.plain hchecked]
        refine fetch_served q others hb _ hchecked.authority hchecked.path hidle.alarm
          hidle.generated ?_
        rw [htrace, frames_output_append _ _ rfl, hs.silent]
      · rw [sendResponse_of_unchecked q _ (hw.not_connect hh) hw.plain hchecked] at hcalls
        exact absurd ((sendErrorResponse_writes _ 0).backendCalls.trans hidle.calls) hcalls
  · rw [heq] at hcalls
    exact absurd ((sendErrorResponse_writes _ 0).backendCalls.trans hbody) hcalls

theorem Served.canWrite {q : Platform} {final : Option QuicBackendResponse} {s : QuitServerStream}
    (hs : Served q final s) : Served q final (s.onCanWrite q) := by
  have hsame : s.onCanWrite q = s.emit .onCanWrite := writeGeneratedBytes_idle q hs.generated
  rw [hsame]
  refine ⟨hs.alarm, hs.generated, ?_⟩
  have hframes : ServerStream.frames (s.emit .onCanWrite).trace = ServerStream.frames s.trace :=
    frames_output_append s.trace [.onCanWrite] rfl
  exact hframes ▸ hs.frames

/-- The backend has no callback left to make: it answers while it is called. -/
def Answered (e : Event) : Prop := e ≠ .writeSideClosed ∧ ∀ call, e ≠ .handlerCall call

theorem pageRun_step (q : Platform) (others : List Effect → List HandlerCall)
    {b : QuailServerBackend} (hb : Loaded b) {s : QuitServerStream} {h : InitialHeaders} {i : Intake}
    (hh : PlainRequest h) {e : Event} (he : Answered e) (hs : PageRun q b s h i) :
    PageRun q b (step q (storeBackend q others b) s e) h (i.step e) := by
  refine ⟨bodyRun_step q _ hh he.1 hs.toBodyRun, ?_⟩
  cases e with
  | initialHeaders headers =>
    simp only [step, hs.requested.complete, if_true]
    exact hs.served
  | bodyAvailable d =>
    simp only [step, hs.requested.complete, if_true]
    rcases hs.phase with hr | hr | hf
    · exact offerBody_served q others hb hr hs.requested hh d
    · have hsame : s.offerBody q (some (storeBackend q others b)) d = s :=
        if_pos (by simp [hr.stopped])
      rw [hsame]
      exact hs.served
    · have hsame : s.offerBody q (some (storeBackend q others b)) d = s :=
        if_pos (by simp [hf.closed])
      rw [hsame]
      exact hs.served
  | handlerCall c => exact absurd rfl (he.2 c)
  | alarm =>
    have hsame : step q (storeBackend q others b) s .alarm = s := by
      simp [step, onAlarm, hs.idle_of_calls.1]
    rw [hsame]
    exact hs.served
  | canWrite =>
    intro hcalls
    have hsame : s.onCanWrite q = s.emit .onCanWrite := writeGeneratedBytes_idle q hs.idle_of_calls.2
    have hbefore : backendCalls (s.emit .onCanWrite).trace = backendCalls s.trace := by
      change backendCalls (s.trace ++ [.onCanWrite]) = _
      rw [backendCalls_append]
      exact List.append_nil _
    refine (hs.served ?_).canWrite
    rw [← hbefore, ← hsame]
    exact hcalls
  | writeSideClosed => exact absurd rfl he.1

theorem opened_reading {s : QuitServerStream} {h : InitialHeaders} (hs : Blank s)
    (hopen : s.writeSideClosed = false) :
    Reading (s.opened h) { Intake.new with started := true } := by
  refine ⟨⟨hs.backendCalls, hs.alarm, hs.idle⟩, hs.body, ?_, rfl, hs.readingStopped,
    hs.readSideClosed, ?_, hs.frames⟩
  · intro h0
    simpa [opened, hs.body] using h0
  · simp [writeEnded, opened, hopen, hs.finBuffered]

theorem headers_pageRun (q : Platform) (others : List Effect → List HandlerCall)
    {b : QuailServerBackend} (hb : Loaded b) {s : QuitServerStream} {h : InitialHeaders}
    (hs : Blank s) (hopen : s.writeSideClosed = false) (hh : PlainRequest h) :
    PageRun q b (s.onInitialHeadersComplete q (some (storeBackend q others b)) h) h
      (Intake.new.step (.initialHeaders h)) := by
  have hreq : Requested (s.opened h) h := ⟨rfl, rfl, rfl, if_neg (by simp [hh.plain])⟩
  have hreading := opened_reading (h := h) hs hopen
  have hconsumed : Requested ((s.opened h).consumeHeaderList q (some (storeBackend q others b))
      h.bodyAvailable) h := by
    unfold consumeHeaderList
    cases h.bodyAvailable with
    | none => exact hreq
    | some d => exact (hreading.offerBody hreq hh rfl q _ d).requested
  refine ⟨headers_bodyRun q _ hs hopen hh, ?_⟩
  rw [onInitialHeadersComplete_valid q _ hs hh.valid]
  unfold answerConnect
  rw [if_neg (by simp [hconsumed.not_connect hh])]
  unfold consumeHeaderList
  cases h.bodyAvailable with
  | none => exact fun hcalls => absurd hreading.calls hcalls
  | some d => exact offerBody_served q others hb hreading hreq hh d

theorem pageRun_run (q : Platform) (others : List Effect → List HandlerCall)
    {b : QuailServerBackend} (hb : Loaded b) (id : StreamId) (before : List Event)
    (h : InitialHeaders) (later : List Event) (hbefore : ∀ h', .initialHeaders h' ∉ before)
    (hh : PlainRequest h) (answered : ∀ e ∈ before ++ .initialHeaders h :: later, Answered e) :
    PageRun q b (run q (storeBackend q others b) id (before ++ .initialHeaders h :: later)) h
      (intake (before ++ .initialHeaders h :: later)) := by
  have hopen : .writeSideClosed ∉ before := fun hmem =>
    (answered _ (List.mem_append_left _ hmem)).1 rfl
  rw [run_headers q _ id h hbefore later, intake_headers h hbefore later]
  refine StepMachine.simulation_after (R := fun s i => PageRun q b s h i) (P := Answered) ?_ ?_ ?_
  · intro s i e he hs
    exact pageRun_step q others hb hh he hs
  · exact headers_pageRun q others hb (blank_run q _ id hbefore) (blank_open q _ id hbefore hopen) hh
  · intro e he
    exact answered e (List.mem_append_right _ (List.mem_cons_of_mem _ he))

theorem PageRun.sent {q : Platform} {b : QuailServerBackend} {s : QuitServerStream}
    {h : InitialHeaders} {i : Intake} (hs : PageRun q b s h i) :
    (i.complete = false → ¬ h.Overlong i.body → frames s.trace = []) ∧
      (h.Overlong i.body ∨ i.complete = true ∧ ¬ Acceptable h i.body → frames s.trace = errorFrames) ∧
      (i.complete = true → Acceptable h i.body → Sends (answer q (page b)) (frames s.trace)) := by
  rcases hs.phase with hreading | hrejected | hfetched
  · have hopen := hreading.incomplete
    have hshort : ¬ h.Overlong i.body := by
      rintro ⟨h0, hlt⟩
      rw [← hs.requested.contentLength] at h0 hlt
      rw [← hreading.body] at hlt
      exact absurd hlt (Int.not_lt.mpr (hreading.fits h0))
    refine ⟨fun _ _ => hreading.silent, fun hreason => ?_, fun hdone => ?_⟩
    · rcases hreason with hlong | ⟨hdone, -⟩
      · exact absurd hlong hshort
      · exact absurd hdone (by simp [hopen])
    · exact absurd hdone (by simp [hopen])
  · refine ⟨fun hopen hshort => ?_, fun _ => hrejected.frames, fun _ acceptable => ?_⟩
    · rcases hrejected.reason with hlong | ⟨hdone, -⟩
      · exact absurd hlong hshort
      · exact absurd hdone (by simp [hopen])
    · rcases hrejected.reason with hlong | ⟨-, hnot⟩
      · exact absurd hlong acceptable.not_overlong
      · exact absurd acceptable hnot
  · refine ⟨fun hopen => ?_, fun hreason => ?_, fun _ _ => ?_⟩
    · exact absurd hfetched.complete (by simp [hopen])
    · rcases hreason with hlong | ⟨-, hnot⟩
      · exact absurd hlong hfetched.acceptable.not_overlong
      · exact absurd hfetched.acceptable hnot
    · exact (hs.served (by simp [hfetched.calls])).frames

/-- The response made of the first file with the key that `GetResponse` looks up. -/
def indexPage (u : FileUtils) (cacheDirectory : Str) (files : List Str) : Option QuicBackendResponse :=
  ((files.map (added u cacheDirectory)).find? fun a => a.key = indexKey).map Added.response

theorem loaded_page {u : FileUtils} {cacheDirectory : Str} {files : List Str} {b : QuailServerBackend}
    (listed : u.enumerateDirectoryRecursively cacheDirectory = some files)
    (loaded : initializeBackend u cacheDirectory (new none none) = some (true, b)) :
    Loaded b ∧ page b = indexPage u cacheDirectory files := by
  obtain ⟨files', listed', hadds⟩ := initializeBackend_loaded loaded
  obtain rfl : files' = files := Option.some.inj (listed'.symm.trans listed)
  have hpage : page b = indexPage u cacheDirectory files' := by
    rw [hadds]
    exact (addAll_kept none none _).first indexKey
  refine ⟨⟨?_, ?_, ?_⟩, hpage⟩
  · rw [hadds, addAll_eq]
    rfl
  · rw [hadds, addAll_eq]
    rfl
  · intro r hr
    rw [hpage] at hr
    obtain ⟨a, -, rfl⟩ := Option.map_eq_some_iff.mp hr
    exact ⟨rfl, rfl, rfl⟩

theorem served_when_acceptable (q : Platform) (others : List Effect → List HandlerCall)
    {u : FileUtils} {cacheDirectory : Str} {files : List Str} {b : QuailServerBackend}
    (listed : u.enumerateDirectoryRecursively cacheDirectory = some files)
    (loaded : initializeBackend u cacheDirectory (new none none) = some (true, b)) (id : StreamId)
    {before : List Event} {h : InitialHeaders} {later : List Event}
    (hbefore : ∀ h', .initialHeaders h' ∉ before) (hh : PlainRequest h)
    (answered : ∀ e ∈ before ++ .initialHeaders h :: later, Answered e)
    (complete : (intake (before ++ .initialHeaders h :: later)).complete = true)
    (acceptable : Acceptable h (intake (before ++ .initialHeaders h :: later)).body) :
    Sends (answer q (indexPage u cacheDirectory files))
      (frames (run q (storeBackend q others b) id (before ++ .initialHeaders h :: later)).trace) := by
  obtain ⟨hb, hpage⟩ := loaded_page listed loaded
  exact hpage ▸ (pageRun_run q others hb id before h later hbefore hh answered).sent.2.2 complete acceptable

/-- Once a directory is loaded, every request is answered from it: with nothing while the request
    is incomplete, with the 500 response if it is not acceptable, and with the whole page, once,
    if it is. -/
theorem directory_served (q : Platform) (others : List Effect → List HandlerCall) (u : FileUtils)
    (cacheDirectory : Str) (files : List Str) (b : QuailServerBackend)
    (listed : u.enumerateDirectoryRecursively cacheDirectory = some files)
    (loaded : initializeBackend u cacheDirectory (new none none) = some (true, b)) (id : StreamId)
    (before : List Event) (h : InitialHeaders) (later : List Event)
    (hbefore : ∀ h', .initialHeaders h' ∉ before) (hh : PlainRequest h)
    (answered : ∀ e ∈ before ++ .initialHeaders h :: later, Answered e) :
    let trace := (run q (storeBackend q others b) id (before ++ .initialHeaders h :: later)).trace
    let i := intake (before ++ .initialHeaders h :: later)
    (i.complete = false → ¬ h.Overlong i.body → frames trace = []) ∧
      (h.Overlong i.body ∨ i.complete = true ∧ ¬ Acceptable h i.body → frames trace = errorFrames) ∧
      (i.complete = true → Acceptable h i.body →
        Sends (answer q (indexPage u cacheDirectory files)) (frames trace)) := by
  obtain ⟨hb, hpage⟩ := loaded_page listed loaded
  exact hpage ▸ (pageRun_run q others hb id before h later hbefore hh answered).sent

theorem indexPage_savedDirectory (cacheDirectory : Str)
    (name : fileBase cacheDirectory (indexFile cacheDirectory) = indexKey) :
    indexPage (savedDirectory cacheDirectory) cacheDirectory [indexFile cacheDirectory] =
      some (added (savedDirectory cacheDirectory) cacheDirectory (indexFile cacheDirectory)).response := by
  have hkey := savedDirectory_key name
  unfold indexPage
  rw [List.map_singleton, List.find?_singleton, hkey]
  rfl

theorem directory_served_post : ∃ b r,
    initializeBackend (savedDirectory "/d".toList) "/d".toList (new none none) = some (true, b) ∧
    indexPage (savedDirectory "/d".toList) "/d".toList [indexFile "/d".toList] = some r ∧
    Sends (answer plainPlatform (some r))
      (frames (run plainPlatform (storeBackend plainPlatform (fun _ => []) b) 0
        ([] ++ .initialHeaders postHeaders :: [.bodyAvailable ⟨["a", "b"], true⟩, .alarm])).trace) := by
  have hloaded := savedDirectory_loads "/d".toList (by decide)
  have hpage := indexPage_savedDirectory "/d".toList (by decide)
  have hpost : PlainRequest postHeaders := ⟨⟨rfl, rfl⟩, by decide⟩
  have hserved := (directory_served plainPlatform (fun _ => []) (savedDirectory "/d".toList) "/d".toList _ _
    rfl hloaded 0 [] postHeaders [.bodyAvailable ⟨["a", "b"], true⟩, .alarm] (by simp) hpost
    (by simp [Answered])).2.2 rfl ⟨by decide, by decide, Or.inr rfl⟩
  rw [hpage] at hserved
  exact ⟨_, _, hloaded, hpage, hserved⟩

end QuailServer.ServedPages
