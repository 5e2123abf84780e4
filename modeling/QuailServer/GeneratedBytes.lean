import QuailServer.Library.History
import QuailServer.ResponseFraming

set_option autoImplicit false

namespace QuailServer.GeneratedBytes
open HeaderBlock WebTransport ServerStream QuitServerStream ResponseFraming

def startGenerator (response : QuicBackendResponse) (n : ℕ) (s : QuitServerStream) :
    QuitServerStream :=
  let s := { s with generateBytesLength := n }
  let headers := response.headers.set "content-length" (strCat n)
  let s := (s.writeHeaders .response headers false).emit (.dcheck !s.responseSent)
  { s with responseSent := true }

def writeChunk (s : QuitServerStream) : QuitServerStream :=
  let len := min kChunkSize s.generateBytesLength
  let left := s.generateBytesLength - len
  writeOrBufferBody (List.replicate len 'a') (left = 0) { s with generateBytesLength := left }

def Ready (q : Platform) (s : QuitServerStream) : Prop :=
  q.hasBufferedData s.trace = false ∧ 0 < s.generateBytesLength

/-- The states the stream passes through while it writes the response. -/
inductive Passed (q : Platform) (response : QuicBackendResponse) (n : ℕ) (s : QuitServerStream) :
    QuitServerStream → Prop where
  | started : Passed q response n s (startGenerator response n (afterHints s response.earlyHints))
  | chunk {t : QuitServerStream} (h : Passed q response n s t) (ready : Ready q t) :
      Passed q response n s (writeChunk t)
  | canWrite {t : QuitServerStream} (h : Passed q response n s t) (idle : ¬ Ready q t) :
      Passed q response n s (t.emit .onCanWrite)

/-- `Respond` and then `k` calls of `OnCanWrite`. -/
def calls (q : Platform) (response : QuicBackendResponse) (s : QuitServerStream) :
    ℕ → QuitServerStream
  | 0 => s.respond q response
  | k + 1 => (calls q response s k).onCanWrite q

theorem writeGeneratedBytes_passed {q : Platform} {response : QuicBackendResponse} {n : ℕ}
    {s t : QuitServerStream} (h : Passed q response n s t) :
    Passed q response n s (t.writeGeneratedBytes q) ∧ ¬ Ready q (t.writeGeneratedBytes q) := by
  induction t using writeGeneratedBytes.induct q with
  | case1 t hready len left ih =>
    rw [writeGeneratedBytes, dif_pos hready]
    exact ih (h.chunk hready)
  | case2 t hidle =>
    rw [writeGeneratedBytes, dif_neg hidle]
    exact ⟨h, hidle⟩

theorem respond_generate (q : Platform) {response : QuicBackendResponse} (s : QuitServerStream)
    (htype : response.responseType = .generateBytes)
    (hstatus : q.parseHeaderStatusCode response.headers ≠ none) :
    s.respond q response = (afterHints s response.earlyHints).respondGenerateBytes q response := by
  unfold respond
  rw [earlyHints_eq]
  simp [htype, hstatus]

theorem respond_started (q : Platform) {response : QuicBackendResponse} {s : QuitServerStream}
    {c : Char} {path : Str} {n : ℕ} (htype : response.responseType = .generateBytes)
    (hstatus : q.parseHeaderStatusCode response.headers ≠ none)
    (hpath : s.requestHeaders.asString ":path" = c :: path) (hatoi : q.simpleAtoi path = (true, n)) :
    s.respond q response = (startGenerator response n (afterHints s response.earlyHints)).writeGeneratedBytes q := by
  have hpath' : (afterHints s response.earlyHints).requestHeaders.asString ":path" = c :: path := hpath
  rw [respond_generate q s htype hstatus]
  unfold respondGenerateBytes
  rw [hpath']
  dsimp only
  rw [hatoi]
  rfl

theorem calls_passed (q : Platform) {response : QuicBackendResponse} {s : QuitServerStream}
    {c : Char} {path : Str} {n : ℕ} (htype : response.responseType = .generateBytes)
    (hstatus : q.parseHeaderStatusCode response.headers ≠ none)
    (hpath : s.requestHeaders.asString ":path" = c :: path) (hatoi : q.simpleAtoi path = (true, n))
    (k : ℕ) : Passed q response n s (calls q response s k) ∧ ¬ Ready q (calls q response s k) := by
  induction k with
  | zero =>
    change Passed q response n s (s.respond q response) ∧ ¬ Ready q (s.respond q response)
    rw [respond_started q htype hstatus hpath hatoi]
    exact writeGeneratedBytes_passed .started
  | succ k ih => exact writeGeneratedBytes_passed (ih.1.canWrite ih.2)

def bodyLength : Effect → ℕ
  | .writeOrBufferBody data _ => data.length
  | _ => 0

def written (es : List Effect) : ℕ := (es.map bodyLength).sum

def carriesFin : Effect → Bool
  | .writeHeaders _ _ fin => fin
  | .writeOrBufferBody _ fin => fin
  | .writeTrailers _ => true
  | _ => false

def fins (es : List Effect) : ℕ := es.countP carriesFin

def isResponseHeaders : Effect → Bool
  | .writeHeaders .response _ _ => true
  | _ => false

/-- What may be written after `pre`: chunks while nothing is buffered, and the FIN with the last
    byte only. -/
def Allowed (q : Platform) (base : List Effect) (n : ℕ) (pre : List Effect) : Effect → Prop
  | .writeOrBufferBody data fin =>
    q.hasBufferedData (base ++ pre) = false ∧ data.length ≤ kChunkSize ∧
      (fin = true ↔ written pre + data.length = n)
  | .writeHeaders .response _ fin => fin = true → n = 0
  | .writeHeaders .earlyHints _ fin => fin = false
  | .writeTrailers _ => False
  | _ => True

/-- A response of `n` generated bytes, of which `left` are still to be written. -/
structure Generates (q : Platform) (base : List Effect) (n left : ℕ) (new : List Effect) : Prop where
  conserved : written new + left = n
  declared : ∃ block fin, new.filter isResponseHeaders = [.writeHeaders .response block fin] ∧
    block.find "content-length" = some (strCat n)
  writes : History.Holds (Allowed q base n) [] new

/-- The response holds its length at every point passed through, and after every call the FIN was
    sent once if all bytes were handed over, else not at all. -/
structure GeneratedResponse (q : Platform) (response : QuicBackendResponse) (n : ℕ)
    (s : QuitServerStream) : Prop where
  passed : ∀ k, Passed q response n s (calls q response s k)
  points : ∀ t : QuitServerStream, Passed q response n s t → ∃ new, t.trace = s.trace ++ new ∧
    Generates q s.trace n t.generateBytesLength new
  fin : ∀ k, ∃ new, (calls q response s k).trace = s.trace ++ new ∧
    fins new = if written new = n then 1 else 0

theorem written_append (es es' : List Effect) : written (es ++ es') = written es + written es' := by
  simp [written]

theorem fins_append (es es' : List Effect) : fins (es ++ es') = fins es + fins es' :=
  List.countP_append

theorem hints_silent (hints : List Http2HeaderBlock) :
    written (hintFrames hints) = 0 ∧ fins (hintFrames hints) = 0 ∧
      (hintFrames hints).filter isResponseHeaders = [] := by
  induction hints with
  | nil => exact ⟨rfl, rfl, rfl⟩
  | cons hint hints ih =>
    obtain ⟨hwritten, hfins, hfilter⟩ := ih
    have hcons : hintFrames (hint :: hints) = [.writeHeaders .earlyHints hint false] ++ hintFrames hints :=
      rfl
    rw [hcons, written_append, fins_append, hwritten, hfins]
    exact ⟨rfl, rfl, hfilter⟩

theorem hints_allowed (q : Platform) (base : List Effect) (n : ℕ) (hints : List Http2HeaderBlock) :
    ∀ e ∈ hintFrames hints, ∀ pre, Allowed q base n pre e := by
  intro e he pre
  obtain ⟨block, -, rfl⟩ := List.mem_map.mp he
  rfl

theorem Generates.append {q : Platform} {base new : List Effect} {n left left' : ℕ} {e : Effect}
    (h : Generates q base n left new) (hlen : bodyLength e + left' = left)
    (hheaders : isResponseHeaders e = false) (hallowed : Allowed q base n new e) :
    Generates q base n left' (new ++ [e]) := by
  obtain ⟨hconserved, ⟨block, fin, hdeclared, hlength⟩, hwrites⟩ := h
  refine ⟨?_, ⟨block, fin, ?_, hlength⟩, ?_⟩
  · rw [written_append]
    have hone : written [e] = bodyLength e := by simp [written]
    omega
  · rw [List.filter_append, hdeclared, List.filter_cons_of_neg (by simp [hheaders])]
    rfl
  · rw [History.holds_append]
    exact ⟨hwrites, hallowed, trivial⟩

/-- The invariant of the writer: the FIN went out with the last byte, if there is one. -/
def Writing (q : Platform) (n : ℕ) (s t : QuitServerStream) : Prop :=
  ∃ new, t.trace = s.trace ++ new ∧ Generates q s.trace n t.generateBytesLength new ∧
    fins new = if t.generateBytesLength = 0 ∧ 0 < n then 1 else 0

theorem startGenerator_writing (q : Platform) (response : QuicBackendResponse) (n : ℕ)
    (s : QuitServerStream) :
    Writing q n s (startGenerator response n (afterHints s response.earlyHints)) := by
  obtain ⟨hwritten, hfins, hfilter⟩ := hints_silent response.earlyHints
  refine ⟨hintFrames response.earlyHints ++
    [.writeHeaders .response (response.headers.set "content-length" (strCat n)) false,
      .dcheck !s.responseSent], ?_, ⟨?_, ?_, ?_⟩, ?_⟩
  · simp [startGenerator, afterHints, writeHeaders, emit]
  · rw [written_append, hwritten]
    exact Nat.zero_add n
  · refine ⟨response.headers.set "content-length" (strCat n), false, ?_,
      Http2HeaderBlock.find_set _ _ _⟩
    rw [List.filter_append, hfilter]
    rfl
  · rw [History.holds_append]
    exact ⟨History.holds_of_all (hints_allowed q s.trace n response.earlyHints),
      fun hfin => absurd hfin Bool.false_ne_true, trivial, trivial⟩
  · rw [fins_append, hfins]
    have hidle : ¬ (n = 0 ∧ 0 < n) := by omega
    exact (if_neg hidle).symm

theorem writeChunk_writing {q : Platform} {n : ℕ} {s t : QuitServerStream} (h : Writing q n s t)
    (ready : Ready q t) : Writing q n s (writeChunk t) := by
  obtain ⟨new, htrace, hgenerates, hfins⟩ := h
  obtain ⟨hbuffer, hleft⟩ := ready
  have hconserved := hgenerates.conserved
  refine ⟨new ++ [.writeOrBufferBody (List.replicate (min kChunkSize t.generateBytesLength) 'a')
    (decide (t.generateBytesLength - min kChunkSize t.generateBytesLength = 0))], ?_, ?_, ?_⟩
  · change t.trace ++ _ = s.trace ++ (new ++ _)
    rw [htrace, List.append_assoc]
  · refine hgenerates.append ?_ rfl ⟨?_, ?_, ?_⟩
    · change (List.replicate _ 'a').length + (t.generateBytesLength - min kChunkSize _) = _
      rw [List.length_replicate]
      omega
    · rw [← htrace]
      exact hbuffer
    · rw [List.length_replicate]
      exact Nat.min_le_left _ _
    · rw [List.length_replicate, decide_eq_true_iff]
      omega
  · have hbefore : ¬ (t.generateBytesLength = 0 ∧ 0 < n) := by omega
    rw [if_neg hbefore] at hfins
    rw [fins_append, hfins]
    change 0 + fins [.writeOrBufferBody _ _] = if t.generateBytesLength - min _ _ = 0 ∧ 0 < n then 1 else 0
    by_cases hlast : t.generateBytesLength - min kChunkSize t.generateBytesLength = 0
    · rw [if_pos ⟨hlast, by omega⟩]
      simp [fins, carriesFin, hlast]
    · rw [if_neg fun hboth => hlast hboth.1]
      simp [fins, carriesFin, hlast]

theorem onCanWrite_writing {q : Platform} {n : ℕ} {s t : QuitServerStream} (h : Writing q n s t) :
    Writing q n s (t.emit .onCanWrite) := by
  obtain ⟨new, htrace, hgenerates, hfins⟩ := h
  refine ⟨new ++ [.onCanWrite], ?_, ?_, ?_⟩
  · change t.trace ++ _ = s.trace ++ (new ++ _)
    rw [htrace, List.append_assoc]
  · exact hgenerates.append (e := .onCanWrite) (Nat.zero_add _) rfl trivial
  · rw [fins_append, hfins]
    rfl

theorem passed_writing {q : Platform} {response : QuicBackendResponse} {n : ℕ}
    {s t : QuitServerStream} (h : Passed q response n s t) : Writing q n s t := by
  induction h with
  | started => exact startGenerator_writing q response n s
  | chunk _ ready ih => exact writeChunk_writing ih ready
  | canWrite _ _ ih => exact onCanWrite_writing ih

/-- A response of generated bytes is written as it should be exactly when it has a byte. -/
theorem generated_response_iff (q : Platform) {response : QuicBackendResponse} {s : QuitServerStream}
    {c : Char} {path : Str} {n : ℕ} (htype : response.responseType = .generateBytes)
    (hstatus : q.parseHeaderStatusCode response.headers ≠ none)
    (hpath : s.requestHeaders.asString ":path" = c :: path) (hatoi : q.simpleAtoi path = (true, n)) :
    GeneratedResponse q response n s ↔ 0 < n := by
  constructor
  · intro h
    obtain ⟨new, htrace, hgenerates, hfins⟩ :=
      passed_writing (calls_passed q htype hstatus hpath hatoi 0).1
    obtain ⟨new', htrace', hfin⟩ := h.fin 0
    have hsame : new' = new := List.append_cancel_left (htrace'.symm.trans htrace)
    rw [hsame, hfins] at hfin
    have hconserved := hgenerates.conserved
    by_contra hzero
    rw [if_neg (by omega), if_pos (by omega)] at hfin
    cases hfin
  · intro hpos
    refine ⟨fun k => (calls_passed q htype hstatus hpath hatoi k).1, fun t ht => ?_, fun k => ?_⟩
    · obtain ⟨new, htrace, hgenerates, -⟩ := passed_writing ht
      exact ⟨new, htrace, hgenerates⟩
    · obtain ⟨new, htrace, hgenerates, hfins⟩ :=
        passed_writing (calls_passed q htype hstatus hpath hatoi k).1
      have hconserved := hgenerates.conserved
      refine ⟨new, htrace, ?_⟩
      rw [hfins]
      by_cases hdone : (calls q response s k).generateBytesLength = 0
      · rw [if_pos ⟨hdone, hpos⟩, if_pos (by omega)]
      · rw [if_neg (by omega), if_neg (by omega)]

def requested (path : Str) : QuitServerStream :=
  { QuitServerStream.new 0 with requestHeaders := Http2HeaderBlock.set ∅ ":path" path }

def generateResponse : QuicBackendResponse :=
  { QuicBackendResponse.new with
    responseType := .generateBytes
    headers := Http2HeaderBlock.set ∅ ":status" "200" }

theorem generateResponse_status (q : Platform)
    (hq : q.parseHeaderStatusCode = plainPlatform.parseHeaderStatusCode) :
    q.parseHeaderStatusCode generateResponse.headers ≠ none := by
  rw [hq]
  decide +kernel

theorem generated_response_short :
    GeneratedResponse plainPlatform generateResponse 3 (requested "/3") :=
  (generated_response_iff plainPlatform rfl (generateResponse_status _ rfl) rfl rfl).mpr (by decide)

theorem empty_response_unfinished :
    plainPlatform.simpleAtoi "0" = (true, 0) ∧
      (∀ k, fins (calls plainPlatform generateResponse (requested "/0") k).trace = 0) ∧
      ¬ GeneratedResponse plainPlatform generateResponse 0 (requested "/0") := by
  have hatoi : plainPlatform.simpleAtoi "0" = (true, 0) := rfl
  have hrun : ∀ k, ∃ new, (calls plainPlatform generateResponse (requested "/0") k).trace = new ∧
      written new = 0 ∧ fins new = 0 := by
    intro k
    obtain ⟨new, htrace, hgenerates, hfins⟩ := passed_writing
      (calls_passed (s := requested "/0") plainPlatform rfl (generateResponse_status _ rfl) rfl hatoi k).1
    have hconserved := hgenerates.conserved
    refine ⟨new, htrace, by omega, ?_⟩
    rw [hfins, if_neg (by omega)]
  refine ⟨hatoi, fun k => ?_, fun h => ?_⟩
  · obtain ⟨new, htrace, -, hfins⟩ := hrun k
    rw [htrace, hfins]
  · obtain ⟨new, htrace, hwritten, hfins⟩ := hrun 0
    obtain ⟨new', htrace', hfin⟩ := h.fin 0
    have hsame : new' = new := htrace'.symm.trans htrace
    rw [hsame, hfins, if_pos hwritten] at hfin
    cases hfin

/-- A failed request passes the assertion and is answered by one 404 response that ends in FIN, and
    nothing is written after it. -/
structure NotFoundAnswered (q : Platform) (response : QuicBackendResponse) (s : QuitServerStream) :
    Prop where
  answer : (s.respond q response).trace = s.trace ++ hintFrames response.earlyHints ++
    [.dcheckNe true false,
      .writeHeaders .response (statusBlock "404" kNotFoundResponseBody) false,
      .writeOrBufferBody kNotFoundResponseBody true]
  stopped : (s.respond q response).generateBytesLength = 0
  silent : ∀ k, (calls q response s k).trace =
    (s.respond q response).trace ++ List.replicate k .onCanWrite

theorem calls_silent {q : Platform} {response : QuicBackendResponse} {s : QuitServerStream}
    (h : (s.respond q response).generateBytesLength = 0) (k : ℕ) :
    (calls q response s k).trace = (s.respond q response).trace ++ List.replicate k .onCanWrite ∧
      (calls q response s k).generateBytesLength = 0 := by
  induction k with
  | zero => exact ⟨(List.append_nil _).symm, h⟩
  | succ k ih =>
    obtain ⟨htrace, hlen⟩ := ih
    have hidle : calls q response s (k + 1) = (calls q response s k).emit .onCanWrite :=
      writeGeneratedBytes_idle q hlen
    rw [hidle, List.replicate_succ', ← List.append_assoc, ← htrace]
    exact ⟨rfl, hlen⟩

theorem sendNotFound_trace (s : QuitServerStream) : s.sendNotFoundResponse.trace = s.trace ++
    [.dcheckNe true s.responseSent,
      .writeHeaders .response (statusBlock "404" kNotFoundResponseBody) false,
      .writeOrBufferBody kNotFoundResponseBody true] ∧
    s.sendNotFoundResponse.generateBytesLength = s.generateBytesLength := by
  unfold sendNotFoundResponse
  rw [sendHeadersAndBody_eq _ _ (by decide)]
  exact ⟨rfl, rfl⟩

theorem respond_empty_path (q : Platform) {response : QuicBackendResponse} {s : QuitServerStream}
    (htype : response.responseType = .generateBytes)
    (hstatus : q.parseHeaderStatusCode response.headers ≠ none)
    (hpath : s.requestHeaders.asString ":path" = []) :
    s.respond q response = (afterHints s response.earlyHints).emit .outOfRange := by
  have hpath' : (afterHints s response.earlyHints).requestHeaders.asString ":path" = [] := hpath
  rw [respond_generate q s htype hstatus]
  unfold respondGenerateBytes
  rw [hpath']

theorem respond_failed (q : Platform) {response : QuicBackendResponse} {s : QuitServerStream}
    {c : Char} {path : Str} (htype : response.responseType = .generateBytes)
    (hstatus : q.parseHeaderStatusCode response.headers ≠ none)
    (hpath : s.requestHeaders.asString ":path" = c :: path) (hatoi : (q.simpleAtoi path).1 = false) :
    s.respond q response = sendNotFoundResponse
      { afterHints s response.earlyHints with generateBytesLength := (q.simpleAtoi path).2 } := by
  have hpath' : (afterHints s response.earlyHints).requestHeaders.asString ":path" = c :: path := hpath
  have hnot : ¬ (q.simpleAtoi path).1 = true := by simp [hatoi]
  rw [respond_generate q s htype hstatus]
  unfold respondGenerateBytes
  rw [hpath']
  dsimp only
  rw [if_neg hnot]

theorem respond_unparsed (q : Platform) {response : QuicBackendResponse} (s : QuitServerStream)
    (htype : response.responseType = .generateBytes)
    (hstatus : q.parseHeaderStatusCode response.headers = none) :
    s.respond q response = (afterHints s response.earlyHints).sendErrorResponse 0 := by
  unfold respond
  rw [earlyHints_eq]
  simp [htype, hstatus]

theorem NotFoundAnswered.last {q : Platform} {response : QuicBackendResponse} {s : QuitServerStream}
    (h : NotFoundAnswered q response s) :
    (s.respond q response).trace.getLast? = some (.writeOrBufferBody kNotFoundResponseBody true) := by
  rw [h.answer, List.getLast?_append]
  rfl

theorem NotFoundAnswered.parsed {q : Platform} {response : QuicBackendResponse} {s : QuitServerStream}
    (h : NotFoundAnswered q response s) (htype : response.responseType = .generateBytes) :
    q.parseHeaderStatusCode response.headers ≠ none := by
  intro hstatus
  have hlast := h.last
  rw [respond_unparsed q s htype hstatus, sendErrorResponse_eq, List.getLast?_append] at hlast
  have hbody : kErrorResponseBody = kNotFoundResponseBody := by
    simpa using hlast
  exact absurd hbody (by decide)

/-- A failed request is answered so just if the answer has a status, nothing was answered before, and
    the parser leaves nothing behind. -/
theorem not_found_answered_iff (q : Platform) {response : QuicBackendResponse}
    {s : QuitServerStream} (htype : response.responseType = .generateBytes)
    (hfail : ∀ c path, s.requestHeaders.asString ":path" = c :: path → (q.simpleAtoi path).1 = false) :
    NotFoundAnswered q response s ↔
      q.parseHeaderStatusCode response.headers ≠ none ∧ s.responseSent = false ∧
        ∃ c path, s.requestHeaders.asString ":path" = c :: path ∧ (q.simpleAtoi path).2 = 0 := by
  by_cases hstatus : q.parseHeaderStatusCode response.headers = none
  · exact iff_of_false (fun h => h.parsed htype hstatus) fun h => h.1 hstatus
  rw [and_iff_right hstatus]
  cases hpath : s.requestHeaders.asString ":path" with
  | nil =>
    have hrespond := respond_empty_path q htype hstatus hpath
    refine iff_of_false (fun h => ?_) nofun
    have hlast := h.last
    rw [hrespond] at hlast
    simp [emit] at hlast
  | cons c path =>
    have hrespond := respond_failed q htype hstatus hpath (hfail c path hpath)
    obtain ⟨htrace, hlen⟩ := sendNotFound_trace
      { afterHints s response.earlyHints with generateBytesLength := (q.simpleAtoi path).2 }
    have hsent : (afterHints s response.earlyHints).responseSent = s.responseSent := rfl
    rw [← hrespond, hsent] at htrace
    rw [← hrespond] at hlen
    constructor
    · intro h
      have hunsent : s.responseSent = false := by
        have hsame := htrace.symm.trans h.answer
        simpa [afterHints] using hsame
      exact ⟨hunsent, c, path, rfl, hlen.symm.trans h.stopped⟩
    · rintro ⟨hunsent, c', path', heq, hzero⟩
      obtain ⟨rfl, rfl⟩ := List.cons.inj heq
      have hstopped := hlen.trans hzero
      rw [hunsent] at htrace
      exact ⟨htrace, hstopped, fun k => (calls_silent hstopped k).1⟩

/-- `SimpleAtoi` of the pinned version on texts without blanks and signs: it stores the digits that
    it has read, or the largest value. -/
def atoiFrom (value : ℕ) : Str → Bool × ℕ
  | [] => (true, value)
  | c :: text =>
    if c.isDigit then
      let next := 10 * value + (c.toNat - '0'.toNat)
      if next < 2 ^ 64 then atoiFrom next text else (false, 2 ^ 64 - 1)
    else (false, value)

def pinnedPlatform : Platform :=
  { plainPlatform with simpleAtoi := fun text => if text = [] then (false, 0) else atoiFrom 0 text }

theorem not_found_answered_word :
    NotFoundAnswered pinnedPlatform generateResponse (requested "/abc") := by
  refine (not_found_answered_iff pinnedPlatform rfl ?_).mpr
    ⟨generateResponse_status _ rfl, rfl, '/', "abc".toList, rfl, rfl⟩
  intro c path hpath
  obtain ⟨rfl, rfl⟩ := List.cons.inj hpath
  rfl

theorem generator_left_running :
    (pinnedPlatform.simpleAtoi "12abc").1 = false ∧
      ((requested "/12abc").respond pinnedPlatform generateResponse).generateBytesLength = 12 ∧
      ¬ NotFoundAnswered pinnedPlatform generateResponse (requested "/12abc") ∧
      ¬ NotFoundAnswered pinnedPlatform generateResponse (requested []) := by
  have hatoi : (pinnedPlatform.simpleAtoi "12abc").1 = false := rfl
  have hleft : ((requested "/12abc").respond pinnedPlatform generateResponse).generateBytesLength = 12 := by
    rw [respond_failed (s := requested "/12abc") pinnedPlatform rfl (generateResponse_status _ rfl) rfl hatoi]
    exact (sendNotFound_trace _).2
  refine ⟨hatoi, hleft, fun h => ?_, fun h => ?_⟩
  · have hstopped := h.stopped
    rw [hleft] at hstopped
    cases hstopped
  · have hlen := congrArg List.length h.answer
    rw [respond_empty_path pinnedPlatform rfl (generateResponse_status _ rfl) rfl] at hlen
    cases hlen

end QuailServer.GeneratedBytes
