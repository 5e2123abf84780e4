import QuailServer.FinalHeaders
import QuailServer.StreamOperations

set_option autoImplicit false

namespace QuailServer.ResponseOnce
open HeaderBlock WebTransport ServerStream QuitServerStream FinalHeaders

def isAnswer : HandlerCall → Bool
  | .onResponseBackendComplete _ => true
  | _ => false

def answers (trace : List Effect) : ℕ := (handlerCalls trace).countP isAnswer

/-- The call finds the flag as the assertion wants it, or it comes to no assertion and writes no
    final header block. -/
def GuardedCall (q : Platform) (s : QuitServerStream) : HandlerCall → Prop
  | .onResponseBackendComplete response => s.responseSent = true →
      ∃ r, response = some r ∧ (r.delay ≠ 0 ∨ Silent q s r)
  | .sendStreamData _ _ => s.responseSent = true
  | .terminateStreamWithError _ => True

/-- No error response is sent after another response, no response after an error response, and no
    data before a response. -/
def Guarded (q : Platform) (s : QuitServerStream) : Operation → Prop
  | .bodyAvailable d => s.headersComplete = true → s.readingStopped = false →
      s.readSideClosed = false → s.Overflows d → s.responseSent = false
  | .handlerCall call => s.trace.any Effect.isBackendCall = true → GuardedCall q s call
  | .alarm => s.responseSent = true → ∀ r, s.delayedResponseAlarm = some r → Silent q s r
  | _ => True

theorem answers_append (t u : List Effect) : answers (t ++ u) = answers t + answers u := by
  unfold answers
  rw [handlerCalls_append, List.countP_append]

theorem answers_isPrefix {t u : List Effect} (h : t <+: u) : answers t ≤ answers u := by
  obtain ⟨more, rfl⟩ := h
  rw [answers_append]
  exact Nat.le_add_right _ _

/-- The invariant of a stream after its headers. Before the backend answers, and while its
    answer is delayed, only an error response can have been sent. -/
structure Once (q : Platform) (s : QuitServerStream) : Prop extends Kept q s where
  complete : s.headersComplete = true
  plain : s.webTransport = none
  unanswered : answers s.trace = 0 ∨ s.delayedResponseAlarm ≠ none →
    s.responseSent = true → s.readingStopped = true
  alarm : answers s.trace = 0 → s.delayedResponseAlarm = none
  unasked : s.isConnectRequest = false → s.readSideClosed = false → backendCalls s.trace = []
  asked : backendCalls s.trace = [] → answers s.trace = 0

section
variable {q : Platform} {s u : QuitServerStream}

theorem Once.writes (h : Once q s) (hw : Writes s u) (hk : Kept q u)
    (hsent : answers s.trace = 0 ∨ s.delayedResponseAlarm ≠ none → u.responseSent = true →
      s.responseSent = true ∨ u.readingStopped = true) : Once q u := by
  have hanswers : answers u.trace = answers s.trace := by
    unfold answers
    rw [hw.handlerCalls]
  refine ⟨hk, hw.headersComplete.trans h.complete, hw.webTransport.trans h.plain, ?_, ?_, ?_, ?_⟩
  · rw [hanswers, hw.alarm]
    intro hwaiting hu
    rcases hsent hwaiting hu with hs | hstop
    · exact hw.readingStopped (h.unanswered hwaiting hs)
    · exact hstop
  · rw [hanswers, hw.alarm]
    exact h.alarm
  · rw [hw.toResponds.isConnectRequest, hw.toResponds.backendCalls]
    intro hc hclosed
    refine h.unasked hc ?_
    cases hs : s.readSideClosed with
    | false => rfl
    | true => exact absurd ((hw.readSideClosed hs).symm.trans hclosed) (by simp)
  · rw [hanswers, hw.toResponds.backendCalls]
    exact h.asked

theorem answers_handle (c : HandlerCall) (s : QuitServerStream) :
    answers (s.emit (.handlerCall c)).trace = answers s.trace + if isAnswer c then 1 else 0 := by
  have hone : answers [.handlerCall c] = if isAnswer c then 1 else 0 := by
    cases c <;> rfl
  exact (answers_append s.trace [.handlerCall c]).trans (congrArg _ hone)

theorem Once.called (h : Once q s) (c : HandlerCall) (hasked : backendCalls s.trace ≠ []) :
    Once q (s.emit (.handlerCall c)) := by
  have hanswers := answers_handle c s
  have hcalls : backendCalls (s.emit (.handlerCall c)).trace = backendCalls s.trace :=
    (backendCalls_append s.trace [.handlerCall c]).trans (List.append_nil _)
  have hk : Kept q (s.emit (.handlerCall c)) :=
    h.toKept.extend [.handlerCall c] rfl (by simp [Asserted]) rfl (fun h => h) rfl
  refine ⟨hk, h.complete, h.plain, ?_, ?_, ?_, ?_⟩
  · intro hwaiting
    exact h.unanswered (hwaiting.imp_left fun h0 => by omega)
  · intro h0
    exact h.alarm (by omega)
  · rw [hcalls]
    exact h.unasked
  · rw [hcalls]
    intro hnone
    exact absurd hnone hasked

theorem unanswered_of_once {c : HandlerCall} (hone : answers (s.handle q c).trace ≤ 1)
    (hc : isAnswer c = true) : answers s.trace = 0 := by
  have hcall := answers_handle c s
  rw [hc, if_pos rfl] at hcall
  have hle : answers (s.emit (.handlerCall c)).trace ≤ answers (s.handle q c).trace := by
    refine answers_isPrefix ?_
    cases c with
    | onResponseBackendComplete r => exact (onResponseBackendComplete_responds q r _).isPrefix
    | sendStreamData data close => cases hc
    | terminateStreamWithError e => cases hc
  omega

theorem Once.answer (h : Once q s) (halarm : s.delayedResponseAlarm = none)
    (hanswers : answers s.trace ≠ 0) (r : Option QuicBackendResponse)
    (hs : s.responseSent = false ∨ ∃ response, r = some response ∧
      (response.delay ≠ 0 ∨ Silent q s response))
    (hstop : s.responseSent = true → s.readingStopped = true) :
    Once q (s.onResponseBackendComplete q r) := by
  have hvacuous : ∀ {P : Prop}, answers s.trace = 0 ∨ s.delayedResponseAlarm ≠ none → P :=
    fun hw => hw.elim (fun h0 => absurd h0 hanswers) fun hne => absurd halarm hne
  cases r with
  | none =>
    have hunsent : s.responseSent = false := by
      refine hs.resolve_right ?_
      rintro ⟨response, heq, -⟩
      cases heq
    exact h.writes (sendNotFoundResponse_writes s) (h.toKept.sendNotFoundResponse hunsent)
      fun hw => hvacuous hw
  | some r =>
    unfold onResponseBackendComplete
    dsimp only
    by_cases hdelay : r.delay = 0
    · rw [if_pos hdelay]
      have hsilent : s.responseSent = false ∨ Silent q s r := by
        refine hs.imp_right ?_
        rintro ⟨response, heq, hquiet⟩
        cases heq
        exact hquiet.resolve_left fun hne => hne hdelay
      exact h.writes (respond_writes q r s) (h.toKept.respond r hsilent) fun hw => hvacuous hw
    · rw [if_neg hdelay]
      have hk : Kept q { s with delayedResponseAlarm := some r } :=
        h.toKept.extend [] (by simp) (by simp [Asserted]) rfl (fun h => h) rfl
      exact ⟨hk, h.complete, h.plain, fun _ hsent => hstop hsent,
        fun h0 => absurd h0 hanswers, h.unasked, h.asked⟩

theorem Once.handle (h : Once q s) (c : HandlerCall) (hasked : backendCalls s.trace ≠ [])
    (hone : answers (s.handle q c).trace ≤ 1) (hguard : GuardedCall q s c) :
    Once q (s.handle q c) := by
  have hcalled := h.called c hasked
  cases c with
  | onResponseBackendComplete r =>
    have h0 : answers s.trace = 0 := unanswered_of_once hone rfl
    refine hcalled.answer (h.alarm h0) ?_ r ?_ (h.unanswered (Or.inl h0))
    · rw [answers_handle, h0]
      exact Nat.one_ne_zero
    · by_cases hs : s.responseSent = true
      · exact Or.inr (hguard hs)
      · have hunsent : s.responseSent = false := by simpa using hs
        exact Or.inl hunsent
  | sendStreamData data close =>
    have hs : s.responseSent = true := hguard
    exact hcalled.writes (sendStreamData_writes q data close _)
      (hcalled.toKept.sendStreamData hs data close) fun _ _ => Or.inl hs
  | terminateStreamWithError e =>
    have hk := hcalled.toKept.extend (u := (s.emit (.handlerCall
      (.terminateStreamWithError e))).terminateStreamWithError e) [.resetWriteSide e] rfl
      (by simp [Asserted]) rfl (fun h => h) rfl
    exact hcalled.writes (resetWriteSide_writes _ e) hk fun _ hs => Or.inl hs

theorem Once.callBackend (h : Once q s) (b : Backend) (c : BackendCall)
    (hmay : s.isConnectRequest = true ∨ s.readSideClosed = true) :
    Once q (s.callBackend q b.quiet c) := by
  have hcalls : backendCalls (s.callBackend q b.quiet c).trace = backendCalls s.trace ++ [c] :=
    backendCalls_append s.trace [.backendCall c]
  have hne : backendCalls (s.callBackend q b.quiet c).trace ≠ [] := by
    rw [hcalls]
    simp
  have hanswers : answers (s.callBackend q b.quiet c).trace = answers s.trace :=
    answers_append s.trace [.backendCall c]
  have hk : Kept q (s.callBackend q b.quiet c) :=
    h.toKept.extend [.backendCall c] rfl (by simp [Asserted]) rfl (fun h => h) rfl
  refine ⟨hk, h.complete, h.plain, ?_, ?_, ?_, fun hnone => absurd hnone hne⟩
  · rw [hanswers]
    exact h.unanswered
  · rw [hanswers]
    exact h.alarm
  · intro hc hclosed
    rcases hmay with hconnect | hclosed'
    · have hsame : (s.callBackend q b.quiet c).isConnectRequest = s.isConnectRequest := rfl
      rw [hsame, hconnect] at hc
      cases hc
    · have hsame : (s.callBackend q b.quiet c).readSideClosed = s.readSideClosed := rfl
      rw [hsame, hclosed'] at hclosed
      cases hclosed

theorem Once.extend (h : Once q s) (out : List Effect) (htrace : u.trace = s.trace ++ out)
    (hquiet : Asserted out ∧ finalHeaders q out = 0 ∧ backendCalls out = [] ∧ handlerCalls out = [])
    (fields : (u.headersComplete, u.webTransport, u.delayedResponseAlarm, u.responseSent,
        u.readingStopped, u.requestHeaders) =
      (s.headersComplete, s.webTransport, s.delayedResponseAlarm, s.responseSent,
        s.readingStopped, s.requestHeaders))
    (hclosed : s.readSideClosed = true → u.readSideClosed = true) : Once q u := by
  simp only [Prod.mk.injEq] at fields
  obtain ⟨hcomplete, hweb, halarm, hsent, hstop, hreq⟩ := fields
  obtain ⟨hassert, hfinal, hcalls, hhandler⟩ := hquiet
  have hanswers : answers u.trace = answers s.trace := by
    unfold answers
    rw [htrace, handlerCalls_append, hhandler, List.append_nil]
  have hbackend : backendCalls u.trace = backendCalls s.trace := by
    rw [htrace, backendCalls_append, hcalls, List.append_nil]
  refine ⟨h.toKept.extend out htrace hassert hfinal (fun hs => hsent.trans hs) hstop,
    hcomplete.trans h.complete, hweb.trans h.plain, ?_, ?_, ?_, ?_⟩
  · rw [hanswers, halarm, hsent, hstop]
    exact h.unanswered
  · rw [hanswers, halarm]
    exact h.alarm
  · rw [isConnectRequest_congr hreq, hbackend]
    intro hc hopen
    refine h.unasked hc ?_
    cases hs : s.readSideClosed with
    | false => rfl
    | true => exact absurd ((hclosed hs).symm.trans hopen) (by simp)
  · rw [hanswers, hbackend]
    exact h.asked

theorem Once.sendErrorResponse (h : Once q s) (hs : s.responseSent = false) {code : ℕ}
    (hcode : code = 0 ∨ code = 400 ∨ code = 502) : Once q (s.sendErrorResponse code) := by
  refine h.writes (sendErrorResponse_writes s code) (h.toKept.sendErrorResponse hs hcode) ?_
  intro _ _
  rw [sendErrorResponse_eq]
  exact Or.inr rfl

theorem Once.onBodyAvailable (h : Once q s) (b : Backend) (d : Delivery)
    (hreading : s.readingStopped = false) (hclosed : s.readSideClosed = false)
    (hguard : s.Overflows d → s.responseSent = false) :
    Once q (s.onBodyAvailable q (some b.quiet) d) := by
  have hquiet : Asserted [.onBodyAvailable d] ∧ finalHeaders q [.onBodyAvailable d] = 0 ∧
      backendCalls [.onBodyAvailable d] = [] ∧ handlerCalls [.onBodyAvailable d] = [] :=
    ⟨by simp [Asserted], rfl, rfl, rfl⟩
  have hbody : Once q (s.withBody d) := h.extend _ rfl hquiet rfl fun hc => hc
  have hread : Once q (s.withBody d).onFinRead := hbody.extend [] (by simp [onFinRead])
    ⟨by simp [Asserted], rfl, rfl, rfl⟩ rfl fun _ => rfl
  rcases onBodyAvailable_cases q (some b.quiet) s d with ⟨htakes, -⟩ | ⟨hover, body, heq⟩
  · cases hconnect : s.isConnectRequest with
    | true =>
      rw [onBodyAvailable_connect q b.quiet hconnect htakes]
      split
      · exact hread
      · have hhanding : Once q (s.handing d) := h.extend [.onBodyAvailable d, .dcheck true] rfl
          ⟨by simp [Asserted], rfl, rfl, rfl⟩ rfl fun hc => by simp [handing, hc]
        exact hhanding.callBackend b _ (Or.inl hconnect)
    | false =>
      rw [onBodyAvailable_request q (some b.quiet) hconnect htakes]
      split
      · split
        · exact hread
        · have hunsent : s.responseSent = false := by
            cases hs : s.responseSent with
            | false => rfl
            | true =>
              have h0 := h.asked (h.unasked hconnect hclosed)
              exact absurd (hreading.symm.trans (h.unanswered (Or.inl h0) hs)) (by simp)
          have hc : (s.withBody d).onFinRead.isConnectRequest = false := hconnect
          have hchecking : Once q (s.withBody d).onFinRead.checking :=
            hread.extend [.sendResponse, .dcheck true] rfl ⟨by simp [Asserted], rfl, rfl, rfl⟩ rfl
              fun hc => hc
          by_cases hchecked : Checked (s.withBody d).onFinRead
          · rw [sendResponse_of_checked q b.quiet hc hread.plain hchecked]
            exact hchecking.callBackend b _ (Or.inr rfl)
          · rw [sendResponse_of_unchecked q b.quiet hc hread.plain hchecked]
            exact hchecking.sendErrorResponse hunsent (Or.inl rfl)
      · exact hbody
  · rw [heq]
    have hemit : Once q { s.emit (.onBodyAvailable d) with body := body } :=
      h.extend [.onBodyAvailable d] rfl hquiet rfl fun hc => hc
    exact hemit.sendErrorResponse (hguard hover) (Or.inl rfl)

theorem Once.offerBody (h : Once q s) (b : Backend) (d : Delivery)
    (hguard : s.readingStopped = false → s.readSideClosed = false → s.Overflows d →
      s.responseSent = false) : Once q (s.offerBody q (some b.quiet) d) := by
  unfold QuitServerStream.offerBody
  by_cases hstop : (s.readingStopped || s.readSideClosed) = true
  · rw [if_pos hstop]
    exact h
  · rw [if_neg hstop]
    simp only [Bool.not_eq_true, Bool.or_eq_false_iff] at hstop
    exact h.onBodyAvailable b d hstop.1 hstop.2 (hguard hstop.1 hstop.2)

theorem Once.answerConnect (h : Once q s) (b : Backend) (fin : Bool) :
    Once q (s.answerConnect q (some b.quiet) fin) := by
  unfold QuitServerStream.answerConnect
  split
  · rename_i hasks
    simp only [Bool.and_eq_true] at hasks
    rw [h.plain]
    dsimp only [Option.isSome]
    rw [if_neg Bool.false_ne_true]
    exact h.callBackend b _ (Or.inl hasks.2)
  · exact h

theorem once_of_blank (hs : Blank s) (htrace : u.trace = s.trace) (hcomplete : u.headersComplete = true)
    (hplain : u.webTransport = none) (hsent : u.responseSent = false)
    (hstop : u.readingStopped = false) (halarm : u.delayedResponseAlarm = none) : Once q u := by
  have hnone : finalHeaders q u.trace = 0 := by
    rw [htrace]
    refine List.countP_eq_zero.mpr ?_
    intro e he
    rw [hs.trace e he]
    exact Bool.false_ne_true
  have hassert : Asserted u.trace := by
    intro a b hm
    rw [htrace] at hm
    exact Effect.noConfusion (hs.trace _ hm)
  have hanswers : answers u.trace = 0 := by
    have hcalls : handlerCalls u.trace = [] := by
      rw [htrace]
      refine List.filterMap_eq_nil_iff.mpr ?_
      intro e he
      rw [hs.trace e he]
    unfold answers
    rw [hcalls]
    rfl
  refine ⟨⟨hassert, by omega, fun h => ?_⟩, hcomplete, hplain, fun _ h => ?_, fun _ => halarm,
    fun _ _ => htrace ▸ hs.backendCalls, fun _ => hanswers⟩
  · rw [hstop] at h
    cases h
  · rw [hsent] at h
    cases h

theorem readHeaders_once (b : Backend) (hs : Blank s) {h : InitialHeaders}
    (hplain : h.webTransport = false) : Once q (s.readHeaders q (some b.quiet) h) := by
  unfold QuitServerStream.readHeaders
  by_cases hv : h.Valid
  · have hopen : Once q (s.opened h) := once_of_blank hs rfl rfl (if_neg (by simp [hplain]))
      hs.responseSent hs.readingStopped hs.alarm
    rw [headersRead_valid hs hv]
    unfold consumeHeaderList
    cases h.bodyAvailable with
    | none => exact hopen
    | some d => exact hopen.offerBody b d fun _ _ _ => hs.responseSent
  · obtain ⟨u, code, heq, hcode, hu⟩ := headersRead_invalid hs hv
    rw [heq, rejected_consumeHeaderList]
    have hweb : u.webTransport = none := by
      cases hw : u.webTransport with
      | none => rfl
      | some w => exact absurd (hu.webTransport w hw).2 (by simp [hplain])
    have honce : Once q u := once_of_blank hs hu.trace hu.complete hweb hu.responseSent
      hu.readingStopped hu.alarm
    exact honce.sendErrorResponse hu.responseSent (hcode.imp_right Or.inl)

def Bounded (s : QuitServerStream) : Prop := s.readingStopped = false → s.BodyFits

theorem Bounded.responds (h : Bounded s) (hr : Responds s u) : Bounded u := by
  intro hu
  have hs : s.readingStopped = false := by
    cases hstop : s.readingStopped with
    | false => rfl
    | true => exact absurd ((hr.readingStopped hstop).symm.trans hu) (by simp)
  unfold BodyFits
  rw [hr.contentLength, hr.body]
  exact h hs

theorem Bounded.callBackend (h : Bounded s) (b : Backend) (c : BackendCall) :
    Bounded (s.callBackend q b c) := by
  have hcalled : Bounded (s.emit (.backendCall c)) := h
  exact hcalled.responds (callBackend_responds q b c s)

theorem bounded_sendErrorResponse (s : QuitServerStream) (code : ℕ) :
    Bounded (s.sendErrorResponse code) := by
  intro hu
  rw [sendErrorResponse_eq] at hu
  cases hu

theorem bounded_of_nil (hbody : s.body = []) : Bounded s := by
  intro _ h0
  rw [hbody]
  exact h0

theorem Bounded.offerBody (h : Bounded s) (hplain : s.webTransport = none) (b : Backend)
    (d : Delivery) : Bounded (s.offerBody q (some b) d) := by
  unfold QuitServerStream.offerBody
  by_cases hstop : (s.readingStopped || s.readSideClosed) = true
  · rw [if_pos hstop]
    exact h
  · rw [if_neg hstop]
    simp only [Bool.not_eq_true, Bool.or_eq_false_iff] at hstop
    rcases onBodyAvailable_cases q (some b) s d with ⟨htakes, hfits⟩ | ⟨-, body, heq⟩
    · have hbody : Bounded (s.withBody d) := fun _ => hfits (h hstop.1)
      have hread : Bounded (s.withBody d).onFinRead := fun _ => hfits (h hstop.1)
      cases hconnect : s.isConnectRequest with
      | true =>
        rw [onBodyAvailable_connect q b hconnect htakes]
        split
        · exact hread
        · have hhanding : Bounded (s.handing d) := bounded_of_nil rfl
          exact hhanding.callBackend b _
      | false =>
        rw [onBodyAvailable_request q (some b) hconnect htakes]
        split_ifs
        · exact hread
        · have hc : (s.withBody d).onFinRead.isConnectRequest = false := hconnect
          have hw : (s.withBody d).onFinRead.webTransport = none := hplain
          by_cases hchecked : Checked (s.withBody d).onFinRead
          · rw [sendResponse_of_checked q b hc hw hchecked]
            have hchecking : Bounded (s.withBody d).onFinRead.checking := hread
            exact hchecking.callBackend b _
          · rw [sendResponse_of_unchecked q b hc hw hchecked]
            exact bounded_sendErrorResponse _ 0
        · exact hbody
    · rw [heq]
      exact bounded_sendErrorResponse _ 0

theorem readHeaders_bounded (b : Backend) (hs : Blank s) {h : InitialHeaders}
    (hplain : h.webTransport = false) : Bounded (s.readHeaders q (some b) h) := by
  unfold QuitServerStream.readHeaders
  by_cases hv : h.Valid
  · have hweb : (s.opened h).webTransport = none := if_neg (by simp [hplain])
    have hopen : Bounded (s.opened h) := bounded_of_nil hs.body
    rw [headersRead_valid hs hv]
    unfold consumeHeaderList
    cases h.bodyAvailable with
    | none => exact hopen
    | some d => exact hopen.offerBody hweb b d
  · obtain ⟨u, code, heq, -⟩ := headersRead_invalid hs hv
    rw [heq, rejected_consumeHeaderList]
    exact bounded_sendErrorResponse u code

theorem Bounded.answerConnect (h : Bounded s) (hplain : s.webTransport = none) (b : Backend)
    (fin : Bool) : Bounded (s.answerConnect q (some b) fin) := by
  unfold QuitServerStream.answerConnect
  split
  · rw [hplain]
    dsimp only [Option.isSome]
    rw [if_neg Bool.false_ne_true]
    exact h.callBackend b _
  · exact h

end

structure OnceRun (q : Platform) (s : QuitServerStream) : Prop where
  phase : Blank s ∨ Once q s
  bounded : Bounded s

section
variable {q : Platform} {b : Backend} {s : QuitServerStream}

theorem onceRun_new (q : Platform) (id : StreamId) : OnceRun q (.new id) :=
  ⟨Or.inl (new_blank id), bounded_of_nil rfl⟩

theorem OnceRun.sentOnce (h : OnceRun q s) : SentOnce q s := by
  rcases h.phase with hs | hs
  · have hkept : Once q { s with headersComplete := true } := once_of_blank hs rfl rfl
      hs.webTransport hs.responseSent hs.readingStopped hs.alarm
    refine ⟨le_trans hkept.finals ?_, hkept.asserted⟩
    split <;> decide
  · refine ⟨le_trans hs.finals ?_, hs.asserted⟩
    split <;> decide

theorem Once.onAlarm (h : Once q s)
    (hguard : s.responseSent = true → ∀ r, s.delayedResponseAlarm = some r → Silent q s r) :
    Once q (s.onAlarm q) := by
  unfold QuitServerStream.onAlarm
  cases halarm : s.delayedResponseAlarm with
  | none => exact h
  | some r =>
    have hanswered : answers s.trace ≠ 0 := fun h0 => by
      rw [h.alarm h0] at halarm
      cases halarm
    have hk : Kept q { s with delayedResponseAlarm := none } :=
      h.toKept.extend [] (by simp) (by simp [Asserted]) rfl (fun h => h) rfl
    have hfired : Once q { s with delayedResponseAlarm := none } :=
      ⟨hk, h.complete, h.plain, fun hw => absurd hw (by simp [hanswered]), fun _ => rfl, h.unasked,
        h.asked⟩
    have hsilent : s.responseSent = false ∨ Silent q s r := by
      by_cases hs : s.responseSent = true
      · exact Or.inr (hguard hs r halarm)
      · exact Or.inl (by simpa using hs)
    exact hfired.writes (respond_writes q r _) (hk.respond r hsilent)
      fun hw => absurd hw (by simp [hanswered])

theorem Once.operate (h : Once q s) (o : Operation) (hone : answers (operate q b s o).trace ≤ 1)
    (hguard : Guarded q s o) : Once q (operate q b s o) := by
  cases o with
  | readHeaders headers =>
    simp only [ServerStream.operate, h.complete, if_true]
    exact h
  | answerConnect fin => exact h.answerConnect b fin
  | bodyAvailable d =>
    simp only [ServerStream.operate, step, h.complete, if_true]
    exact h.offerBody b d (hguard h.complete)
  | handlerCall c =>
    simp only [ServerStream.operate, step] at hone ⊢
    by_cases hasked : s.trace.any Effect.isBackendCall = true
    · rw [if_pos hasked] at hone ⊢
      have hne : backendCalls s.trace ≠ [] := fun hnone => by
        rw [any_isBackendCall.mpr hnone] at hasked
        cases hasked
      exact h.handle c hne hone (hguard hasked)
    · rw [if_neg hasked]
      exact h
  | alarm => exact h.onAlarm hguard
  | canWrite =>
    have hemit : Once q (s.emit .onCanWrite) :=
      h.extend [.onCanWrite] rfl ⟨by simp [Asserted], rfl, rfl, rfl⟩ rfl fun hc => hc
    have hw := writeGeneratedBytes_writes q (s.emit .onCanWrite)
    refine hemit.writes hw hemit.toKept.writeGeneratedBytes fun _ hsent => Or.inl ?_
    exact (writeGeneratedBytes_responseSent q (s.emit .onCanWrite)).symm.trans hsent
  | writeSideClosed =>
    exact h.extend [] (by simp [ServerStream.operate, step])
      ⟨by simp [Asserted], rfl, rfl, rfl⟩ rfl fun hc => hc

theorem OnceRun.keep (h : OnceRun q s) (o : Operation) (hone : answers (operate q b s o).trace ≤ 1)
    (hplain : ∀ headers, o = .readHeaders headers → headers.webTransport = false)
    (hguard : Guarded q s o) : OnceRun q (operate q b s o) := by
  rcases h.phase with hs | hs
  · have hstep : ∀ e, (∀ headers, e ≠ .initialHeaders headers) → OnceRun q (step q b.quiet s e) := by
      intro e he
      have hblank := hs.step q b.quiet he
      exact ⟨Or.inl hblank, bounded_of_nil hblank.body⟩
    cases o with
    | readHeaders headers =>
      have hread : operate q b s (.readHeaders headers) = s.readHeaders q (some b.quiet) headers :=
        if_neg (by simp [hs.headersComplete])
      rw [hread]
      exact ⟨Or.inr (readHeaders_once b hs (hplain headers rfl)),
        readHeaders_bounded b.quiet hs (hplain headers rfl)⟩
    | answerConnect fin =>
      have hidle : operate q b s (.answerConnect fin) = s := answerConnect_blank fin hs
      rw [hidle]
      exact h
    | bodyAvailable d => exact hstep (.bodyAvailable d) nofun
    | handlerCall c => exact hstep (.handlerCall c) nofun
    | alarm => exact hstep .alarm nofun
    | canWrite => exact hstep .canWrite nofun
    | writeSideClosed => exact hstep .writeSideClosed nofun
  · refine ⟨Or.inr (hs.operate o hone hguard), ?_⟩
    cases o with
    | readHeaders headers =>
      simp only [operate, hs.complete, if_true]
      exact h.bounded
    | answerConnect fin => exact h.bounded.answerConnect hs.plain b.quiet fin
    | bodyAvailable d =>
      simp only [operate, step, hs.complete, if_true]
      exact h.bounded.offerBody hs.plain b.quiet d
    | handlerCall c =>
      simp only [operate, step]
      split
      · exact h.bounded.responds (handle_responds q c s)
      · exact h.bounded
    | alarm => exact h.bounded.responds (onAlarm_responds q s)
    | canWrite =>
      have hemit : Bounded (s.emit .onCanWrite) := h.bounded
      exact hemit.responds (writeGeneratedBytes_writes q (s.emit .onCanWrite)).toResponds
    | writeSideClosed => exact h.bounded

theorem finalHeaders_mono {u : QuitServerStream} (hr : Responds s u) :
    finalHeaders q s.trace ≤ finalHeaders q u.trace := hr.isPrefix.sublist.countP_le

theorem not_sentOnce_of_mem {a : Bool} (hm : .dcheckNe a a ∈ s.trace) : ¬ SentOnce q s :=
  fun hs => hs.2 a a hm rfl

theorem sentOnce_of_isPrefix {u : QuitServerStream} (hpre : s.trace <+: u.trace) (hu : SentOnce q u) :
    SentOnce q s :=
  ⟨le_trans hpre.sublist.countP_le hu.1, fun a b hm => hu.2 a b (hpre.subset hm)⟩

theorem mem_of_asserts {u : QuitServerStream} {a : Bool} (hs : s.responseSent = a)
    (hw : Writes (s.emit (.dcheckNe a s.responseSent)) u) : .dcheckNe a a ∈ u.trace := by
  refine hw.toResponds.isPrefix.subset ?_
  rw [hs]
  exact List.mem_append_right _ (List.mem_singleton_self _)

theorem sendErrorResponse_again (hs : s.responseSent = true) (code : ℕ) :
    ¬ SentOnce q (s.sendErrorResponse code) := by
  refine not_sentOnce_of_mem (a := true) ?_
  rw [sendErrorResponse_eq, hs]
  simp

theorem sendNotFoundResponse_again (hs : s.responseSent = true) :
    ¬ SentOnce q s.sendNotFoundResponse := by
  unfold sendNotFoundResponse sendHeadersAndBody
  exact not_sentOnce_of_mem (mem_of_asserts hs (sendHeadersAndBodyAndTrailers_asserts s (some _) _ ∅))

theorem respond_again (hs : s.responseSent = true) (hone : finalHeaders q s.trace = 1)
    {r : QuicBackendResponse} (hr : ¬ Silent q s r) : ¬ SentOnce q (s.respond q r) := by
  have hw := earlyHints_writes r.earlyHints s
  have hsent := hw.responseSent hs
  have hfinal : 1 ≤ finalHeaders q
      (r.earlyHints.foldl (fun s headers => s.writeHeaders .earlyHints headers false) s).trace := by
    rw [← hone]
    exact finalHeaders_mono hw.toResponds
  unfold respond
  dsimp only
  generalize r.earlyHints.foldl (fun s headers => s.writeHeaders .earlyHints headers false) s = w
    at hw hsent hfinal ⊢
  split_ifs with hclose hignore herr hmissing hincomplete hgenerate
  · exact absurd (Or.inl hclose) hr
  · exact absurd (Or.inr (Or.inl hignore)) hr
  · exact sendErrorResponse_again hsent 502
  · exact sendErrorResponse_again hsent 0
  · exact not_sentOnce_of_mem
      (mem_of_asserts hsent (sendIncompleteResponse_asserts q w (some r.headers) r.body))
  · unfold respondGenerateBytes
    have hloud : ¬ Silent q w r := by
      unfold Silent
      rw [hw.requestHeaders]
      exact hr
    cases hpath : w.requestHeaders.asString ":path" with
    | nil =>
      refine absurd (Or.inr (Or.inr ⟨hgenerate, hmissing, ?_⟩)) hloud
      rw [hpath]
      trivial
    | cons c path =>
      dsimp only
      by_cases hatoi : (q.simpleAtoi path).1 = true
      · rw [if_pos hatoi]
        -- The header block of the error response was the first one, this one is the second.
        have hblock : isFinalHeaders q (.writeHeaders .response (r.headers.set "content-length"
            (strCat (q.simpleAtoi path).2)) false) = true := by
          refine decide_eq_true fun hcode => hloud (Or.inr (Or.inr ⟨hgenerate, hmissing, ?_⟩))
          rw [hpath]
          exact ⟨hatoi, hcode⟩
        intro honce
        have hle := le_trans (finalHeaders_mono (writeGeneratedBytes_writes q _).toResponds) honce.1
        simp only [writeHeaders, emit, finalHeaders_append] at hle
        have hsecond : finalHeaders q [.writeHeaders .response (r.headers.set "content-length"
            (strCat (q.simpleAtoi path).2)) false] = 1 := by
          unfold finalHeaders
          rw [List.countP_singleton, hblock]
          rfl
        omega
      · rw [if_neg hatoi]
        exact sendNotFoundResponse_again hsent
  · exact not_sentOnce_of_mem
      (mem_of_asserts hsent (sendHeadersAndBodyAndTrailers_asserts w (some r.headers) r.body r.trailers))

theorem blank_guarded (hs : Blank s) (o : Operation) : Guarded q s o := by
  cases o with
  | bodyAvailable d =>
    intro hcomplete
    rw [hs.headersComplete] at hcomplete
    cases hcomplete
  | handlerCall c =>
    intro hasked
    rw [hs.trace_any (p := Effect.isBackendCall) rfl] at hasked
    cases hasked
  | alarm =>
    intro hsent
    rw [hs.responseSent] at hsent
    cases hsent
  | readHeaders h => trivial
  | answerConnect fin => trivial
  | canWrite => trivial
  | writeSideClosed => trivial

theorem answer_again (hs : s.responseSent = true) (hone : finalHeaders q s.trace = 1)
    {r : Option QuicBackendResponse}
    (hr : ¬ ∃ response, r = some response ∧ (response.delay ≠ 0 ∨ Silent q s response)) :
    ¬ SentOnce q (s.handle q (.onResponseBackendComplete r)) := by
  have hcall : finalHeaders q (s.emit (.handlerCall (.onResponseBackendComplete r))).trace = 1 :=
    (finalHeaders_append q s.trace [.handlerCall (.onResponseBackendComplete r)]).trans hone
  cases r with
  | none => exact sendNotFoundResponse_again hs
  | some r =>
    simp only [Option.some.injEq, exists_eq_left', not_or, not_not] at hr
    obtain ⟨hdelay, hloud⟩ := hr
    have hresponse : s.handle q (.onResponseBackendComplete (some r)) =
        (s.emit (.handlerCall (.onResponseBackendComplete (some r)))).respond q r := if_pos hdelay
    rw [hresponse]
    exact respond_again (s := s.emit (.handlerCall (.onResponseBackendComplete (some r)))) hs hcall hloud

theorem sendStreamData_early (hs : s.responseSent = false) (data : Str) (close : Bool) :
    ¬ SentOnce q (s.handle q (.sendStreamData data close)) := by
  have hw := fun w : QuitServerStream => sendHeadersAndBodyAndTrailers_asserts w none data ∅
  have hw' := fun w : QuitServerStream => sendIncompleteResponse_asserts q w none data
  refine not_sentOnce_of_mem (a := false) ?_
  cases close with
  | true => exact mem_of_asserts (s := (s.emit (.handlerCall (.sendStreamData data true))).emit
      (.dcheck (!data.isEmpty || true))) hs (hw _)
  | false => exact mem_of_asserts (s := (s.emit (.handlerCall (.sendStreamData data false))).emit
      (.dcheck (!data.isEmpty || false))) hs (hw' _)

theorem Once.call_broken (h : Once q s) {c : HandlerCall} (hone : answers (s.handle q c).trace ≤ 1)
    (hguard : ¬ GuardedCall q s c) : ¬ SentOnce q (s.handle q c) := by
  cases c with
  | onResponseBackendComplete r =>
    simp only [GuardedCall, not_forall] at hguard
    obtain ⟨hsent, hloud⟩ := hguard
    have hstop := h.unanswered (Or.inl (unanswered_of_once hone rfl)) hsent
    exact answer_again hsent (h.stopped hstop).2 hloud
  | sendStreamData data close =>
    have hunsent : s.responseSent = false := by simpa [GuardedCall] using hguard
    exact sendStreamData_early hunsent data close
  | terminateStreamWithError e => exact absurd trivial hguard

theorem OnceRun.broken (h : OnceRun q s) {o : Operation} (hone : answers (operate q b s o).trace ≤ 1)
    (hguard : ¬ Guarded q s o) : ¬ SentOnce q (operate q b s o) := by
  rcases h.phase with hs | hs
  · exact absurd (blank_guarded hs o) hguard
  · cases o with
    | bodyAvailable d =>
      simp only [Guarded, not_forall] at hguard
      obtain ⟨hcomplete, hreading, hclosed, hover, hsent⟩ := hguard
      have hoffer : operate q b s (.bodyAvailable d) = s.onBodyAvailable q (some b.quiet) d := by
        simp [operate, step, offerBody, hcomplete, hreading, hclosed]
      rw [hoffer]
      rcases onBodyAvailable_cases q (some b.quiet) s d with ⟨-, hfits⟩ | ⟨-, body, heq⟩
      · exact absurd hover (fits_withBody.mp (hfits (h.bounded hreading)))
      · rw [heq]
        have hflag : s.responseSent = true := by simpa using hsent
        exact sendErrorResponse_again (s := { s.emit (.onBodyAvailable d) with body := body }) hflag 0
    | handlerCall c =>
      simp only [Guarded, not_forall] at hguard
      obtain ⟨hasked, hcall⟩ := hguard
      simp only [operate, step, hasked, if_true] at hone ⊢
      exact hs.call_broken hone hcall
    | alarm =>
      simp only [Guarded, not_forall] at hguard
      obtain ⟨hsent, r, halarm, hloud⟩ := hguard
      have hstop := hs.unanswered (Or.inr (by simp [halarm])) hsent
      simp only [operate, step, onAlarm, halarm]
      exact respond_again (s := { s with delayedResponseAlarm := none }) hsent (hs.stopped hstop).2 hloud
    | readHeaders h => exact absurd trivial hguard
    | answerConnect fin => exact absurd trivial hguard
    | canWrite => exact absurd trivial hguard
    | writeSideClosed => exact absurd trivial hguard

end

/-- With a backend that answers at most once, there is at most one final response and no failed
    assertion in any state of the run, exactly when every operation is guarded. -/
theorem sent_once_iff_guarded (q : Platform) (b : Backend) (id : StreamId) (events : List Event)
    (hplain : ∀ h, .initialHeaders h ∈ events → h.webTransport = false)
    (hone : answers (run q b id events).trace ≤ 1) :
    StepMachine.Always (step q b) (SentOnce q) (.new id) events ↔
      StepMachine.Each (operate q b) (Guarded q) (.new id) (operationsOf q b (.new id) events) := by
  have hsame := after_operationsOf q b (.new id) events
  have hanswered : StepMachine.Each (operate q b) (fun s o => answers (operate q b s o).trace ≤ 1)
      (.new id) (operationsOf q b (.new id) events) := by
    refine (StepMachine.each_of_after (D := fun s : QuitServerStream => answers s.trace ≤ 1) ?_ ?_).2
    · intro s o hu
      exact le_trans (answers_isPrefix (operate_isPrefix q b s o)) hu
    · rw [hsame]
      exact hone
  have hlabels : StepMachine.Each (operate q b)
      (fun _ o => ∀ h, o = .readHeaders h → h.webTransport = false)
      (.new id) (operationsOf q b (.new id) events) := by
    refine StepMachine.each_of_labels (new id) ?_
    rintro o ho h rfl
    exact hplain h (mem_of_readHeaders ho)
  -- No operation takes a final block or a failed assertion back, so that the last state decides.
  rw [StepMachine.always_iff_after fun s e => sentOnce_of_isPrefix (step_isPrefix q b s e), ← hsame,
    ← StepMachine.always_iff_after fun s o => sentOnce_of_isPrefix (operate_isPrefix q b s o)]
  refine StepMachine.always_iff_each (I := OnceRun q) (fun s hs => hs.sentOnce) ?_ ?_
    (onceRun_new q id) (hanswered.and hlabels)
  · intro s o hs hassumed hguard
    exact hs.keep o hassumed.1 hassumed.2 hguard
  · intro s o hs hassumed hguard
    exact hs.broken hassumed.1 hguard

def acceptingBackend : Backend where
  react trace := match trace.getLast? with
    | some (.backendCall (.handleConnectHeaders _)) => [.onResponseBackendComplete (some
        { QuicBackendResponse.new with
          responseType := .incompleteResponse
          headers := Http2HeaderBlock.set ∅ ":status" "200" })]
    | _ => []
  processWebTransportRequest _ _ := ⟨Http2HeaderBlock.set ∅ ":status" "404", none⟩

def shortConnect : InitialHeaders := { connectHeaders false none with contentLength := 1 }

def shortRun : List Event :=
  [.initialHeaders shortConnect, .bodyAvailable ⟨["a"], false⟩, .handlerCall (.sendStreamData "b" true)]

theorem sent_once_short :
    StepMachine.Always (step plainPlatform acceptingBackend) (SentOnce plainPlatform) (.new 0)
      shortRun := by
  refine (sent_once_iff_guarded plainPlatform acceptingBackend 0 shortRun ?_ ?_).mpr ?_
  · intro h hm
    have heq : h = shortConnect := by simpa [shortRun] using hm
    rw [heq]
    rfl
  · exact Nat.le_refl 1
  · refine ⟨trivial, trivial, ?_, ?_, ?_, trivial⟩
    · intro _ hsent
      cases hsent
    · rintro - - - ⟨-, hlt⟩
      exact absurd hlt (by decide)
    · intro _
      rfl

theorem sent_twice :
    shortConnect.webTransport = false ∧
      answers (run plainPlatform acceptingBackend 0
        [.initialHeaders shortConnect, .bodyAvailable ⟨["ab"], false⟩]).trace ≤ 1 ∧
      finalHeaders plainPlatform (run plainPlatform acceptingBackend 0
        [.initialHeaders shortConnect, .bodyAvailable ⟨["ab"], false⟩]).trace = 2 ∧
      ¬ Asserted (run plainPlatform acceptingBackend 0
        [.initialHeaders shortConnect, .bodyAvailable ⟨["ab"], false⟩]).trace := by
  refine ⟨rfl, Nat.le_refl 1, by decide +kernel, fun h => h true true ?_ rfl⟩
  refine List.mem_of_getElem? (i := 6) ?_
  rfl

end QuailServer.ResponseOnce
