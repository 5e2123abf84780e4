import QuailServer.StreamRuns

set_option autoImplicit false

namespace QuailServer.ServerStream
open HeaderBlock WebTransport
namespace QuitServerStream

def BodyFits (s : QuitServerStream) : Prop := 0 ≤ s.contentLength → s.body.length ≤ s.contentLength

def Overflows (s : QuitServerStream) (d : Delivery) : Prop :=
  0 ≤ s.contentLength ∧ s.contentLength < (s.body ++ d.bytes).length

/-- The loop appends all regions, or it stops at the first one that brings the body over
    `content_length_`. -/
theorem readRegions_cases (regions : List Str) (s : QuitServerStream) :
    (readRegions regions s = ({ s with body := s.body ++ regions.flatten }, false) ∧
        (s.BodyFits → BodyFits { s with body := s.body ++ regions.flatten })) ∨
      (0 ≤ s.contentLength ∧ s.contentLength < (s.body ++ regions.flatten).length ∧
        ∃ body, readRegions regions s = (sendErrorResponse 0 { s with body := body }, true)) := by
  induction regions generalizing s with
  | nil =>
    refine Or.inl ⟨by simp [readRegions], ?_⟩
    simp
  | cons region regions ih =>
    by_cases hover : 0 ≤ s.contentLength ∧ s.contentLength < (s.body ++ region).length
    · refine Or.inr ⟨hover.1, ?_, s.body ++ region, ?_⟩
      · have h := hover.2
        simp only [List.length_append, List.flatten_cons] at h ⊢
        omega
      · simp only [readRegions]
        rw [if_pos hover]
    · have hnext : readRegions (region :: regions) s =
          readRegions regions { s with body := s.body ++ region } := by
        simp only [readRegions]
        rw [if_neg hover]
      have hfits : BodyFits { s with body := s.body ++ region } := by
        intro h0
        have hnot : ¬ s.contentLength < (s.body ++ region).length := fun h => hover ⟨h0, h⟩
        exact Int.not_lt.mp hnot
      rcases ih { s with body := s.body ++ region } with ⟨heq, hb⟩ | ⟨h0, hlt, body, heq⟩
      · refine Or.inl ⟨?_, ?_⟩
        · rw [hnext, heq, List.flatten_cons, List.append_assoc]
        · intro _
          have h := hb hfits
          simp only [List.flatten_cons, ← List.append_assoc]
          exact h
      · refine Or.inr ⟨h0, ?_, body, hnext.trans heq⟩
        simpa only [List.flatten_cons, List.append_assoc] using hlt

def withBody (s : QuitServerStream) (d : Delivery) : QuitServerStream :=
  { s.emit (.onBodyAvailable d) with body := s.body ++ d.bytes }

def Takes (s : QuitServerStream) (d : Delivery) : Prop :=
  readRegions d.regions (s.emit (.onBodyAvailable d)) = (s.withBody d, false)

theorem fits_withBody {s : QuitServerStream} {d : Delivery} :
    (s.withBody d).BodyFits ↔ ¬ s.Overflows d := by
  unfold BodyFits Overflows withBody emit
  simp only [not_and, Int.not_lt]

theorem onBodyAvailable_cases (q : Platform) (b : Option Backend) (s : QuitServerStream)
    (d : Delivery) :
    (s.Takes d ∧ (s.BodyFits → (s.withBody d).BodyFits)) ∨
    (s.Overflows d ∧ ∃ body, s.onBodyAvailable q b d =
      sendErrorResponse 0 { s.emit (.onBodyAvailable d) with body := body }) := by
  rcases readRegions_cases d.regions (s.emit (.onBodyAvailable d)) with
    ⟨heq, hfits⟩ | ⟨h0, hlt, body, heq⟩
  · exact Or.inl ⟨heq, hfits⟩
  · refine Or.inr ⟨⟨h0, hlt⟩, body, ?_⟩
    unfold onBodyAvailable
    rw [heq]

theorem takes_of_fits {s : QuitServerStream} {d : Delivery} (h : ¬ s.Overflows d) : s.Takes d := by
  rcases readRegions_cases d.regions (s.emit (.onBodyAvailable d)) with ⟨heq, _⟩ | ⟨h0, hlt, _⟩
  · exact heq
  · exact absurd ⟨h0, hlt⟩ h

def handing (s : QuitServerStream) (d : Delivery) : QuitServerStream :=
  { s with
    trace := s.trace ++ [.onBodyAvailable d, .dcheck true]
    body := []
    readSideClosed := s.readSideClosed || d.fin }

def handingCall (s : QuitServerStream) (d : Delivery) : BackendCall :=
  .handleConnectData (s.body ++ d.bytes) d.fin

theorem isConnectRequest_congr {s u : QuitServerStream} (h : u.requestHeaders = s.requestHeaders) :
    u.isConnectRequest = s.isConnectRequest := by
  unfold isConnectRequest
  rw [h]

/-- A delivery on a CONNECT request goes to the backend at once. Only a FIN that comes after the
    write side has ended is kept from it. -/
theorem onBodyAvailable_connect (q : Platform) (b : Backend) {s : QuitServerStream} {d : Delivery}
    (hc : s.isConnectRequest = true) (htakes : s.Takes d) :
    s.onBodyAvailable q (some b) d =
      if d.fin && s.writeEnded then (s.withBody d).onFinRead
      else (s.handing d).callBackend q b (s.handingCall d) := by
  have hconnect : ∀ u : QuitServerStream, u.requestHeaders = s.requestHeaders →
      u.isConnectRequest = true := fun u hu => (isConnectRequest_congr hu).trans hc
  have hended : (s.writeSideClosed || s.finBuffered) = s.writeEnded := rfl
  unfold onBodyAvailable
  rw [htakes]
  cases hfin : d.fin with
  | false =>
    simp [hconnect, withBody, handing, handingCall, emit, handleRequestConnectData, hfin]
  | true =>
    cases hend : s.writeEnded with
    | true => simp [onFinRead, withBody, emit, hended, hend]
    | false =>
      simp [onFinRead, withBody, handing, handingCall, emit, hended, hend, hconnect,
        handleRequestConnectData, hfin]

theorem onBodyAvailable_request (q : Platform) (b : Option Backend) {s : QuitServerStream}
    {d : Delivery} (hc : s.isConnectRequest = false) (htakes : s.Takes d) :
    s.onBodyAvailable q b d =
      if d.fin then
        if s.writeEnded then (s.withBody d).onFinRead else (s.withBody d).onFinRead.sendResponse q b
      else s.withBody d := by
  have hconnect : ∀ u : QuitServerStream, u.requestHeaders = s.requestHeaders →
      u.isConnectRequest = false := fun u hu => (isConnectRequest_congr hu).trans hc
  have hended : (s.writeSideClosed || s.finBuffered) = s.writeEnded := rfl
  unfold onBodyAvailable
  rw [htakes]
  cases hfin : d.fin with
  | false => simp [hconnect, withBody, emit]
  | true => simp [onFinRead, withBody, emit, hended, hconnect]

def checking (s : QuitServerStream) : QuitServerStream :=
  { s with trace := s.trace ++ [.sendResponse, .dcheck true] }

structure Checked (s : QuitServerStream) : Prop where
  authority : s.requestHeaders.find ":authority" ≠ none
  path : s.requestHeaders.find ":path" ≠ none
  length : 0 < s.contentLength → s.contentLength = s.body.length

theorem sendResponse_checking (q : Platform) (b : Backend) {s : QuitServerStream}
    (hc : s.isConnectRequest = false) (hweb : s.webTransport = none) :
    s.sendResponse q (some b) =
      if s.requestHeaders.empty then (checking s).sendErrorResponse 0
      else if 0 < s.contentLength ∧ s.contentLength ≠ s.body.length then
        (checking s).sendErrorResponse 0
      else if s.requestHeaders.find ":authority" = none then (checking s).sendErrorResponse 0
      else if s.requestHeaders.find ":path" = none then (checking s).sendErrorResponse 0
      else (checking s).callBackend q b (.fetchResponseFromBackend s.requestHeaders s.body) := by
  have hchecking : (s.emit .sendResponse).emit (.dcheck !s.isConnectRequest) = checking s := by
    simp [hc, checking, emit]
  have hplain : (checking s).webTransport = none := hweb
  unfold sendResponse
  dsimp only
  rw [hchecking, hplain]
  rfl

theorem sendResponse_of_checked (q : Platform) (b : Backend) {s : QuitServerStream}
    (hc : s.isConnectRequest = false) (hweb : s.webTransport = none) (hs : Checked s) :
    s.sendResponse q (some b) =
      (checking s).callBackend q b (.fetchResponseFromBackend s.requestHeaders s.body) := by
  rw [sendResponse_checking q b hc hweb, if_neg (by simp [Http2HeaderBlock.empty_of_find hs.path]),
    if_neg fun hl => hl.2 (hs.length hl.1), if_neg hs.authority, if_neg hs.path]

theorem sendResponse_of_unchecked (q : Platform) (b : Backend) {s : QuitServerStream}
    (hc : s.isConnectRequest = false) (hweb : s.webTransport = none) (hs : ¬ Checked s) :
    s.sendResponse q (some b) = (checking s).sendErrorResponse 0 := by
  rw [sendResponse_checking q b hc hweb]
  split_ifs with hempty hlength hauthority hpath
  · rfl
  · rfl
  · rfl
  · rfl
  · refine absurd ⟨hauthority, hpath, fun hpos => ?_⟩ hs
    by_contra hne
    exact hlength ⟨hpos, hne⟩

theorem Responds.isPrefix {s u : QuitServerStream} (h : Responds s u) : s.trace <+: u.trace := by
  obtain ⟨out, htrace, -⟩ := h.trace
  exact ⟨out, htrace.symm⟩

theorem emit_isPrefix (e : Effect) (s : QuitServerStream) : s.trace <+: (s.emit e).trace :=
  List.prefix_append _ _

theorem callBackend_isPrefix (q : Platform) (b : Backend) (c : BackendCall) (s : QuitServerStream) :
    s.trace <+: (s.callBackend q b c).trace :=
  (emit_isPrefix (.backendCall c) s).trans (callBackend_responds q b c s).isPrefix

theorem processWebTransport_isPrefix (b : Backend) (s : QuitServerStream) :
    s.trace <+: (s.processWebTransport b).trace := by
  unfold processWebTransport
  dsimp only
  split
  · cases (b.processWebTransportRequest s.requestHeaders s.id).visitor with
    | none => exact ((List.prefix_append _ _).trans (List.prefix_append _ _)).trans (List.prefix_append _ _)
    | some visitor =>
      exact (((List.prefix_append _ _).trans (List.prefix_append _ _)).trans
        (List.prefix_append _ _)).trans (List.prefix_append _ _)
  · exact (List.prefix_append _ _).trans (List.prefix_append _ _)

theorem readRegions_isPrefix (regions : List Str) (s : QuitServerStream) :
    s.trace <+: (readRegions regions s).1.trace := by
  rcases readRegions_cases regions s with ⟨heq, -⟩ | ⟨-, -, body, heq⟩
  · simp [heq]
  · rw [heq]
    exact (sendErrorResponse_writes { s with body := body } 0).toResponds.isPrefix

theorem sendResponse_isPrefix (q : Platform) (b : Option Backend) (s : QuitServerStream) :
    s.trace <+: (s.sendResponse q b).trace := by
  have hcheck : s.trace <+: ((s.emit .sendResponse).emit (.dcheck !s.isConnectRequest)).trace :=
    (emit_isPrefix _ s).trans (emit_isPrefix _ _)
  refine hcheck.trans ?_
  unfold sendResponse
  dsimp only
  have herror := (sendErrorResponse_writes
    ((s.emit .sendResponse).emit (.dcheck !s.isConnectRequest)) 0).toResponds.isPrefix
  cases b with
  | none => split_ifs <;> exact herror
  | some b =>
    dsimp only
    split_ifs
    · exact herror
    · exact herror
    · exact herror
    · exact herror
    · exact processWebTransport_isPrefix b _
    · exact callBackend_isPrefix q b _ _

theorem handleRequestConnectData_isPrefix (q : Platform) (b : Option Backend) (fin : Bool)
    (s : QuitServerStream) : s.trace <+: (s.handleRequestConnectData q b fin).trace := by
  refine (emit_isPrefix (.dcheck s.isConnectRequest) s).trans ?_
  cases b with
  | none => exact (resetWriteSide_writes _ _).toResponds.isPrefix
  | some b => exact callBackend_isPrefix q b _ { s.emit (.dcheck s.isConnectRequest) with body := [] }

theorem offerBody_isPrefix (q : Platform) (b : Option Backend) (d : Delivery)
    (s : QuitServerStream) : s.trace <+: (s.offerBody q b d).trace := by
  unfold offerBody
  split
  · exact List.prefix_rfl
  · have hread := (emit_isPrefix (.onBodyAvailable d) s).trans
      (readRegions_isPrefix d.regions (s.emit (.onBodyAvailable d)))
    unfold onBodyAvailable
    split
    · rename_i w heq
      rw [heq] at hread
      exact hread
    · rename_i w heq
      rw [heq] at hread
      refine hread.trans ?_
      dsimp only
      split_ifs
      · exact handleRequestConnectData_isPrefix q b false w
      · exact List.prefix_rfl
      · exact List.prefix_rfl
      · exact handleRequestConnectData_isPrefix q b true w.onFinRead
      · exact sendResponse_isPrefix q b w.onFinRead

theorem answerConnect_isPrefix (q : Platform) (b : Option Backend) (fin : Bool)
    (s : QuitServerStream) : s.trace <+: (s.answerConnect q b fin).trace := by
  unfold answerConnect
  split
  · cases b with
    | none => exact (sendErrorResponse_writes s 0).toResponds.isPrefix
    | some b =>
      dsimp only
      split
      · exact processWebTransport_isPrefix b s
      · exact callBackend_isPrefix q b _ s
  · exact List.prefix_rfl

theorem onInitialHeadersComplete_isPrefix (q : Platform) (b : Option Backend) (h : InitialHeaders)
    (s : QuitServerStream) : s.trace <+: (s.onInitialHeadersComplete q b h).trace := by
  have hbase : s.trace <+: (s.baseOnInitialHeadersComplete h).trace := by
    unfold baseOnInitialHeadersComplete
    split
    · exact List.prefix_rfl
    · exact (sendErrorResponse_writes { s with headersComplete := true } 400).toResponds.isPrefix
  have hcopy : ∀ u : QuitServerStream, u.trace <+: (u.copyAndValidateHeaders h).trace := by
    intro u
    unfold copyAndValidateHeaders
    dsimp only
    split
    · exact List.prefix_rfl
    · exact (sendErrorResponse_writes { u with
        contentLength := h.contentLength, requestHeaders := h.requestHeaders } 0).toResponds.isPrefix
  have hconsume : ∀ u : QuitServerStream, u.trace <+: (u.consumeHeaderList q b h.bodyAvailable).trace := by
    intro u
    unfold consumeHeaderList
    cases h.bodyAvailable with
    | none => exact List.prefix_rfl
    | some d => exact offerBody_isPrefix q b d u
  unfold onInitialHeadersComplete
  dsimp only
  refine hbase.trans (List.IsPrefix.trans ?_ ((hconsume _).trans (answerConnect_isPrefix q b h.fin _)))
  split
  · exact hcopy _
  · exact List.prefix_rfl

end QuitServerStream

theorem step_isPrefix (q : Platform) (b : Backend) (s : QuitServerStream) (e : Event) :
    s.trace <+: (step q b s e).trace := by
  cases e with
  | initialHeaders h =>
    simp only [step]
    split
    · exact List.prefix_rfl
    · exact s.onInitialHeadersComplete_isPrefix q (some b) h
  | bodyAvailable d =>
    simp only [step]
    split
    · exact s.offerBody_isPrefix q (some b) d
    · exact List.prefix_rfl
  | handlerCall c =>
    simp only [step]
    split
    · exact (QuitServerStream.handle_responds q c s).isPrefix
    · exact List.prefix_rfl
  | alarm => exact (QuitServerStream.onAlarm_responds q s).isPrefix
  | canWrite =>
    exact (QuitServerStream.emit_isPrefix .onCanWrite s).trans
      (QuitServerStream.writeGeneratedBytes_writes q (s.emit .onCanWrite)).toResponds.isPrefix
  | writeSideClosed => exact List.prefix_rfl

end QuailServer.ServerStream
