import QuailServer.BodyDelivery

set_option autoImplicit false

namespace QuailServer.ServerStream
open HeaderBlock WebTransport StepMachine

/-- An event, or one of the calls of the backend on its handler within an event. -/
inductive Operation where
  /-- `OnInitialHeadersComplete` up to `ConsumeHeaderList()`. -/
  | readHeaders (h : InitialHeaders)
  /-- The rest of `OnInitialHeadersComplete`. -/
  | answerConnect (fin : Bool)
  | bodyAvailable (d : Delivery)
  | handlerCall (call : HandlerCall)
  | alarm
  | canWrite
  | writeSideClosed

def Backend.quiet (b : Backend) : Backend := { b with react := fun _ => [] }

namespace QuitServerStream

def readHeaders (q : Platform) (b : Option Backend) (h : InitialHeaders) (s : QuitServerStream) :
    QuitServerStream :=
  (s.headersRead h).consumeHeaderList q b h.bodyAvailable

end QuitServerStream

def operate (q : Platform) (b : Backend) (s : QuitServerStream) : Operation → QuitServerStream
  | .readHeaders h => if s.headersComplete then s else s.readHeaders q (some b.quiet) h
  | .answerConnect fin => s.answerConnect q (some b.quiet) fin
  | .bodyAvailable d => step q b.quiet s (.bodyAvailable d)
  | .handlerCall call => step q b.quiet s (.handlerCall call)
  | .alarm => step q b.quiet s .alarm
  | .canWrite => step q b.quiet s .canWrite
  | .writeSideClosed => step q b.quiet s .writeSideClosed

/-- The calls of the backend after an operation that ended in a call of the backend. -/
def reactions (b : Backend) (s u : QuitServerStream) : List Operation :=
  if s.trace.length < u.trace.length then
    match u.trace.getLast? with
    | some (.backendCall _) => (b.react u.trace).map .handlerCall
    | _ => []
  else []

def withReactions (q : Platform) (b : Backend) (s : QuitServerStream) (o : Operation) :
    List Operation :=
  o :: reactions b s (operate q b s o)

def operations (q : Platform) (b : Backend) (s : QuitServerStream) : Event → List Operation
  | .initialHeaders h =>
    if s.headersComplete then []
    else
      let reading := withReactions q b s (.readHeaders h)
      reading ++ withReactions q b (after (operate q b) s reading) (.answerConnect h.fin)
  | .bodyAvailable d => withReactions q b s (.bodyAvailable d)
  | .handlerCall call => [.handlerCall call]
  | .alarm => [.alarm]
  | .canWrite => [.canWrite]
  | .writeSideClosed => [.writeSideClosed]

def operationsOf (q : Platform) (b : Backend) (s : QuitServerStream) : List Event → List Operation
  | [] => []
  | e :: es => operations q b s e ++ operationsOf q b (step q b s e) es

namespace QuitServerStream

/-- `u` comes from `s` as `v` does, but for the calls of the backend. -/
inductive Reacts (q : Platform) (b : Backend) (s u v : QuitServerStream) : Prop where
  | stays (heq : u = v) (htrace : v.trace = s.trace)
  | silent (heq : u = v) (hlast : ∀ c, v.trace.getLast? ≠ some (.backendCall c))
  | calls (w : QuitServerStream) (c : BackendCall) (hw : s.trace <+: w.trace)
      (hu : u = w.callBackend q b c) (hv : v = w.callBackend q b.quiet c)

variable {q : Platform} {b : Backend} {s u v : QuitServerStream}

theorem handles_operate (calls : List HandlerCall)
    (hasked : s.trace.any Effect.isBackendCall = true) :
    after (operate q b) s (calls.map .handlerCall) = calls.foldl (fun s c => s.handle q c) s := by
  induction calls generalizing s with
  | nil => rfl
  | cons c calls ih =>
    have hstep : operate q b s (.handlerCall c) = s.handle q c := if_pos hasked
    obtain ⟨out, htrace, -⟩ := (handle_responds q c s).trace
    rw [List.map_cons, after_cons, hstep, List.foldl_cons]
    exact ih (by rw [htrace, List.any_append, hasked, Bool.true_or])

theorem Reacts.after (h : Reacts q b s u v) :
    StepMachine.after (operate q b) v (reactions b s v) = u := by
  unfold reactions
  cases h with
  | stays heq htrace =>
    rw [htrace, if_neg (lt_irrefl _), heq]
    rfl
  | silent heq hlast =>
    have hnone : (match v.trace.getLast? with
        | some (.backendCall _) => (b.react v.trace).map .handlerCall
        | _ => []) = ([] : List Operation) := by
      split
      · next c hc => exact absurd hc (hlast c)
      · rfl
    rw [hnone, heq, ite_self]
    rfl
  | calls w c hw hu hv =>
    have hcall : v = w.emit (.backendCall c) := hv
    have htrace : v.trace = w.trace ++ [.backendCall c] := congrArg QuitServerStream.trace hcall
    have hlt : s.trace.length < v.trace.length := by
      have hle := hw.length_le
      rw [htrace, List.length_append, List.length_singleton]
      omega
    have hasked : v.trace.any Effect.isBackendCall = true := by
      rw [htrace, List.any_append]
      simp [Effect.isBackendCall]
    have hlast : v.trace.getLast? = some (.backendCall c) := by
      rw [htrace, List.getLast?_concat]
    rw [if_pos hlt, hlast]
    dsimp only
    rw [handles_operate _ hasked, hu, hcall]
    rfl

theorem sendErrorResponse_last (s : QuitServerStream) (code : ℕ) (c : BackendCall) :
    (s.sendErrorResponse code).trace.getLast? ≠ some (.backendCall c) := by
  have hlast : (s.sendErrorResponse code).trace.getLast? =
      some (.writeOrBufferBody kErrorResponseBody true) := by
    rw [sendErrorResponse_eq, List.getLast?_append]
    rfl
  rw [hlast]
  nofun

theorem processWebTransport_last (b : Backend) (s : QuitServerStream) (c : BackendCall) :
    (s.processWebTransport b).trace.getLast? ≠ some (.backendCall c) := by
  unfold processWebTransport
  dsimp only
  split
  · have hlast : ∀ w : QuitServerStream, w.headersReceived.trace.getLast? =
        some (.headersReceived w.requestHeaders) := fun w => List.getLast?_concat
    rw [hlast]
    nofun
  · have hlast : ∀ (w : QuitServerStream) (block : Http2HeaderBlock),
        (w.writeHeaders .response block true).trace.getLast? =
          some (.writeHeaders .response block true) := fun w block => List.getLast?_concat
    rw [hlast]
    nofun

theorem sendResponse_reacts (hw : s.trace <+: u.trace) :
    Reacts q b s (u.sendResponse q (some b)) (u.sendResponse q (some b.quiet)) := by
  have herror := Reacts.silent (q := q) (b := b) (s := s) rfl
    (sendErrorResponse_last ((u.emit .sendResponse).emit (.dcheck !u.isConnectRequest)) 0)
  have hchecking : s.trace <+: ((u.emit .sendResponse).emit (.dcheck !u.isConnectRequest)).trace :=
    (hw.trans (emit_isPrefix _ u)).trans (emit_isPrefix _ _)
  unfold sendResponse
  dsimp only
  split_ifs
  · exact herror
  · exact herror
  · exact herror
  · exact herror
  · exact .silent rfl (processWebTransport_last b.quiet _)
  · exact .calls _ _ hchecking rfl rfl

theorem handleRequestConnectData_reacts (hw : s.trace <+: u.trace) (fin : Bool) :
    Reacts q b s (u.handleRequestConnectData q (some b) fin)
      (u.handleRequestConnectData q (some b.quiet) fin) :=
  .calls { u.emit (.dcheck u.isConnectRequest) with body := [] } _
    (hw.trans (emit_isPrefix _ u)) rfl rfl

theorem onBodyAvailable_reacts (q : Platform) (b : Backend) (d : Delivery) (s : QuitServerStream) :
    Reacts q b s (s.onBodyAvailable q (some b) d) (s.onBodyAvailable q (some b.quiet) d) := by
  rcases readRegions_cases d.regions (s.emit (.onBodyAvailable d)) with
    ⟨heq, -⟩ | ⟨-, -, body, heq⟩
  · obtain ⟨w, heq, htrace⟩ : ∃ w, readRegions d.regions (s.emit (.onBodyAvailable d)) = (w, false) ∧
        w.trace = s.trace ++ [.onBodyAvailable d] := ⟨_, heq, rfl⟩
    have hread : s.trace <+: w.trace := htrace ▸ List.prefix_append _ _
    have hlast : ∀ c, w.trace.getLast? ≠ some (.backendCall c) := by
      rw [htrace, List.getLast?_concat]
      nofun
    unfold onBodyAvailable
    rw [heq]
    dsimp only
    split_ifs
    · exact handleRequestConnectData_reacts hread false
    · exact .silent rfl hlast
    · exact .silent rfl hlast
    · exact handleRequestConnectData_reacts (u := w.onFinRead) hread true
    · exact sendResponse_reacts (u := w.onFinRead) hread
  · unfold onBodyAvailable
    rw [heq]
    exact .silent rfl (sendErrorResponse_last _ 0)

theorem offerBody_reacts (q : Platform) (b : Backend) (d : Delivery) (s : QuitServerStream) :
    Reacts q b s (s.offerBody q (some b) d) (s.offerBody q (some b.quiet) d) := by
  unfold offerBody
  split
  · exact .stays rfl rfl
  · exact onBodyAvailable_reacts q b d s

theorem Reacts.of_trace (h : Reacts q b s u v) {s' : QuitServerStream} (hs : s.trace = s'.trace) :
    Reacts q b s' u v := by
  cases h with
  | stays heq htrace => exact .stays heq (htrace.trans hs)
  | silent heq hlast => exact .silent heq hlast
  | calls w c hw hu hv => exact .calls w c (hs ▸ hw) hu hv

theorem headersRead_cases (h : InitialHeaders) (s : QuitServerStream) :
    ∃ w, w.trace = s.trace ∧
      (s.headersRead h = w ∨ ∃ code, s.headersRead h = w.sendErrorResponse code) := by
  unfold headersRead baseOnInitialHeadersComplete copyAndValidateHeaders
  by_cases hr : h.receivedValid = true
  · simp only [hr, if_true]
    split
    · split
      · refine ⟨_, ?_, Or.inl rfl⟩
        rfl
      · refine ⟨_, ?_, Or.inr ⟨0, rfl⟩⟩
        rfl
    · refine ⟨_, ?_, Or.inl rfl⟩
      rfl
  · have hsent : (onInvalidHeaders { s with headersComplete := true }).responseSent = true := by
      unfold onInvalidHeaders
      rw [sendErrorResponse_eq]
    simp only [hr, Bool.false_eq_true, if_false, hsent, Bool.not_true]
    exact ⟨{ s with headersComplete := true }, rfl, Or.inr ⟨400, rfl⟩⟩

theorem answerConnect_reacts (q : Platform) (b : Backend) (fin : Bool) (s : QuitServerStream) :
    Reacts q b s (s.answerConnect q (some b) fin) (s.answerConnect q (some b.quiet) fin) := by
  unfold answerConnect
  dsimp only
  split_ifs
  · exact .silent rfl (processWebTransport_last b.quiet s)
  · exact .calls s _ List.prefix_rfl rfl rfl
  · exact .stays rfl rfl

theorem readHeaders_reacts (q : Platform) (b : Backend) (h : InitialHeaders)
    (s : QuitServerStream) :
    Reacts q b s (s.readHeaders q (some b) h) (s.readHeaders q (some b.quiet) h) := by
  unfold readHeaders consumeHeaderList
  obtain ⟨w, hw, heq | ⟨code, heq⟩⟩ := headersRead_cases h s
  · rw [heq]
    cases h.bodyAvailable with
    | none => exact .stays rfl hw
    | some d => exact (offerBody_reacts q b d w).of_trace hw
  · rw [heq]
    have hstopped := fun ob => rejected_consumeHeaderList q ob h.bodyAvailable w code
    change Reacts q b s ((w.sendErrorResponse code).consumeHeaderList q (some b) h.bodyAvailable)
      ((w.sendErrorResponse code).consumeHeaderList q (some b.quiet) h.bodyAvailable)
    rw [hstopped, hstopped]
    exact .silent rfl (sendErrorResponse_last w code)

theorem answerConnect_blank (fin : Bool) (hs : Blank s) :
    s.answerConnect q (some b.quiet) fin = s := by
  have hconnect : s.isConnectRequest = false := by
    have hnone : s.requestHeaders = ∅ := by rw [hs.fields]; rfl
    simp [isConnectRequest, hnone]
  simp [answerConnect, hconnect]

theorem withReactions_after {o : Operation}
    (h : Reacts q b s u (operate q b s o)) : after (operate q b) s (withReactions q b s o) = u := by
  unfold withReactions
  rw [after_cons, h.after]

theorem after_operations (q : Platform) (b : Backend) (s : QuitServerStream) (e : Event) :
    after (operate q b) s (operations q b s e) = step q b s e := by
  cases e with
  | initialHeaders h =>
    have hreading : s.headersComplete = false →
        after (operate q b) s (withReactions q b s (.readHeaders h)) =
          s.readHeaders q (some b) h := by
      intro hcomplete
      refine withReactions_after ?_
      unfold operate
      rw [hcomplete]
      exact readHeaders_reacts q b h s
    unfold operations step
    cases hcomplete : s.headersComplete with
    | true => rfl
    | false =>
      simp only [Bool.false_eq_true, if_false]
      rw [after_append, hreading hcomplete]
      exact withReactions_after (answerConnect_reacts q b h.fin _)
  | bodyAvailable d =>
    refine withReactions_after ?_
    unfold operate step
    dsimp only
    split
    · exact offerBody_reacts q b d s
    · exact .stays rfl rfl
  | handlerCall call => rfl
  | alarm => rfl
  | canWrite => rfl
  | writeSideClosed => rfl

theorem readHeaders_isPrefix (q : Platform) (b : Option Backend) (h : InitialHeaders)
    (s : QuitServerStream) : s.trace <+: (s.readHeaders q b h).trace := by
  have hconsume : ∀ u : QuitServerStream, u.trace <+: (u.consumeHeaderList q b h.bodyAvailable).trace := by
    intro u
    unfold consumeHeaderList
    cases h.bodyAvailable with
    | none => exact List.prefix_rfl
    | some d => exact offerBody_isPrefix q b d u
  refine List.IsPrefix.trans ?_ (hconsume (s.headersRead h))
  obtain ⟨w, hw, heq | ⟨code, heq⟩⟩ := headersRead_cases h s
  · have hsame : (s.headersRead h).trace = s.trace := (congrArg trace heq).trans hw
    exact hsame ▸ List.prefix_rfl
  · rw [heq, ← hw]
    exact (sendErrorResponse_writes w code).toResponds.isPrefix

end QuitServerStream

theorem operate_isPrefix (q : Platform) (b : Backend) (s : QuitServerStream) (o : Operation) :
    s.trace <+: (operate q b s o).trace := by
  cases o with
  | readHeaders h =>
    unfold operate
    dsimp only
    split
    · exact List.prefix_rfl
    · exact s.readHeaders_isPrefix q (some b.quiet) h
  | answerConnect fin => exact s.answerConnect_isPrefix q (some b.quiet) fin
  | bodyAvailable d => exact step_isPrefix q b.quiet s (.bodyAvailable d)
  | handlerCall call => exact step_isPrefix q b.quiet s (.handlerCall call)
  | alarm => exact step_isPrefix q b.quiet s .alarm
  | canWrite => exact step_isPrefix q b.quiet s .canWrite
  | writeSideClosed => exact step_isPrefix q b.quiet s .writeSideClosed

theorem readHeaders_not_mem_reactions (b : Backend) (s u : QuitServerStream) (h : InitialHeaders) :
    .readHeaders h ∉ reactions b s u := by
  unfold reactions
  split
  · split
    · simp
    · exact List.not_mem_nil
  · exact List.not_mem_nil

theorem mem_of_readHeaders {q : Platform} {b : Backend} {s : QuitServerStream} {events : List Event}
    {h : InitialHeaders} (hmem : .readHeaders h ∈ operationsOf q b s events) :
    .initialHeaders h ∈ events := by
  induction events generalizing s with
  | nil => cases hmem
  | cons e events ih =>
    rcases List.mem_append.mp hmem with hnow | hlater
    · refine List.mem_cons.mpr (Or.inl ?_)
      have hreactions := fun u w => readHeaders_not_mem_reactions b u w h
      cases e with
      | initialHeaders h' =>
        simp only [operations] at hnow
        split at hnow
        · exact absurd hnow List.not_mem_nil
        · have hread : h = h' := by simpa [withReactions, hreactions] using hnow
          rw [hread]
      | bodyAvailable d => simp [operations, withReactions, hreactions] at hnow
      | handlerCall call => simp [operations] at hnow
      | alarm => simp [operations] at hnow
      | canWrite => simp [operations] at hnow
      | writeSideClosed => simp [operations] at hnow
    · exact List.mem_cons_of_mem e (ih hlater)

/-- The run of a stream, operation by operation. -/
theorem after_operationsOf (q : Platform) (b : Backend) (s : QuitServerStream)
    (events : List Event) :
    after (operate q b) s (operationsOf q b s events) = after (step q b) s events := by
  induction events generalizing s with
  | nil => rfl
  | cons e events ih =>
    rw [operationsOf, after_append, QuitServerStream.after_operations, ih]
    rfl

theorem always_operationsOf {q : Platform} {b : Backend} {G : QuitServerStream → Prop}
    {s : QuitServerStream} {events : List Event}
    (h : Always (operate q b) G s (operationsOf q b s events)) : Always (step q b) G s events := by
  induction events generalizing s with
  | nil => exact h
  | cons e events ih =>
    obtain ⟨hfirst, hrest⟩ := always_append.mp h
    rw [QuitServerStream.after_operations] at hrest
    refine ⟨?_, ih hrest⟩
    cases hops : operations q b s e with
    | nil =>
      rw [hops] at hfirst
      exact hfirst
    | cons o ops =>
      rw [hops] at hfirst
      exact hfirst.1

end QuailServer.ServerStream
