import QuailServer.BodyDelivery

set_option autoImplicit false

namespace QuailServer.ConnectTunnel
open HeaderBlock WebTransport ServerStream QuitServerStream

structure TunnelRequest (h : InitialHeaders) : Prop where
  connect : h.requestHeaders.find ":method" = some "CONNECT"
  plain : h.webTransport = false
  unbounded : h.contentLength < 0

/-- The calls carry the offered bytes in order, and the flag `data_complete` is set on one call,
    the last one, once the FIN is in. -/
structure Delivered (i : Intake) (data : List (Str × Bool)) : Prop where
  bytes : (data.map Prod.fst).flatten = i.body
  flags : ∃ n, data.map Prod.snd = List.replicate n false ++ if i.complete then [true] else []

theorem delivered_new : Delivered .new [] := ⟨rfl, 0, rfl⟩

theorem Delivered.offer {i : Intake} {data : List (Str × Bool)} (h : Delivered i data)
    (hi : i.complete = false) (d : Delivery) :
    Delivered (i.offer d) (data ++ [(d.bytes, d.fin)]) := by
  obtain ⟨n, hn⟩ := h.flags
  rw [Intake.offer_open hi]
  refine ⟨?_, ?_⟩
  · simp [h.bytes]
  · simp only [hi, Bool.false_eq_true, if_false, List.append_nil] at hn
    cases hfin : d.fin with
    | false => exact ⟨n + 1, by simp [hn, List.replicate_succ']⟩
    | true => exact ⟨n, by simp [hn]⟩

def NoResponsePath (trace : List Effect) : Prop := .sendResponse ∉ trace ∧ fetches trace = []

theorem noResponsePath_responds {s u : QuitServerStream} (h : Responds s u)
    (hs : NoResponsePath s.trace) : NoResponsePath u.trace :=
  ⟨fun hm => hs.1 ((h.mem_trace rfl).mp hm), h.fetches.trans hs.2⟩

theorem noResponsePath_append {t out : List Effect} (ht : NoResponsePath t)
    (hs : .sendResponse ∉ out) (hf : fetches out = []) : NoResponsePath (t ++ out) := by
  refine ⟨?_, by rw [fetches_append, ht.2, hf, List.append_nil]⟩
  intro hm
  rcases List.mem_append.mp hm with hm | hm
  · exact ht.1 hm
  · exact hs hm

structure Flowing (s : QuitServerStream) (i : Intake) : Prop where
  delivered : Delivered i (connectData s.trace)
  reading : s.readingStopped = false
  closed : s.readSideClosed = i.complete
  body : s.body = []

/-- The tunnel after its headers: `Flowing` until the write side ends. -/
structure Tunnel (s : QuitServerStream) (i : Intake) : Prop where
  complete : s.headersComplete = true
  started : i.started = true
  plain : s.webTransport = none
  connect : s.isConnectRequest = true ∨ s.readingStopped = true
  unbounded : s.readingStopped = true ∨ s.contentLength < 0
  path : NoResponsePath s.trace
  flowing : s.writeEnded = false → Flowing s i

theorem writeEnded_of_responds {s u : QuitServerStream} (h : Responds s u)
    (hu : u.writeEnded = false) : s.writeEnded = false := by
  cases hs : s.writeEnded with
  | false => rfl
  | true => rw [h.writeEnded hs] at hu; exact hu

theorem Flowing.responds {s u : QuitServerStream} {i : Intake} (h : Flowing s i)
    (hr : Responds s u) (hu : u.writeEnded = false) : Flowing u i := by
  obtain ⟨hreading, hclosed⟩ := hr.stillReading hu
  exact ⟨hr.connectData ▸ h.delivered, hreading.trans h.reading, hclosed.trans h.closed,
    hr.body.trans h.body⟩

theorem Tunnel.responds {s u : QuitServerStream} {i : Intake} (h : Tunnel s i)
    (hr : Responds s u) : Tunnel u i where
  complete := hr.headersComplete.trans h.complete
  started := h.started
  plain := hr.webTransport.trans h.plain
  connect := h.connect.imp (fun hc => hr.isConnectRequest.trans hc) hr.readingStopped
  unbounded := h.unbounded.imp hr.readingStopped (fun hl => hr.contentLength ▸ hl)
  path := noResponsePath_responds hr h.path
  flowing hu := (h.flowing (writeEnded_of_responds hr hu)).responds hr hu

theorem handing_trace (s : QuitServerStream) (d : Delivery) :
    ((s.handing d).emit (.backendCall (s.handingCall d))).trace = s.trace ++
      [.onBodyAvailable d, .dcheck true, .backendCall (.handleConnectData (s.body ++ d.bytes) d.fin)] := by
  simp [handing, handingCall, emit]

theorem Flowing.pass {s : QuitServerStream} {i : Intake} (h : Flowing s i)
    (hi : i.complete = false) (d : Delivery) :
    Flowing ((s.handing d).emit (.backendCall (s.handingCall d))) (i.offer d) := by
  have hclosed := h.closed
  rw [hi] at hclosed
  refine ⟨?_, h.reading, ?_, rfl⟩
  · rw [handing_trace, connectData_append, h.body]
    exact h.delivered.offer hi d
  · rw [Intake.offer_open hi]
    simp [handing, emit, hclosed]

theorem Tunnel.pass {s : QuitServerStream} {i : Intake} (h : Tunnel s i) (d : Delivery)
    (hclosed : s.readSideClosed = false) :
    Tunnel ((s.handing d).emit (.backendCall (s.handingCall d))) (i.offer d) := by
  refine ⟨h.complete, (Intake.offer_started i d).trans h.started, h.plain, h.connect, h.unbounded,
    ?_, ?_⟩
  · rw [handing_trace]
    exact noResponsePath_append h.path (by simp) rfl
  · intro hend
    have hf := h.flowing hend
    exact hf.pass (hf.closed.symm.trans hclosed) d

theorem Tunnel.offerBody {s : QuitServerStream} {i : Intake} (h : Tunnel s i) (q : Platform)
    (b : Backend) (d : Delivery) :
    Tunnel (s.offerBody q (some b) d) (i.offer d) ∧
      (s.writeEnded = false → Delivered (i.offer d) (connectData (s.offerBody q (some b) d).trace)) := by
  have hstarted := (Intake.offer_started i d).trans h.started
  unfold QuitServerStream.offerBody
  by_cases hstop : (s.readingStopped || s.readSideClosed) = true
  · rw [if_pos hstop]
    -- Nothing is read any more: while the write side is open, because the FIN is in.
    have hsame : s.writeEnded = false → i.offer d = i := by
      intro hend
      have hf := h.flowing hend
      rw [hf.reading, hf.closed, Bool.false_or] at hstop
      exact Intake.offer_complete hstop d
    refine ⟨⟨h.complete, hstarted, h.plain, h.connect, h.unbounded, h.path, fun hend => ?_⟩,
      fun hend => ?_⟩
    · rw [hsame hend]
      exact h.flowing hend
    · rw [hsame hend]
      exact (h.flowing hend).delivered
  · rw [if_neg hstop]
    simp only [Bool.not_eq_true, Bool.or_eq_false_iff] at hstop
    obtain ⟨hreading, hclosed⟩ := hstop
    have hconnect : s.isConnectRequest = true := h.connect.resolve_right (by simp [hreading])
    have hlen : s.contentLength < 0 := h.unbounded.resolve_left (by simp [hreading])
    have hfits : ¬ s.Overflows d := fun ho => absurd ho.1 (by omega)
    rw [onBodyAvailable_connect q b hconnect (takes_of_fits hfits)]
    by_cases hlate : (d.fin && s.writeEnded) = true
    · rw [if_pos hlate]
      have hend : s.writeEnded = true := (Bool.and_eq_true_iff.mp hlate).2
      have hpath : NoResponsePath (s.trace ++ [.onBodyAvailable d]) :=
        noResponsePath_append h.path (by simp) rfl
      refine ⟨⟨h.complete, hstarted, h.plain, h.connect, h.unbounded, hpath, ?_⟩, ?_⟩
      · intro hopen
        exact absurd (hend.symm.trans hopen) (by simp)
      · intro hopen
        exact absurd (hend.symm.trans hopen) (by simp)
    · rw [if_neg hlate]
      have hr := callBackend_responds q b (s.handingCall d) (s.handing d)
      refine ⟨(h.pass d hclosed).responds hr, fun hend => ?_⟩
      rw [hr.connectData]
      exact ((h.pass d hclosed).flowing hend).delivered

theorem Tunnel.answerConnect {s : QuitServerStream} {i : Intake} (h : Tunnel s i) (q : Platform)
    (b : Backend) (fin : Bool) : Tunnel (s.answerConnect q (some b) fin) i ∧
      connectData (s.answerConnect q (some b) fin).trace = connectData s.trace := by
  unfold QuitServerStream.answerConnect
  split
  · rw [h.plain]
    dsimp only [Option.isSome]
    rw [if_neg Bool.false_ne_true]
    have hr := callBackend_responds q b (.handleConnectHeaders s.requestHeaders) s
    have hdata : connectData (s.emit (.backendCall (.handleConnectHeaders s.requestHeaders))).trace =
        connectData s.trace := by
      change connectData (s.trace ++ [_]) = _
      rw [connectData_append]
      exact List.append_nil _
    have hasked : Tunnel (s.emit (.backendCall (.handleConnectHeaders s.requestHeaders))) i := by
      refine ⟨h.complete, h.started, h.plain, h.connect, h.unbounded, ?_, fun hend => ?_⟩
      · exact noResponsePath_append h.path (by simp) rfl
      · have hf := h.flowing hend
        exact ⟨hdata ▸ hf.delivered, hf.reading, hf.closed, hf.body⟩
    exact ⟨hasked.responds hr, hr.connectData.trans hdata⟩
  · exact ⟨h, rfl⟩

def TunnelRun (s : QuitServerStream) (i : Intake) : Prop := Blank s ∧ i = .new ∨ Tunnel s i

def PassedOn (s : QuitServerStream) (u : QuitServerStream) (i : Intake) (e : Event) : Prop :=
  s.writeEnded = false → (∀ h, e = .initialHeaders h → h.Valid) →
    Delivered i (connectData u.trace)

theorem blank_passedOn {s : QuitServerStream} (hs : Blank s) :
    Delivered .new (connectData s.trace) := by
  unfold ServerStream.connectData
  rw [hs.backendCalls]
  exact delivered_new

theorem noResponsePath_blank {s : QuitServerStream} (hs : Blank s) : NoResponsePath s.trace := by
  refine ⟨fun hm => Effect.noConfusion (hs.trace _ hm), ?_⟩
  unfold ServerStream.fetches
  rw [hs.backendCalls]
  rfl

theorem opened_tunnel {s : QuitServerStream} (hs : Blank s) {h : InitialHeaders}
    (hh : TunnelRequest h) : Tunnel (s.opened h) { Intake.new with started := true } := by
  have hconnect : (s.opened h).isConnectRequest = true := decide_eq_true hh.connect
  have hplain : (s.opened h).webTransport = none := if_neg (by simp [hh.plain])
  refine ⟨rfl, rfl, hplain, Or.inl hconnect, Or.inr hh.unbounded, noResponsePath_blank (s := s) hs,
    fun _ => ⟨?_, hs.readingStopped, hs.readSideClosed, hs.body⟩⟩
  exact ⟨(blank_passedOn hs).bytes, (blank_passedOn hs).flags⟩

theorem headers_tunnel (q : Platform) (b : Backend) {s : QuitServerStream} (hs : Blank s)
    {h : InitialHeaders} (hh : TunnelRequest h) :
    Tunnel (s.onInitialHeadersComplete q (some b) h) (Intake.new.step (.initialHeaders h)) ∧
      PassedOn s (s.onInitialHeadersComplete q (some b) h) (Intake.new.step (.initialHeaders h))
        (.initialHeaders h) := by
  by_cases hv : h.Valid
  · rw [onInitialHeadersComplete_valid q (some b) hs hv]
    have hopen := opened_tunnel hs hh
    have hread : Tunnel ((s.opened h).consumeHeaderList q (some b) h.bodyAvailable)
          (Intake.new.step (.initialHeaders h)) ∧
        (s.writeEnded = false → Delivered (Intake.new.step (.initialHeaders h))
          (connectData ((s.opened h).consumeHeaderList q (some b) h.bodyAvailable).trace)) := by
      rw [Intake.step_headers_new]
      unfold consumeHeaderList
      cases h.bodyAvailable with
      | none => exact ⟨hopen, fun hend => (hopen.flowing hend).delivered⟩
      | some d => exact hopen.offerBody q b d
    obtain ⟨htunnel, hdata⟩ := hread.1.answerConnect q b h.fin
    exact ⟨htunnel, fun hend _ => hdata ▸ hread.2 hend⟩
  · obtain ⟨u, code, heq, -, hu⟩ :=
      onInitialHeadersComplete_invalid q (some b) hs hv
    rw [heq]
    have hr := (sendErrorResponse_writes u code).toResponds
    have hstopped : (u.sendErrorResponse code).readingStopped = true := by rw [sendErrorResponse_eq]
    have hplain : u.webTransport = none := by
      cases hw : u.webTransport with
      | none => rfl
      | some w => exact absurd (hu.webTransport w hw).2 (by simp [hh.plain])
    refine ⟨⟨hr.headersComplete.trans hu.complete, Intake.step_headers_started _ h,
      hr.webTransport.trans hplain, Or.inr hstopped, Or.inl hstopped, ?_, fun hend => ?_⟩,
      fun _ hvalid => absurd (hvalid h rfl) hv⟩
    · exact noResponsePath_responds hr (hu.trace ▸ noResponsePath_blank hs)
    · simp [writeEnded, sendErrorResponse_eq] at hend

theorem Tunnel.responds_passedOn {s u : QuitServerStream} {i : Intake} (h : Tunnel s i)
    (hr : Responds s u) (e : Event) : TunnelRun u i ∧ PassedOn s u i e :=
  ⟨Or.inr (h.responds hr), fun hend _ => hr.connectData ▸ (h.flowing hend).delivered⟩

theorem Tunnel.onCanWrite {s : QuitServerStream} {i : Intake} (h : Tunnel s i) :
    Tunnel (s.emit .onCanWrite) i := by
  have hdata : connectData (s.emit .onCanWrite).trace = connectData s.trace := by
    change connectData (s.trace ++ [_]) = _
    rw [connectData_append]
    exact List.append_nil _
  refine ⟨h.complete, h.started, h.plain, h.connect, h.unbounded, ?_, fun hend => ?_⟩
  · exact noResponsePath_append h.path (by simp) rfl
  · have hf := h.flowing hend
    exact ⟨hdata ▸ hf.delivered, hf.reading, hf.closed, hf.body⟩

theorem tunnel_step (q : Platform) (b : Backend) {s : QuitServerStream} {i : Intake} (e : Event)
    (hrun : TunnelRun s i) (he : ∀ h, e = .initialHeaders h → TunnelRequest h) :
    TunnelRun (step q b s e) (i.step e) ∧ PassedOn s (step q b s e) (i.step e) e := by
  rcases hrun with ⟨hs, rfl⟩ | ht
  · by_cases hheaders : ∃ h, e = .initialHeaders h
    · obtain ⟨h, rfl⟩ := hheaders
      obtain ⟨htunnel, hpassed⟩ := headers_tunnel q b hs (he h rfl)
      simp only [step, hs.headersComplete, Bool.false_eq_true, if_false]
      exact ⟨Or.inr htunnel, hpassed⟩
    · have hne : ∀ h, e ≠ .initialHeaders h := fun h heq => hheaders ⟨h, heq⟩
      have hblank := hs.step q b hne
      rw [Intake.step_new hne]
      exact ⟨Or.inl ⟨hblank, rfl⟩, fun _ _ => blank_passedOn hblank⟩
  · cases e with
    | initialHeaders h =>
      have hintake : i.step (.initialHeaders h) = i := if_pos ht.started
      simp only [step, ht.complete, if_true, hintake]
      exact ht.responds_passedOn (.refl s) _
    | bodyAvailable d =>
      have hintake : i.step (.bodyAvailable d) = i.offer d := if_pos ht.started
      simp only [step, ht.complete, if_true, hintake]
      obtain ⟨htunnel, hdata⟩ := ht.offerBody q b d
      exact ⟨Or.inr htunnel, fun hend _ => hdata hend⟩
    | handlerCall c =>
      change TunnelRun (if _ then _ else _) i ∧ PassedOn s (if _ then _ else _) i _
      split
      · exact ht.responds_passedOn (handle_responds q c s) _
      · exact ht.responds_passedOn (.refl s) _
    | alarm => exact ht.responds_passedOn (onAlarm_responds q s) _
    | canWrite =>
      have hw := (writeGeneratedBytes_writes q (s.emit .onCanWrite)).toResponds
      obtain ⟨htunnel, hpassed⟩ := ht.onCanWrite.responds_passedOn hw .canWrite
      exact ⟨htunnel, fun hend hv => hpassed hend hv⟩
    | writeSideClosed =>
      refine ⟨Or.inr ⟨ht.complete, ht.started, ht.plain, ht.connect, ht.unbounded, ht.path,
        fun hend => ?_⟩, fun hend _ => (ht.flowing hend).delivered⟩
      simp [step, writeEnded] at hend

theorem tunnel_run (q : Platform) (b : Backend) (id : StreamId) (events : List Event)
    (hreq : ∀ h, .initialHeaders h ∈ events → TunnelRequest h) :
    TunnelRun (run q b id events) (intake events) := by
  refine StepMachine.simulation_after (R := TunnelRun)
    (P := fun e => ∀ h, e = .initialHeaders h → TunnelRequest h)
    (fun s i e he hrun => (tunnel_step q b e hrun he).1) (Or.inl ⟨new_blank id, rfl⟩) ?_
  rintro e hm h rfl
  exact hreq h hm

theorem TunnelRun.path {s : QuitServerStream} {i : Intake} (h : TunnelRun s i) :
    NoResponsePath s.trace := by
  rcases h with ⟨hs, -⟩ | ht
  · exact noResponsePath_blank hs
  · exact ht.path

/-- Conservation in a tunnel. Whatever the backend does on its handler, the ordinary request
    path is never taken, and as long as the write side was open before the last event the calls
    of `HandleConnectData` carry what the peer has offered. -/
theorem connect_data_conserved (q : Platform) (b : Backend) (id : StreamId) (events : List Event)
    (hreq : ∀ h, .initialHeaders h ∈ events → TunnelRequest h) :
    .sendResponse ∉ (run q b id events).trace ∧ fetches (run q b id events).trace = [] ∧
      ∀ before e, events = before ++ [e] → (run q b id before).writeEnded = false →
        (∀ h, e = .initialHeaders h → h.Valid) →
        Delivered (intake events) (connectData (run q b id events).trace) := by
  have hpath := (tunnel_run q b id events hreq).path
  refine ⟨hpath.1, hpath.2, ?_⟩
  rintro before e rfl hend hvalid
  have hbefore := tunnel_run q b id before fun h hm => hreq h (by simp [hm])
  rw [run_concat, intake_concat]
  exact (tunnel_step q b e hbefore fun h heq => hreq h (by simp [heq])).2 hend hvalid

def tunnelEvents : List Event :=
  [.initialHeaders (connectHeaders false none), .bodyAvailable ⟨["a", "b"], false⟩,
    .bodyAvailable ⟨[], true⟩]

theorem tunnelEvents_request (h : InitialHeaders) (hm : .initialHeaders h ∈ tunnelEvents) :
    TunnelRequest h := by
  have heq : h = connectHeaders false none := by simpa [tunnelEvents] using hm
  rw [heq]
  exact ⟨rfl, rfl, by decide⟩

theorem tunnelEvents_conserved :
    let s := run plainPlatform silentBackend 0 tunnelEvents
    .sendResponse ∉ s.trace ∧ fetches s.trace = [] ∧
      Delivered (intake tunnelEvents) (connectData s.trace) := by
  obtain ⟨hsend, hfetch, hdata⟩ :=
    connect_data_conserved plainPlatform silentBackend 0 tunnelEvents tunnelEvents_request
  refine ⟨hsend, hfetch, hdata (tunnelEvents.take 2) (.bodyAvailable ⟨[], true⟩) rfl rfl ?_⟩
  intro h heq
  cases heq

end QuailServer.ConnectTunnel
