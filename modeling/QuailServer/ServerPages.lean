import QuailServer.IncomingMessages
import QuailServer.ServedPages

set_option autoImplicit false

namespace QuailServer.ServerPages
open HeaderBlock WebTransport ServerStream QuitServerStream ServerBackend QuailServerBackend RequestBody
  ResponseFraming BackendDirectory WebTransportServer SavedFiles ServedPages StepMachine

def htmlDirectory : Str := "/root/quail-server/html"

/-- The constructor. It does not look at the result of `InitializeBackend`. -/
def quailServerImpl (u : FileUtils) : Option Server :=
  (initializeBackend u htmlDirectory (new none none)).map fun loaded =>
    { Server.new with backend := loaded.2 }

def stepPages (q : Platform) (others : List Effect → List HandlerCall) (v : Server) (e : ServerEvent) :
    Server :=
  v.step q (storeBackend q others v.backend).react e

def ownEvents (id : StreamId) : ServerEvent → List Event
  | .request j e => if j = id then [e] else []
  | _ => []

def requestEvents (id : StreamId) (events : List ServerEvent) : List Event :=
  events.flatMap (ownEvents id)

theorem after_ownEvents (id : StreamId) (events : List ServerEvent) :
    after (fun own e => own ++ ownEvents id e) [] events = requestEvents id events := by
  unfold after requestEvents
  rw [List.foldl_append_eq_append, List.nil_append, List.flatMap_def]

theorem ownEvents_cases (id : StreamId) (e : ServerEvent) :
    ownEvents id e = [] ∨ ∃ event, e = .request id event ∧ ownEvents id e = [event] := by
  cases e with
  | request j event =>
    by_cases hj : j = id
    · subst hj
      exact Or.inr ⟨event, rfl, if_pos rfl⟩
    · exact Or.inl (if_neg hj)
  | _ => exact Or.inl rfl

structure SameStore (b b' : QuailServerBackend) : Prop where
  responses : b'.responses = b.responses
  generateBytes : b'.generateBytesResponse = b.generateBytesResponse
  default : b'.defaultResponse = b.defaultResponse

namespace SameStore
variable {b b' c : QuailServerBackend}

theorem refl (b : QuailServerBackend) : SameStore b b := ⟨rfl, rfl, rfl⟩

theorem trans (h : SameStore b b') (h' : SameStore b' c) : SameStore b c :=
  ⟨h'.responses.trans h.responses, h'.generateBytes.trans h.generateBytes,
    h'.default.trans h.default⟩

theorem page (h : SameStore b b') : page b' = page b := by
  unfold ServedPages.page
  rw [h.responses]

theorem loaded (h : SameStore b b') (hb : Loaded b) : Loaded b' where
  generateBytes := h.generateBytes.trans hb.generateBytes
  default := h.default.trans hb.default
  plain r hr := hb.plain r (h.page ▸ hr)

end SameStore

theorem step_sameStore (q : Platform) (react : List Effect → List HandlerCall) (v : Server)
    (e : ServerEvent) : SameStore v.backend (v.step q react e).backend := by
  cases e with
  | on path callback => exact ⟨rfl, rfl, rfl⟩
  | request id e => exact .refl _
  | sessionReady id =>
    simp only [Server.step, Server.sessionReady]
    repeat' split
    all_goals exact .refl _
  | streamArrives id x =>
    simp only [Server.step, Server.streamArrives]
    split <;> exact .refl _
  | dataArrives x data fin =>
    simp only [Server.step, Server.dataArrives]
    repeat' split
    all_goals exact .refl _
  | streamAvailable id =>
    simp only [Server.step, Server.streamAvailable, Server.onIncomingBidirectionalStreamAvailable]
    repeat' split
    all_goals exact .refl _

theorem setSession_other {v : Server} {id j : StreamId} {w : WebTransportSession}
    (plain : (v.requests id).webTransport = none) (hw : v.session j = some w)
    (w' : WebTransportSession) : (v.setSession j w').requests id = v.requests id := by
  rw [Server.setSession_requests]
  refine if_neg ?_
  rintro rfl
  unfold Server.session at hw
  rw [plain] at hw
  cases hw

/-- The streams with a session are the only ones that other events touch. -/
theorem step_other (q : Platform) (react : List Effect → List HandlerCall) {v : Server} {id : StreamId}
    {e : ServerEvent} (plain : (v.requests id).webTransport = none) (he : ownEvents id e = []) :
    (v.step q react e).requests id = v.requests id := by
  cases e with
  | on path callback => rfl
  | request j e =>
    have hne : id ≠ j := by
      rintro rfl
      simp [ownEvents] at he
    exact Function.update_of_ne hne _ _
  | sessionReady j =>
    simp only [Server.step, Server.sessionReady]
    split
    · next w hw =>
      split
      · split
        · exact setSession_other plain hw _
        · exact setSession_other plain hw _
      · rfl
    · rfl
  | streamArrives j x =>
    simp only [Server.step, Server.streamArrives]
    split
    · next w hw _ => exact setSession_other plain hw _
    · rfl
  | dataArrives x data fin =>
    simp only [Server.step, Server.dataArrives]
    repeat' split
    all_goals rfl
  | streamAvailable j =>
    simp only [Server.step, Server.streamAvailable, Server.onIncomingBidirectionalStreamAvailable]
    split
    · next w hw =>
      split
      · split
        · rfl
        · exact setSession_other plain hw _
      · rfl
    · rfl

structure Along (q : Platform) (b : QuailServerBackend) (s : QuitServerStream) (own : List Event) :
    Prop where
  blank : (∀ h, .initialHeaders h ∉ own) → Blank s ∧ s.writeSideClosed = false
  paged : ∀ before h later, own = before ++ .initialHeaders h :: later →
    (∀ h', .initialHeaders h' ∉ before) → PlainRequest h → PageRun q b s h (intake own)

theorem blank_stays_open (q : Platform) (b : Backend) {s : QuitServerStream} (hs : Blank s) {e : Event}
    (headers : ∀ h, e ≠ .initialHeaders h) (closed : e ≠ .writeSideClosed) :
    (ServerStream.step q b s e).writeSideClosed = s.writeSideClosed := by
  cases e with
  | initialHeaders h => exact absurd rfl (headers h)
  | bodyAvailable d => simp [ServerStream.step, hs.headersComplete]
  | handlerCall c => simp [ServerStream.step, hs.trace_any (p := Effect.isBackendCall) rfl]
  | alarm => simp [ServerStream.step, onAlarm, hs.alarm]
  | canWrite =>
    have hsame : ServerStream.step q b s .canWrite = s.emit .onCanWrite := writeGeneratedBytes_idle q hs.idle
    rw [hsame]
    rfl
  | writeSideClosed => exact absurd rfl closed

namespace Along
variable {q : Platform} {b c : QuailServerBackend} {s : QuitServerStream} {own : List Event}

theorem new (q : Platform) (b : QuailServerBackend) (id : StreamId) : Along q b (.new id) [] where
  blank _ := ⟨new_blank id, rfl⟩
  paged before h later hown := absurd hown.symm (by simp)

theorem withStore (hs : Along q b s own) (h : page c = page b) : Along q c s own where
  blank := hs.blank
  paged before headers later hown hbefore hh :=
    ⟨(hs.paged before headers later hown hbefore hh).toBodyRun, fun hcalls =>
      h ▸ (hs.paged before headers later hown hbefore hh).served hcalls⟩

theorem of_session (hs : Along q b s own) (session : s.webTransport ≠ none) (u : QuitServerStream) :
    Along q b u own where
  blank h := absurd (hs.blank h).1.webTransport session
  paged before headers later hown hbefore hh :=
    absurd (hs.paged before headers later hown hbefore hh).requested.plain session

theorem step (hs : Along q b s own) (hb : Loaded b) (others : List Effect → List HandlerCall)
    {e : Event} (he : Answered e) :
    Along q b (ServerStream.step q (storeBackend q others b) s e) (own ++ [e]) where
  blank h := by
    have hown : ∀ h, .initialHeaders h ∉ own := fun h' hmem => h h' (List.mem_append_left _ hmem)
    have hheaders : ∀ headers, e ≠ .initialHeaders headers := by
      rintro headers rfl
      exact h headers (List.mem_append_right _ List.mem_cons_self)
    obtain ⟨hblank, hopen⟩ := hs.blank hown
    exact ⟨hblank.step q _ hheaders, (blank_stays_open q _ hblank hheaders he.1).trans hopen⟩
  paged before headers later hown hbefore hh := by
    rcases List.eq_nil_or_concat' later with rfl | ⟨later, last, rfl⟩
    · obtain ⟨rfl, hlast⟩ := List.append_inj' hown rfl
      obtain rfl : e = .initialHeaders headers := List.singleton_inj.mp hlast
      obtain ⟨hblank, hopen⟩ := hs.blank hbefore
      have hstep : ServerStream.step q (storeBackend q others b) s (.initialHeaders headers) =
          s.onInitialHeadersComplete q (some (storeBackend q others b)) headers :=
        if_neg (by simp [hblank.headersComplete])
      rw [hstep, intake_headers headers hbefore]
      exact headers_pageRun q others hb hblank hopen hh
    · rw [← List.cons_append, ← List.append_assoc] at hown
      obtain ⟨hrest, hlast⟩ := List.append_inj' hown rfl
      rw [intake_concat]
      exact pageRun_step q others hb hh he (hs.paged before headers later hrest hbefore hh)

end Along

def AnsweredAt (id : StreamId) (e : ServerEvent) : Prop := ∀ own ∈ ownEvents id e, Answered own

theorem stepPages_along {q : Platform} (others : List Effect → List HandlerCall)
    {b : QuailServerBackend} {id : StreamId} {v : Server} {own : List Event} (hb : Loaded b)
    (store : SameStore b v.backend) (hs : Along q b (v.requests id) own) {e : ServerEvent}
    (he : AnsweredAt id e) :
    Along q b ((stepPages q others v e).requests id) (own ++ ownEvents id e) := by
  rcases ownEvents_cases id e with hown | ⟨event, rfl, hown⟩
  · rw [hown, List.append_nil]
    by_cases plain : (v.requests id).webTransport = none
    · rw [stepPages, step_other q _ plain hown]
      exact hs
    · exact hs.of_session plain _
  · have hstep : (stepPages q others v (.request id event)).requests id =
        ServerStream.step q (storeBackend q others v.backend) (v.requests id) event :=
      Function.update_self (β := fun _ => QuitServerStream) _ _ _
    have hevent : Answered event := he event (hown ▸ List.mem_cons_self)
    rw [hstep, hown]
    exact ((hs.withStore store.page).step (store.loaded hb) others hevent).withStore store.page.symm

theorem run_along (q : Platform) (others : List Effect → List HandlerCall) {b : QuailServerBackend}
    (hb : Loaded b) (id : StreamId) {events : List ServerEvent} (answered : ∀ e ∈ events, AnsweredAt id e) :
    Along q b ((after (stepPages q others) { Server.new with backend := b } events).requests id)
      (requestEvents id events) := by
  rw [← after_ownEvents]
  refine (simulation_after (R := fun (v : Server) own => SameStore b v.backend ∧ Along q b (v.requests id) own)
    (P := AnsweredAt id) ?_ ⟨.refl b, .new q b id⟩ answered).2
  rintro v own e he ⟨store, hs⟩
  exact ⟨store.trans (step_sameStore q _ v e), stepPages_along others hb store hs he⟩

theorem quailServerImpl_loaded {u : FileUtils} {v : Server} (constructed : quailServerImpl u = some v) :
    ∃ b, v = { Server.new with backend := b } ∧ Loaded b ∧
      page b = (u.enumerateDirectoryRecursively htmlDirectory).bind (indexPage u htmlDirectory) := by
  obtain ⟨⟨ok, b⟩, hloaded, rfl⟩ := Option.map_eq_some_iff.mp constructed
  refine ⟨b, rfl, ?_⟩
  cases hlisted : u.enumerateDirectoryRecursively htmlDirectory with
  | none =>
    unfold initializeBackend at hloaded
    rw [hlisted, if_neg (by decide)] at hloaded
    obtain ⟨rfl, rfl⟩ := Prod.mk.inj (Option.some.inj hloaded)
    exact ⟨⟨rfl, rfl, fun r hr => absurd hr (by simp [page, QuailServerBackend.new])⟩, rfl⟩
  | some files =>
    have hok : ok = true := by
      unfold initializeBackend at hloaded
      rw [hlisted, if_neg (by decide)] at hloaded
      obtain ⟨b', -, heq⟩ := Option.map_eq_some_iff.mp hloaded
      exact (Prod.mk.inj heq).1.symm
    subst hok
    exact loaded_page hlisted hloaded

/-- Whatever else the server does meanwhile, on other requests, sessions and streams, each plain
    request gets what its own events ask for. Its stream is not closed for writing from outside, and
    no late answer of a backend reaches it. -/
theorem plain_requests_served (q : Platform) (others : List Effect → List HandlerCall) (u : FileUtils)
    (v : Server) (constructed : quailServerImpl u = some v) (events : List ServerEvent) (id : StreamId)
    (before : List Event) (h : InitialHeaders) (later : List Event)
    (own : requestEvents id events = before ++ .initialHeaders h :: later)
    (hbefore : ∀ h', .initialHeaders h' ∉ before) (hh : PlainRequest h)
    (answered : ∀ e ∈ before ++ .initialHeaders h :: later, Answered e) :
    let trace := ((after (stepPages q others) v events).requests id).trace
    let i := intake (before ++ .initialHeaders h :: later)
    (i.complete = false → ¬ h.Overlong i.body → frames trace = []) ∧
      (h.Overlong i.body ∨ i.complete = true ∧ ¬ Acceptable h i.body → frames trace = errorFrames) ∧
      (i.complete = true → Acceptable h i.body →
        Sends (answer q ((u.enumerateDirectoryRecursively htmlDirectory).bind
          (indexPage u htmlDirectory))) (frames trace)) := by
  obtain ⟨b, rfl, hb, hpage⟩ := quailServerImpl_loaded constructed
  have hanswered : ∀ e ∈ events, AnsweredAt id e := by
    intro e hmem event hevent
    refine answered event ?_
    rw [← own]
    exact List.mem_flatMap.mpr ⟨e, hmem, hevent⟩
  have hrun := (run_along q others hb id hanswered).paged before h later own hbefore hh
  rw [own] at hrun
  exact hpage ▸ hrun.sent

def busyServer : List ServerEvent :=
  [.on "/chat" 7, .request 0 (.initialHeaders IncomingMessages.chatHeaders),
    .request 4 (.initialHeaders postHeaders), .sessionReady 0, .request 8 (.initialHeaders postHeaders),
    .request 4 (.bodyAvailable ⟨["a"], false⟩), .streamArrives 0 12, .dataArrives 12 "hi" false,
    .request 8 (.bodyAvailable ⟨["c", "d"], true⟩), .streamAvailable 0,
    .request 4 (.bodyAvailable ⟨["b"], true⟩)]

theorem plain_requests_served_busy : ∃ v r, quailServerImpl (savedDirectory htmlDirectory) = some v ∧
    indexPage (savedDirectory htmlDirectory) htmlDirectory [indexFile htmlDirectory] = some r ∧
    Sends (answer plainPlatform (some r))
      (frames ((after (stepPages plainPlatform fun _ => []) v busyServer).requests 4).trace) := by
  have hconstructed := congrArg (Option.map fun loaded => { Server.new with backend := loaded.2 })
    (savedDirectory_loads htmlDirectory (by decide))
  have hpage := indexPage_savedDirectory htmlDirectory (by decide)
  have hpost : PlainRequest postHeaders := ⟨⟨rfl, rfl⟩, by decide⟩
  have hserved := (plain_requests_served plainPlatform (fun _ => []) (savedDirectory htmlDirectory) _
    hconstructed busyServer 4 [] postHeaders [.bodyAvailable ⟨["a"], false⟩, .bodyAvailable ⟨["b"], true⟩]
    rfl (by simp) hpost (by simp [Answered])).2.2 rfl ⟨by decide, by decide, Or.inr rfl⟩
  have hlisted : ((savedDirectory htmlDirectory).enumerateDirectoryRecursively htmlDirectory).bind
      (indexPage (savedDirectory htmlDirectory) htmlDirectory) =
        indexPage (savedDirectory htmlDirectory) htmlDirectory [indexFile htmlDirectory] := rfl
  rw [hlisted, hpage] at hserved
  exact ⟨_, _, hconstructed, hpage, hserved⟩

end QuailServer.ServerPages
