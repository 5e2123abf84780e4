import QuailServer.SessionEvents

set_option autoImplicit false

namespace QuailServer.IncomingMessages
open HeaderBlock WebTransport ServerStream ServerBackend WebTransportServer StepMachine

def Signalled (v : Server) (x : StreamId) : Prop := messages x v.log = received x v.log

/-- The stream that a notification of the session accepts. -/
def nextStream (v : Server) (id : StreamId) : Option StreamId :=
  (v.session id).bind fun w =>
    if w.ready && w.visitor.isSome then w.incomingBidirectionalStreams.head? else none

/-- A notification finds nothing to read on the stream it accepts. -/
def AcceptsEmpty (v : Server) : ServerEvent → Prop
  | .streamAvailable id => ∀ x, nextStream v id = some x → (v.streams x).unread = []
  | _ => True

def Open (v : Server) (x : StreamId) : Prop :=
  (v.streams x).session.isSome = true ∧ (v.streams x).fin = false

/-- Data comes in on streams with a visitor only. -/
def ArrivesAccepted (v : Server) : ServerEvent → Prop
  | .dataArrives x data _ => Open v x → data ≠ [] → (v.streams x).visitor.isSome = true
  | _ => True

variable {q : Platform} {react : List Effect → List HandlerCall} {v : Server}

theorem signalled_iff (h : Linked q v) (x : StreamId) : Signalled v x ↔ (v.streams x).unread = [] := by
  unfold Signalled
  rw [← (h.stream x).conserved]
  exact List.self_eq_append_right

theorem sessionReady_streams (v : Server) (id : StreamId) : (v.sessionReady id).streams = v.streams := by
  unfold Server.sessionReady
  cases v.session id with
  | none => rfl
  | some w =>
    dsimp only
    split
    · cases w.visitor <;> rfl
    · rfl

theorem streamArrives_streams (v : Server) (id x y : StreamId) :
    ((v.streamArrives id x).streams y).unread = (v.streams y).unread ∧
      ((v.streamArrives id x).streams y).visitor = (v.streams y).visitor := by
  unfold Server.streamArrives
  split
  · rw [Server.append_streams, Server.setSession_streams, Server.setStream_streams]
    split
    · rename_i hy
      rw [hy]
      exact ⟨rfl, rfl⟩
    · exact ⟨rfl, rfl⟩
  · exact ⟨rfl, rfl⟩

theorem dataArrives_closed {x : StreamId} (h : ¬ Open v x) (data : Str) (fin : Bool) :
    v.dataArrives x data fin = v := by
  unfold Server.dataArrives
  rw [if_neg]
  simpa [Open] using h

theorem dataArrives_open {x : StreamId} (h : Open v x) (data : Str) (fin : Bool) (y : StreamId) :
    (v.dataArrives x data fin).streams y =
      if y = x then { v.streams x with
        unread := if (v.streams x).visitor.isSome then [] else (v.streams x).unread ++ data
        fin := fin }
      else v.streams y := by
  unfold Server.dataArrives
  rw [if_pos (by simp [h.1, h.2])]
  dsimp only
  split
  · rename_i visitor hvisitor
    have hsome : (v.streams x).visitor = some visitor := by
      rw [Server.append_streams, Server.setStream_same] at hvisitor
      exact hvisitor
    unfold Server.onCanRead
    rw [Server.append_streams, Server.setStream_streams]
    split
    · rw [Server.append_streams, Server.setStream_same, hsome]
      rfl
    · rename_i hy
      rw [Server.append_streams, Server.setStream_streams, if_neg hy]
  · rename_i hvisitor
    have hnone : (v.streams x).visitor = none := by
      rw [Server.append_streams, Server.setStream_same] at hvisitor
      exact hvisitor
    rw [Server.append_streams, Server.setStream_streams, hnone]
    rfl

theorem streamAvailable_streams (v : Server) (id x : StreamId) :
    ((v.streamAvailable id).streams x).unread = (v.streams x).unread ∧
      (((v.streamAvailable id).streams x).visitor.isSome = true ↔
        (v.streams x).visitor.isSome = true ∨ nextStream v id = some x) := by
  unfold Server.streamAvailable nextStream
  cases v.session id with
  | none => simp
  | some w =>
    rw [Option.bind_some]
    dsimp only
    split
    · unfold Server.onIncomingBidirectionalStreamAvailable
      cases w.incomingBidirectionalStreams with
      | nil => simp
      | cons y incoming =>
        rw [Server.setStream_streams]
        by_cases hx : x = y
        · subst hx
          simp
        · simp [hx, Ne.symm hx]
    · simp

theorem step_streams (q : Platform) (react : List Effect → List HandlerCall) (v : Server)
    (e : ServerEvent) : (∃ x data fin, e = .dataArrives x data fin) ∨ (∃ id, e = .streamAvailable id) ∨
      ∀ x, ((v.step q react e).streams x).unread = (v.streams x).unread ∧
        ((v.step q react e).streams x).visitor = (v.streams x).visitor := by
  cases e with
  | on path callback => exact Or.inr (Or.inr fun x => ⟨rfl, rfl⟩)
  | request id event => exact Or.inr (Or.inr fun x => ⟨rfl, rfl⟩)
  | sessionReady id =>
    have hsame : (v.step q react (.sessionReady id)).streams = v.streams := sessionReady_streams v id
    rw [hsame]
    exact Or.inr (Or.inr fun x => ⟨rfl, rfl⟩)
  | streamArrives id y => exact Or.inr (Or.inr (streamArrives_streams v id y))
  | dataArrives y data fin => exact Or.inl ⟨y, data, fin, rfl⟩
  | streamAvailable id => exact Or.inr (Or.inl ⟨id, rfl⟩)

def Drained (v : Server) : Prop := ∀ x, (v.streams x).visitor.isSome = true → (v.streams x).unread = []

theorem step_drained (hv : Drained v) {e : ServerEvent} (he : AcceptsEmpty v e) :
    Drained (v.step q react e) := by
  intro y hvisitor
  rcases step_streams q react v e with ⟨x, data, fin, rfl⟩ | ⟨id, rfl⟩ | hsame
  · by_cases hopen : Open v x
    · simp only [Server.step, dataArrives_open hopen] at hvisitor ⊢
      split
      · rename_i hy
        rw [if_pos hy] at hvisitor
        exact if_pos hvisitor
      · rename_i hy
        rw [if_neg hy] at hvisitor
        exact hv y hvisitor
    · simp only [Server.step, dataArrives_closed hopen] at hvisitor ⊢
      exact hv y hvisitor
  · have hstream := streamAvailable_streams v id y
    simp only [Server.step] at hvisitor ⊢
    rw [hstream.1]
    rcases hstream.2.mp hvisitor with hold | hnext
    · exact hv y hold
    · exact he y hnext
  · rw [(hsame y).2] at hvisitor
    rw [(hsame y).1]
    exact hv y hvisitor

theorem step_undrained (h : Linked q v) {e : ServerEvent} (he : ¬ AcceptsEmpty v e) :
    ∃ x, ((v.step q react e).streams x).visitor.isSome = true ∧ ¬ Signalled (v.step q react e) x := by
  cases e with
  | streamAvailable id =>
    simp only [AcceptsEmpty, not_forall] at he
    obtain ⟨x, hnext, hunread⟩ := he
    have hstream := streamAvailable_streams v id x
    refine ⟨x, hstream.2.mpr (Or.inr hnext), ?_⟩
    rw [signalled_iff (step_linked h react _)]
    simp only [Server.step]
    rwa [hstream.1]
  | _ => exact absurd trivial he

theorem step_unread (hv : ∀ x, (v.streams x).unread = []) {e : ServerEvent}
    (he : ArrivesAccepted v e) (y : StreamId) : ((v.step q react e).streams y).unread = [] := by
  rcases step_streams q react v e with ⟨x, data, fin, rfl⟩ | ⟨id, rfl⟩ | hsame
  · by_cases hopen : Open v x
    · simp only [Server.step, dataArrives_open hopen]
      split
      · dsimp only
        split
        · rfl
        · rename_i hvisitor
          have hdata : data = [] := by
            by_contra hne
            exact hvisitor (he hopen hne)
          rw [hv x, hdata]
          rfl
      · exact hv y
    · simp only [Server.step, dataArrives_closed hopen]
      exact hv y
  · simp only [Server.step]
    rw [(streamAvailable_streams v id y).1]
    exact hv y
  · rw [(hsame y).1]
    exact hv y

theorem step_arrives (h : Linked q v) (hv : ∀ x, (v.streams x).unread = []) {e : ServerEvent}
    (he : ¬ ArrivesAccepted v e) : ∃ x, ¬ Signalled (v.step q react e) x := by
  cases e with
  | dataArrives x data fin =>
    simp only [ArrivesAccepted, not_forall] at he
    obtain ⟨hopen, hdata, hvisitor⟩ := he
    refine ⟨x, ?_⟩
    rw [signalled_iff (step_linked h react _)]
    simp only [Server.step, dataArrives_open hopen, if_true]
    rw [if_neg hvisitor, hv x]
    exact hdata
  | _ => exact absurd trivial he

/-- In every run: all bytes of the streams announced so far are signalled after each event, if
    and only if every notification finds its stream empty. Streams not announced yet keep up as
    well if and only if no data comes in before the notification. -/
theorem messages_signalled_iff (q : Platform) (react : List Effect → List HandlerCall)
    (events : List ServerEvent) :
    (Always (Server.step q react)
        (fun v => ∀ x, (v.streams x).visitor.isSome = true → Signalled v x) .new events ↔
      Each (Server.step q react) AcceptsEmpty .new events) ∧
    (Always (Server.step q react) (fun v => ∀ x, Signalled v x) .new events ↔
      Each (Server.step q react) ArrivesAccepted .new events) := by
  have hall : Each (Server.step q react) (fun _ _ => True) .new events :=
    each_of_labels _ fun _ _ => trivial
  constructor
  · refine always_iff_each (I := fun v => Linked q v ∧ Drained v)
      (fun v h x hx => (signalled_iff h.1 x).mpr (h.2 x hx)) ?_ ?_ ⟨new_linked q, fun _ _ => rfl⟩ hall
    · rintro v e ⟨hlinked, hdrained⟩ - he
      exact ⟨step_linked hlinked react e, step_drained hdrained he⟩
    · rintro v e ⟨hlinked, -⟩ - he hsignalled
      obtain ⟨x, hvisitor, hnot⟩ := step_undrained hlinked he
      exact hnot (hsignalled x hvisitor)
  · refine always_iff_each (I := fun v => Linked q v ∧ ∀ x, (v.streams x).unread = [])
      (fun v h x => (signalled_iff h.1 x).mpr (h.2 x)) ?_ ?_ ⟨new_linked q, fun _ => rfl⟩ hall
    · rintro v e ⟨hlinked, hunread⟩ - he
      exact ⟨step_linked hlinked react e, step_unread hunread he⟩
    · rintro v e ⟨hlinked, hunread⟩ - he hsignalled
      obtain ⟨x, hnot⟩ := step_arrives hlinked hunread he
      exact hnot (hsignalled x)

def chatHeaders : InitialHeaders where
  fin := false
  receivedValid := true
  copiedValid := true
  contentLength := -1
  requestHeaders := (Http2HeaderBlock.set ∅ ":method" "CONNECT").set ":path" "/chat"
  webTransport := true
  bodyAvailable := none
  webTransport_connect _ _ := rfl

def earlyBytes : List ServerEvent :=
  [.on "/chat" 7, .request 0 (.initialHeaders chatHeaders), .sessionReady 0, .streamArrives 0 4,
    .dataArrives 4 "hi" false, .streamAvailable 0]

theorem early_bytes_unsignalled :
    callbacks 0 (serve plainPlatform (fun _ => []) earlyBytes).log = [some 7] ∧
    ((serve plainPlatform (fun _ => []) earlyBytes).streams 4).visitor.isSome = true ∧
    received 4 (serve plainPlatform (fun _ => []) earlyBytes).log = "hi" ∧
    messages 4 (serve plainPlatform (fun _ => []) earlyBytes).log = [] ∧
    ¬ Signalled (serve plainPlatform (fun _ => []) earlyBytes) 4 := by
  refine ⟨rfl, rfl, rfl, rfl, ?_⟩
  intro h
  have hempty : ([] : Str) = "hi" := h
  cases hempty

end QuailServer.IncomingMessages
