import QuailServer.Library.StepMachine
import QuailServer.OutgoingStreams

set_option autoImplicit false

namespace QuailServer.OutgoingMessages
open HeaderBlock WebTransport OutgoingStreams StepMachine

def sent (v : Transport) (id : StreamId) : Str :=
  v.calls.flatMap fun call => if call.1 = id then call.2 else []

def accepted (v : Transport) (id : StreamId) : Str := (v.streams id).outgoing.bytes

/-- What is still held for a stream: what the next `OnCanWrite` writes if the stream takes it. -/
def held (v : Transport) (id : StreamId) : Str :=
  (accepted (v.step (.canWrite id true)) id).drop (accepted v id).length

/-- Of the streams that exist nothing is lost, and nothing stays held after an `OnCanWrite` whose
    writes are taken. -/
def Conserved (v : Transport) : Prop :=
  ∀ id, (v.streams id).alive = true →
    accepted v id ++ held v id = sent v id ∧ held (v.step (.canWrite id true)) id = []

def SendsToStreams (v : Transport) : TransportEvent → Prop
  | .send id _ _ => (v.streams id).alive = true
  | _ => True

def Unblocked (_v : Transport) : TransportEvent → Prop
  | .send _ data unblocked => data ≠ [] → unblocked = true
  | _ => True

variable {v : Transport}

theorem held_nil (v : Transport) (id : StreamId) : held v id = [] := List.drop_length

theorem conserved_iff (v : Transport) :
    Conserved v ↔ ∀ id, (v.streams id).alive = true → accepted v id = sent v id := by
  unfold Conserved
  simp only [held_nil, List.append_nil, and_true]

theorem sent_concat (v : Transport) (id x : StreamId) (data : Str) :
    sent { v with calls := v.calls ++ [(id, data)] } x =
      sent v x ++ if id = x then data else [] := by
  simp [sent]

theorem accepted_setStream (id x : StreamId) (u : TransportStream) :
    accepted (v.setStream id u) x = if x = id then u.outgoing.bytes else accepted v x := by
  unfold accepted Transport.setStream
  dsimp only
  rw [Function.update_apply]
  split <;> rfl

theorem written_bytes (unblocked : Bool) (data : Str) (x : OutgoingStream) :
    (writeIntoStream unblocked data x).2.bytes = x.bytes ++ if unblocked then data else [] := by
  cases unblocked with
  | true => simp [writeIntoStream, OutgoingStream.bytes]
  | false => simp [writeIntoStream]

theorem send_found {id : StreamId} (halive : (v.streams id).alive = true) (data : Str)
    (unblocked : Bool) : v.send id data unblocked =
      Transport.setStream id { v.streams id with
        outgoing := (writeIntoStream unblocked data (v.streams id).outgoing).2 }
        { v with calls := v.calls ++ [(id, data)] } := by
  have hfound : Transport.getStreamById id { v with calls := v.calls ++ [(id, data)] } =
      some (v.streams id) := if_pos halive
  unfold Transport.send
  dsimp only
  rw [hfound]

theorem send_accepted {id : StreamId} (halive : (v.streams id).alive = true) (data : Str)
    (unblocked : Bool) (x : StreamId) : accepted (v.send id data unblocked) x =
      accepted v x ++ if id = x ∧ unblocked = true then data else [] := by
  rw [send_found halive, accepted_setStream]
  by_cases hx : x = id
  · subst hx
    rw [if_pos rfl, written_bytes]
    simp only [true_and]
    rfl
  · rw [if_neg hx, if_neg fun hboth => hx hboth.1.symm, List.append_nil]
    rfl

theorem send_sent {id : StreamId} (halive : (v.streams id).alive = true) (data : Str)
    (unblocked : Bool) (x : StreamId) :
    sent (v.send id data unblocked) x = sent v x ++ if id = x then data else [] := by
  rw [send_found halive]
  exact sent_concat v id x data

def Delivered (v : Transport) : Prop := ∀ id, accepted v id = sent v id

theorem step_delivered (h : Delivered v) {e : TransportEvent} (hstream : SendsToStreams v e)
    (he : Unblocked v e) : Delivered (v.step e) := by
  intro x
  cases e with
  | opened id =>
    have haccepted := accepted_setStream (v := v) id x { v.streams id with alive := true }
    refine haccepted.trans ?_
    split
    · next hx => exact hx ▸ h id
    · exact h x
  | closed id =>
    have haccepted := accepted_setStream (v := v) id x { v.streams id with alive := false }
    refine haccepted.trans ?_
    split
    · next hx => exact hx ▸ h id
    · exact h x
  | send id data unblocked =>
    change accepted (v.send id data unblocked) x = sent (v.send id data unblocked) x
    rw [send_accepted hstream, send_sent hstream, h x]
    by_cases hdata : data = []
    · simp [hdata]
    · simp [he hdata]
  | canWrite id unblocked => exact h x

theorem step_lost (h : Delivered v) {e : TransportEvent} (hstream : SendsToStreams v e)
    (he : ¬ Unblocked v e) : ¬ Conserved (v.step e) := by
  cases e with
  | send id data unblocked =>
    obtain ⟨hdata, hblocked⟩ := Classical.not_imp.mp he
    intro hconserved
    have halive : ((v.send id data unblocked).streams id).alive = true := by
      rw [send_found hstream]
      unfold Transport.setStream
      dsimp only
      rw [Function.update_self]
      exact hstream
    have hlost := (conserved_iff _).mp hconserved id halive
    change accepted (v.send id data unblocked) id = sent (v.send id data unblocked) id at hlost
    rw [send_accepted hstream, send_sent hstream, h id, if_neg fun hboth => hblocked hboth.2,
      if_pos rfl] at hlost
    exact hdata (List.append_cancel_left hlost).symm
  | opened id => exact absurd trivial he
  | closed id => exact absurd trivial he
  | canWrite id unblocked => exact absurd trivial he

/-- Nothing that was sent is lost in a run exactly when no stream refuses a message. -/
theorem messages_conserved_iff {events : List TransportEvent}
    (streams : Each Transport.step SendsToStreams .new events) :
    Always Transport.step Conserved .new events ↔ Each Transport.step Unblocked .new events := by
  apply always_iff_each (I := Delivered) (A := SendsToStreams)
  · intro v h
    exact (conserved_iff v).mpr fun id _ => h id
  · intro v e h hstream he
    exact step_delivered h hstream he
  · intro v e h hstream he
    exact step_lost h hstream he
  · intro id
    rfl
  · exact streams

def takenMessage : List TransportEvent :=
  [.opened 4, .send 4 "hi".toList true, .canWrite 4 true]

theorem messages_conserved_open : Always Transport.step Conserved .new takenMessage := by
  have streams : Each Transport.step SendsToStreams .new takenMessage :=
    ⟨trivial, rfl, trivial, trivial⟩
  exact (messages_conserved_iff streams).mpr ⟨trivial, fun _ => rfl, trivial, trivial⟩

def refusedMessage : List TransportEvent :=
  [.opened 4, .send 4 "hi".toList false, .canWrite 4 true]

theorem refused_message_lost :
    Each Transport.step SendsToStreams .new refusedMessage ∧
      sent (after Transport.step .new refusedMessage) 4 = "hi".toList ∧
      accepted (after Transport.step .new refusedMessage) 4 = [] ∧
      ¬ Always Transport.step Conserved .new refusedMessage := by
  refine ⟨⟨trivial, rfl, trivial, trivial⟩, rfl, rfl, fun h => ?_⟩
  have hlast := (conserved_iff _).mp h.last 4 rfl
  exact absurd hlast (by decide)

end QuailServer.OutgoingMessages
