import Mathlib.Data.List.Induction
import QuailServer.OutgoingMessages

set_option autoImplicit false

namespace QuailServer.VanishedStreams
open HeaderBlock WebTransport OutgoingStreams OutgoingMessages StepMachine

/-- The stream was opened in this part of a run, and is still there at its end. -/
def OpenAfter (id : StreamId) (events : List TransportEvent) : Prop :=
  ∃ earlier later, events = earlier ++ .opened id :: later ∧ .closed id ∉ later

structure SendsHarmless (events : List TransportEvent) : Prop where
  notNull : Always Transport.step (fun v => v.nullDereferenced = false) .new events
  missing : Each Transport.step (fun v e => ∀ id data unblocked, e = .send id data unblocked →
    v.getStreamById id = none → (v.step e).streams = v.streams) .new events
  existing : Each Transport.step (fun v e => ∀ id data unblocked, e = .send id data unblocked →
    ∀ other ≠ id, (v.step e).streams other = v.streams other) .new events

theorem OpenAfter.concat {id : StreamId} {events : List TransportEvent} {e : TransportEvent}
    (h : OpenAfter id events) (he : e ≠ .closed id) : OpenAfter id (events ++ [e]) := by
  obtain ⟨earlier, later, rfl, hlater⟩ := h
  refine ⟨earlier, later ++ [e], by simp, ?_⟩
  rw [List.mem_append, List.mem_singleton]
  exact not_or.mpr ⟨hlater, he.symm⟩

theorem OpenAfter.of_concat {id : StreamId} {events : List TransportEvent} {e : TransportEvent}
    (h : OpenAfter id (events ++ [e])) : e = .opened id ∨ e ≠ .closed id ∧ OpenAfter id events := by
  obtain ⟨earlier, later, heq, hlater⟩ := h
  rcases List.eq_nil_or_concat' later with rfl | ⟨later, x, rfl⟩
  · left
    exact (List.append_inj' heq rfl).2 |> List.singleton_inj.mp
  · right
    rw [← List.cons_append, ← List.append_assoc] at heq
    obtain ⟨hevents, hx⟩ := List.append_inj' heq rfl
    obtain rfl := List.singleton_inj.mp hx
    rw [List.mem_append, List.mem_singleton, not_or] at hlater
    exact ⟨Ne.symm hlater.2, earlier, later, hevents, hlater.1⟩

theorem setStream_alive (id x : StreamId) (u : TransportStream) (v : Transport) :
    ((v.setStream id u).streams x).alive = if x = id then u.alive else (v.streams x).alive := by
  unfold Transport.setStream
  dsimp only
  rw [Function.update_apply]
  split <;> rfl

theorem send_missing {id : StreamId} {v : Transport} (halive : ¬ (v.streams id).alive = true)
    (data : Str) (unblocked : Bool) : v.send id data unblocked =
      { v with calls := v.calls ++ [(id, data)], nullDereferenced := true } := by
  have hnone : Transport.getStreamById id { v with calls := v.calls ++ [(id, data)] } = none :=
    if_neg halive
  unfold Transport.send
  dsimp only
  rw [hnone]

theorem send_streams (id : StreamId) (data : Str) (unblocked : Bool) (v : Transport) (x : StreamId) :
    ((v.send id data unblocked).streams x).alive = (v.streams x).alive ∧
      (x ≠ id → (v.send id data unblocked).streams x = v.streams x) := by
  by_cases halive : (v.streams id).alive = true
  · rw [send_found halive, setStream_alive]
    refine ⟨?_, fun hx => Function.update_of_ne hx _ _⟩
    split
    · next hx => rw [hx]
    · rfl
  · rw [send_missing halive]
    exact ⟨rfl, fun _ => rfl⟩

/-- A stream is found exactly when its last opening was not followed by its end. -/
theorem alive_iff (id : StreamId) (events : List TransportEvent) :
    ((after Transport.step .new events).streams id).alive = true ↔ OpenAfter id events := by
  induction events using List.reverseRecOn with
  | nil => exact iff_of_false nofun fun ⟨earlier, later, h, _⟩ => absurd h.symm (by simp)
  | append_singleton events e ih =>
    have hkeep : e ≠ .opened id → e ≠ .closed id →
        (OpenAfter id (events ++ [e]) ↔ OpenAfter id events) := fun hopened hclosed =>
      ⟨fun h => (h.of_concat.resolve_left hopened).2, fun h => h.concat hclosed⟩
    rw [after_concat]
    cases e with
    | opened x =>
      change ((Transport.setStream _ _ _).streams id).alive = true ↔ _
      rw [setStream_alive]
      by_cases hx : id = x
      · subst hx
        exact iff_of_true (if_pos rfl) ⟨events, [], rfl, List.not_mem_nil⟩
      · rw [if_neg hx, ih, hkeep (fun h => hx (by injection h with h; exact h.symm)) nofun]
    | closed x =>
      change ((Transport.setStream _ _ _).streams id).alive = true ↔ _
      rw [setStream_alive]
      by_cases hx : id = x
      · subst hx
        rw [if_pos rfl]
        exact iff_of_false nofun fun h => (h.of_concat.resolve_left nofun).1 rfl
      · rw [if_neg hx, ih, hkeep nofun fun h => hx (by injection h with h; exact h.symm)]
    | send x data unblocked =>
      change ((Transport.send x data unblocked _).streams id).alive = true ↔ _
      rw [(send_streams x data unblocked _ id).1, ih, hkeep nofun nofun]
    | canWrite x unblocked =>
      change ((after Transport.step .new events).streams id).alive = true ↔ _
      rw [ih, hkeep nofun nofun]

theorem step_notNull {v : Transport} (h : v.nullDereferenced = false) (e : TransportEvent) :
    (v.step e).nullDereferenced = false ↔ SendsToStreams v e := by
  cases e with
  | opened id => exact iff_of_true h trivial
  | closed id => exact iff_of_true h trivial
  | send id data unblocked =>
    change (v.send id data unblocked).nullDereferenced = false ↔ (v.streams id).alive = true
    by_cases halive : (v.streams id).alive = true
    · rw [send_found halive]
      exact iff_of_true h halive
    · rw [send_missing halive]
      exact iff_of_false nofun halive
  | canWrite id unblocked => exact iff_of_true h trivial

/-- A run is free of null dereferences exactly when each `Send` names a stream that was opened and
    is still there; the other streams are left alone in any case. -/
theorem sends_harmless_iff (events : List TransportEvent) :
    SendsHarmless events ↔ ∀ before id data unblocked rest,
      events = before ++ .send id data unblocked :: rest → OpenAfter id before := by
  have hnull : Always Transport.step (fun v => v.nullDereferenced = false) .new events ↔
      Each Transport.step SendsToStreams .new events :=
    always_iff_each (A := fun _ _ => True) (I := fun v : Transport => v.nullDereferenced = false)
      (fun _ h => h)
      (fun v e h _ he => (step_notNull h e).mpr he)
      (fun v e h _ he => fun hnot => he ((step_notNull h e).mp hnot)) rfl
      (each_of_labels _ fun _ _ => trivial)
  have hsends : Each Transport.step SendsToStreams .new events ↔ ∀ before id data unblocked rest,
      events = before ++ .send id data unblocked :: rest → OpenAfter id before := by
    rw [each_iff_split]
    constructor
    · intro h before id data unblocked rest hevents
      exact (alive_iff id before).mp (h before _ rest hevents)
    · intro h before e rest hevents
      cases e with
      | send id data unblocked =>
        exact (alive_iff id before).mpr (h before id data unblocked rest hevents)
      | opened id => trivial
      | closed id => trivial
      | canWrite id unblocked => trivial
  rw [← hsends, ← hnull]
  refine ⟨SendsHarmless.notNull, fun h => ⟨h, ?_, ?_⟩⟩
  · refine each_iff_split.mpr fun before e rest _ => ?_
    rintro id data unblocked rfl hnone
    have halive : ¬ ((after Transport.step .new before).streams id).alive = true := by
      intro halive
      have hsome : Transport.getStreamById id (after Transport.step .new before) = some _ :=
        if_pos halive
      rw [hsome] at hnone
      cases hnone
    change (Transport.send id data unblocked _).streams = _
    rw [send_missing halive]
  · refine each_iff_split.mpr fun before e rest _ => ?_
    rintro id data unblocked rfl other hother
    exact (send_streams id data unblocked _ other).2 hother

theorem vanished_stream_dereferenced :
    ¬ SendsHarmless [.opened 4, .closed 4, .send 4 "hi".toList true] := fun h =>
  absurd h.notNull.last (by decide)

end QuailServer.VanishedStreams
