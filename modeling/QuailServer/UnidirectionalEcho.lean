import QuailServer.EchoVisitors
import QuailServer.Library.StepMachine

set_option autoImplicit false

namespace QuailServer.UnidirectionalEcho
open HeaderBlock EchoVisitors StepMachine EchoWebTransportSessionVisitor

def Carries (contents : Str) (sent : List Sent) : Prop :=
  ∃ writes : List Str, sent = writes.map .data ++ [.fin] ∧ writes.flatten = contents

theorem Carries.fin_mem {contents : Str} {sent : List Sent} (h : Carries contents sent) :
    .fin ∈ sent := by
  obtain ⟨writes, rfl, -⟩ := h
  exact List.mem_append_right _ List.mem_cons_self

/-- Each stream that was read to its end is queued or echoed once, in order, and a stream that took
    everything when it could carries its contents and a FIN. -/
structure EchoesBack (s : EchoWebTransportSessionVisitor) : Prop where
  once : (s.completed.map Prod.fst).Nodup
  completed : ∀ index data, (index, data) ∈ s.completed ↔
    index < s.acceptedIncoming ∧ ∃ x, s.incoming[index]? = some x ∧ x.fin = true ∧ x.received = data
  order : s.completed.map Prod.snd = s.outgoing.map OutgoingStream.contents ++ s.streamsToEchoBack
  drained : s.streamsToEchoBack = [] ∨ s.canOpenNextOutgoingUnidirectionalStream = false
  started : ∀ x ∈ s.outgoing, ∃ rest, Carries x.contents (x.sent ++ rest)
  carried : ∀ x ∈ s.outgoing, x.offered = true → Carries x.contents x.sent

def finished (s : EchoWebTransportSessionVisitor) (index : ℕ) : Option (ℕ × Str) :=
  match s.incoming[index]? with
  | some x => if x.fin then some (index, x.received) else none
  | none => none

def completing (s : EchoWebTransportSessionVisitor) : SessionEvent → List (ℕ × Str)
  | .dataArrives index data fin _ =>
    match s.incoming[index]? with
    | some x =>
      if !x.fin && fin && decide (index < s.acceptedIncoming) then [(index, x.received ++ data)]
      else []
    | none => []
  | .streamAvailable _ =>
    (List.range' s.acceptedIncoming (s.incoming.length - s.acceptedIncoming)).filterMap (finished s)
  | _ => []

/-- No stream that is opened for empty contents would take everything at once. -/
def Opens (s : EchoWebTransportSessionVisitor) (credit : ℕ) (results : Results)
    (waiting : List Str) : Prop :=
  ∀ k, s.outgoing.length + k < credit → waiting[k]? = some [] →
    results (s.outgoing.length + k) ≠ (true, true)

/-- No `OnCanWrite` at a time when the stream takes everything finds the data gone and the FIN not
    sent. -/
def Served (s : EchoWebTransportSessionVisitor) (e : SessionEvent) : Prop :=
  let waiting := s.streamsToEchoBack ++ (completing s e).map Prod.snd
  match e with
  | .streamArrives => True
  | .dataArrives _ _ _ results => Opens s s.credit results waiting
  | .streamAvailable results => Opens s s.credit results waiting
  | .creditGranted streams results => Opens s (s.credit + streams) results waiting
  | .canWrite index ok =>
    ok = (true, true) → ∀ x, s.outgoing[index]? = some x → x.data = [] → .fin ∈ x.sent

def Progress (x : OutgoingStream) : Prop :=
  (x.data = x.contents ∧ x.sent = []) ∨
    (x.data = [] ∧ (x.sent = [.data x.contents] ∨ x.sent = [.data x.contents, .fin]))

structure Regular (x : OutgoingStream) : Prop where
  progress : Progress x
  served : x.offered = true → .fin ∈ x.sent

theorem Progress.started {x : OutgoingStream} (h : Progress x) :
    ∃ rest, Carries x.contents (x.sent ++ rest) := by
  rcases h with ⟨-, hsent⟩ | ⟨-, hsent | hsent⟩
  · exact ⟨[.data x.contents, .fin], [x.contents], by simp [hsent], by simp⟩
  · exact ⟨[.fin], [x.contents], by simp [hsent], by simp⟩
  · exact ⟨[], [x.contents], by simp [hsent], by simp⟩

theorem Regular.carries {x : OutgoingStream} (h : Regular x) (hoffered : x.offered = true) :
    Carries x.contents x.sent := by
  have hfin := h.served hoffered
  rcases h.progress with ⟨-, hsent⟩ | ⟨-, hsent | hsent⟩
  · simp [hsent] at hfin
  · simp [hsent] at hfin
  · exact ⟨[x.contents], by simp [hsent], by simp⟩

theorem onCanWrite_empty {x : OutgoingStream} (hdata : x.data = []) (ok : Bool × Bool) :
    x.onCanWrite ok = { x with offered := x.offered || (ok.1 && ok.2) } := by
  unfold OutgoingStream.onCanWrite
  dsimp only
  rw [if_pos (by simp [hdata])]

theorem onCanWrite_full {x : OutgoingStream} (hdata : x.data ≠ []) (ok : Bool × Bool) :
    x.onCanWrite ok = match ok with
      | (false, _) => x
      | (true, false) => { x with data := [], sent := x.sent ++ [.data x.data] }
      | (true, true) =>
        { x with data := [], sent := x.sent ++ [.data x.data, .fin], offered := true } := by
  have hfull : ¬ x.data.isEmpty = true := by simpa using hdata
  unfold OutgoingStream.onCanWrite
  dsimp only
  rw [if_neg hfull]
  match ok with
  | (false, _) => simp
  | (true, false) => simp
  | (true, true) => simp

theorem onCanWrite_contents (ok : Bool × Bool) (x : OutgoingStream) :
    (x.onCanWrite ok).contents = x.contents := by
  by_cases hdata : x.data = []
  · rw [onCanWrite_empty hdata]
  · rw [onCanWrite_full hdata]
    match ok with
    | (false, _) => rfl
    | (true, false) => rfl
    | (true, true) => rfl

theorem onCanWrite_regular {x : OutgoingStream} (h : Regular x) {ok : Bool × Bool}
    (hserved : ok = (true, true) → x.data = [] → .fin ∈ x.sent) : Regular (x.onCanWrite ok) := by
  by_cases hdata : x.data = []
  · rw [onCanWrite_empty hdata]
    refine ⟨h.progress, fun hoffered => ?_⟩
    rcases Bool.or_eq_true_iff.mp hoffered with hbefore | hnow
    · exact h.served hbefore
    · obtain ⟨hwrite, hfin⟩ := (Bool.and_eq_true _ _).mp hnow
      exact hserved (Prod.ext hwrite hfin) hdata
  · have hsame : x.data = x.contents ∧ x.sent = [] := h.progress.resolve_right fun hr => hdata hr.1
    rw [onCanWrite_full hdata]
    match ok with
    | (false, _) => exact h
    | (true, false) =>
      refine ⟨Or.inr ⟨rfl, Or.inl ?_⟩, fun hoffered => ?_⟩
      · change x.sent ++ [.data x.data] = _
        rw [hsame.1, hsame.2, List.nil_append]
      · exact List.mem_append_left _ (h.served hoffered)
    | (true, true) =>
      refine ⟨Or.inr ⟨rfl, Or.inr ?_⟩, fun _ => ?_⟩
      · change x.sent ++ [.data x.data, .fin] = _
        rw [hsame.1, hsame.2, List.nil_append]
      · exact List.mem_append_right _ (by simp)

theorem onCanWrite_unserved {x : OutgoingStream} (hdata : x.data = []) (hfin : .fin ∉ x.sent) :
    ¬ ((x.onCanWrite (true, true)).offered = true →
      Carries (x.onCanWrite (true, true)).contents (x.onCanWrite (true, true)).sent) := by
  rw [onCanWrite_empty hdata]
  intro h
  exact hfin (h (Bool.or_true _)).fin_mem

theorem new_regular (data : Str) : Regular (.new data) := ⟨Or.inl ⟨rfl, rfl⟩, nofun⟩

def writers (results : Results) : ℕ → List Str → List OutgoingStream
  | _, [] => []
  | n, data :: rest =>
    (OutgoingStream.new data).onCanWrite (results n) :: writers results (n + 1) rest

section Writers
variable (results : Results)

theorem writers_append (n : ℕ) (xs ys : List Str) :
    writers results n (xs ++ ys) = writers results n xs ++ writers results (n + xs.length) ys := by
  induction xs generalizing n with
  | nil => rfl
  | cons x xs ih =>
    rw [List.cons_append, writers, writers, ih, List.cons_append, List.length_cons]
    congr 3
    omega

theorem writers_contents (n : ℕ) (xs : List Str) :
    (writers results n xs).map OutgoingStream.contents = xs := by
  induction xs generalizing n with
  | nil => rfl
  | cons x xs ih => rw [writers, List.map_cons, ih, onCanWrite_contents]; rfl

theorem writers_length (n : ℕ) (xs : List Str) : (writers results n xs).length = xs.length := by
  have h := congrArg List.length (writers_contents results n xs)
  rwa [List.length_map] at h

theorem writers_getElem? (n : ℕ) (xs : List Str) (k : ℕ) :
    (writers results n xs)[k]? =
      xs[k]?.map fun data => (OutgoingStream.new data).onCanWrite (results (n + k)) := by
  induction xs generalizing n k with
  | nil => rfl
  | cons x xs ih =>
    cases k with
    | zero => rfl
    | succ k =>
      have hshift : n + 1 + k = n + (k + 1) := by omega
      rw [writers, List.getElem?_cons_succ, List.getElem?_cons_succ, ih, hshift]

end Writers

structure Sends (results : Results) (s s' : EchoWebTransportSessionVisitor) (done : List (ℕ × Str))
    (opened : List Str) : Prop where
  completed : s'.completed = s.completed ++ done
  credit : s'.credit = s.credit
  outgoing : s'.outgoing = s.outgoing ++ writers results s.outgoing.length opened
  queue : s.streamsToEchoBack ++ done.map Prod.snd = opened ++ s'.streamsToEchoBack
  within : s.outgoing.length ≤ s.credit → s'.outgoing.length ≤ s'.credit

def Drained (s : EchoWebTransportSessionVisitor) : Prop :=
  s.streamsToEchoBack = [] ∨ s.credit ≤ s.outgoing.length

theorem drained_iff (s : EchoWebTransportSessionVisitor) : Drained s ↔
    s.streamsToEchoBack = [] ∨ s.canOpenNextOutgoingUnidirectionalStream = false := by
  unfold Drained canOpenNextOutgoingUnidirectionalStream
  rw [decide_eq_false_iff_not, Nat.not_lt]

structure SameIncoming (s s' : EchoWebTransportSessionVisitor) : Prop where
  incoming : s'.incoming = s.incoming
  accepted : s'.acceptedIncoming = s.acceptedIncoming

section Sends
variable {results : Results} {s s' s'' : EchoWebTransportSessionVisitor}

theorem Sends.refl (s : EchoWebTransportSessionVisitor) : Sends results s s [] [] :=
  ⟨(List.append_nil _).symm, rfl, (List.append_nil _).symm, List.append_nil _, id⟩

theorem Sends.trans {done done' : List (ℕ × Str)} {opened opened' : List Str}
    (h : Sends results s s' done opened) (h' : Sends results s' s'' done' opened') :
    Sends results s s'' (done ++ done') (opened ++ opened') where
  completed := by rw [h'.completed, h.completed, List.append_assoc]
  credit := h'.credit.trans h.credit
  outgoing := by
    rw [h'.outgoing, h.outgoing, List.append_assoc, writers_append, List.length_append,
      writers_length]
  queue := by rw [List.map_append, ← List.append_assoc, h.queue, List.append_assoc, h'.queue,
    List.append_assoc]
  within hle := h'.within (h.within hle)

theorem echoBack_sends {front : Str} {rest : List Str}
    (hqueue : s.streamsToEchoBack = front :: rest) (hroom : s.outgoing.length < s.credit) :
    Sends results s (s.echoBack results front rest) [] [front] where
  completed := (List.append_nil _).symm
  credit := rfl
  outgoing := rfl
  queue := by
    rw [hqueue]
    exact List.append_nil _
  within _ := by
    change (s.outgoing ++ [_]).length ≤ s.credit
    rw [List.length_append, List.length_singleton]
    exact hroom

theorem sendQueued_sends (results : Results) {queue : List Str}
    (hqueue : s.streamsToEchoBack = queue) :
    ∃ opened, Sends results s (sendQueued results queue s) [] opened ∧
      Drained (sendQueued results queue s) ∧ SameIncoming s (sendQueued results queue s) := by
  induction queue generalizing s with
  | nil => exact ⟨[], .refl s, Or.inl hqueue, rfl, rfl⟩
  | cons front rest ih =>
    rw [sendQueued]
    unfold canOpenNextOutgoingUnidirectionalStream
    by_cases hroom : s.outgoing.length < s.credit
    · rw [if_pos (decide_eq_true hroom)]
      obtain ⟨opened, hsends, hdrained, hincoming⟩ := ih (s := s.echoBack results front rest) rfl
      exact ⟨front :: opened, (echoBack_sends hqueue hroom).trans hsends, hdrained,
        hincoming.incoming, hincoming.accepted⟩
    · rw [if_neg (by simpa using hroom)]
      exact ⟨[], .refl s, Or.inr (Nat.not_lt.mp hroom), rfl, rfl⟩

theorem streamCompleted_sends (results : Results) (index : ℕ) (data : Str) :
    ∃ opened, Sends results s (s.streamCompleted results index data) [(index, data)] opened ∧
      Drained (s.streamCompleted results index data) ∧
      SameIncoming s (s.streamCompleted results index data) := by
  obtain ⟨opened, hsends, hdrained, hincoming⟩ := sendQueued_sends results (s :=
    { s with
      streamsToEchoBack := s.streamsToEchoBack ++ [data]
      completed := s.completed ++ [(index, data)] }) rfl
  refine ⟨opened, ⟨?_, hsends.credit, hsends.outgoing, ?_, hsends.within⟩, hdrained,
    hincoming.incoming, hincoming.accepted⟩
  · have h := hsends.completed
    rw [List.append_nil] at h
    exact h
  · have h := hsends.queue
    rw [List.map_nil, List.append_nil] at h
    exact h

structure Reads (results : Results) (s s' : EchoWebTransportSessionVisitor) (index : ℕ)
    (x : IncomingStream) (opened : List Str) : Prop where
  sends : Sends results s s' (if x.fin then [(index, x.buffer ++ x.unread)] else []) opened
  drained : Drained s → Drained s'
  incoming : s'.incoming = s.incoming.set index x.read
  accepted : s'.acceptedIncoming = s.acceptedIncoming

theorem onCanRead_reads (results : Results) {index : ℕ} {x : IncomingStream}
    (hx : s.incoming[index]? = some x) :
    ∃ opened, Reads results s (s.onCanRead results index) index x opened := by
  unfold onCanRead
  rw [hx]
  dsimp only
  by_cases hfin : x.fin = true
  · obtain ⟨opened, hsends, hdrained, hincoming⟩ := streamCompleted_sends results
      (s := { s with incoming := s.incoming.set index x.read }) index x.read.buffer
    rw [if_pos hfin]
    refine ⟨opened, ?_, fun _ => hdrained, hincoming.incoming, hincoming.accepted⟩
    rw [if_pos hfin]
    exact ⟨hsends.completed, hsends.credit, hsends.outgoing, hsends.queue, hsends.within⟩
  · rw [if_neg hfin]
    refine ⟨[], ?_, id, rfl, rfl⟩
    rw [if_neg hfin]
    exact ⟨(List.append_nil _).symm, rfl, (List.append_nil _).symm, List.append_nil _, id⟩

end Sends

section Incoming
variable {results : Results} {s : EchoWebTransportSessionVisitor}

/-- What was completed, apart from the stream that is about to be read. -/
structure ReadingBut (index : Option ℕ) (s : EchoWebTransportSessionVisitor) : Prop where
  once : (s.completed.map Prod.fst).Nodup
  completed : ∀ i data, (i, data) ∈ s.completed ↔ some i ≠ index ∧ i < s.acceptedIncoming ∧
    ∃ x, s.incoming[i]? = some x ∧ x.fin = true ∧ x.received = data
  split : ∀ x ∈ s.incoming, x.buffer ++ x.unread = x.received

theorem onCanRead_reading (results : Results) {index : ℕ} (h : ReadingBut (some index) s)
    {x : IncomingStream} (hx : s.incoming[index]? = some x) (haccepted : index < s.acceptedIncoming) :
    ReadingBut none (s.onCanRead results index) := by
  obtain ⟨opened, hreads⟩ := onCanRead_reads results hx
  have hlt : index < s.incoming.length := (List.getElem?_eq_some_iff.mp hx).1
  have hsplit := h.split x (List.mem_of_getElem? hx)
  have hnew : index ∉ s.completed.map Prod.fst := by
    intro hmem
    obtain ⟨⟨i, data⟩, hentry, rfl⟩ := List.mem_map.mp hmem
    exact ((h.completed _ _).mp hentry).1 rfl
  constructor
  · rw [hreads.sends.completed, List.map_append]
    split
    · rw [List.map_singleton]
      refine List.nodup_append.mpr ⟨h.once, List.nodup_singleton _, ?_⟩
      rintro i hi j hj rfl
      rw [List.mem_singleton.mp hj] at hi
      exact hnew hi
    · rw [List.map_nil, List.append_nil]
      exact h.once
  · intro i data
    rw [hreads.sends.completed, hreads.incoming, hreads.accepted, List.mem_append, h.completed,
      List.getElem?_set]
    by_cases hi : i = index
    · subst hi
      rw [if_pos rfl, if_pos hlt, hsplit, or_iff_right fun hentry => hentry.1 rfl]
      by_cases hfin : x.fin = true
      · rw [if_pos hfin, List.mem_singleton, Prod.mk.injEq, and_iff_right rfl]
        refine ⟨fun heq => ⟨nofun, haccepted, _, rfl, hfin, heq.symm⟩, ?_⟩
        rintro ⟨-, -, y, hy, -, hdata⟩
        rw [← hdata, ← Option.some.inj hy]
        rfl
      · rw [if_neg hfin]
        refine iff_of_false List.not_mem_nil ?_
        rintro ⟨-, -, y, hy, hfin', -⟩
        rw [← Option.some.inj hy] at hfin'
        exact hfin hfin'
    · have hother : (i, data) ∉ if x.fin = true then [(index, x.buffer ++ x.unread)] else [] := by
        split
        · intro hmem
          exact hi (congrArg Prod.fst (List.mem_singleton.mp hmem))
        · exact List.not_mem_nil
      rw [if_neg (Ne.symm hi), or_iff_left hother]
      simp [hi]
  · rw [hreads.incoming]
    intro y hy
    rcases List.mem_or_eq_of_mem_set hy with hold | rfl
    · exact h.split y hold
    · change (x.buffer ++ x.unread) ++ [] = x.received
      rw [List.append_nil, hsplit]

theorem onCanRead_finished {index : ℕ} {x : IncomingStream} (hx : s.incoming[index]? = some x)
    (i : ℕ) : finished (s.onCanRead results index) i = finished s i := by
  obtain ⟨opened, hreads⟩ := onCanRead_reads results hx
  have hlt : index < s.incoming.length := (List.getElem?_eq_some_iff.mp hx).1
  unfold finished
  rw [hreads.incoming, List.getElem?_set]
  by_cases hi : index = i
  · subst hi
    rw [if_pos rfl, if_pos hlt, hx]
    rfl
  · rw [if_neg hi]

theorem acceptStreams_sends (results : Results) {waiting : ℕ}
    (hwaiting : s.incoming.length - s.acceptedIncoming = waiting) (h : ReadingBut none s) : ∃ opened,
      Sends results s (acceptStreams results (waiting + 1) s)
        ((List.range' s.acceptedIncoming waiting).filterMap (finished s)) opened ∧
      (Drained s → Drained (acceptStreams results (waiting + 1) s)) ∧
      ReadingBut none (acceptStreams results (waiting + 1) s) ∧
      (acceptStreams results (waiting + 1) s).acceptIncomingUnidirectionalStream = none := by
  induction waiting generalizing s with
  | zero =>
    have hnone : s.acceptIncomingUnidirectionalStream = none := if_neg (by omega)
    rw [acceptStreams, hnone]
    exact ⟨[], .refl s, id, h, hnone⟩
  | succ waiting ih =>
    have hlt : s.acceptedIncoming < s.incoming.length := by omega
    have hx : s.incoming[s.acceptedIncoming]? = some s.incoming[s.acceptedIncoming] :=
      List.getElem?_eq_getElem hlt
    have hsome : s.acceptIncomingUnidirectionalStream =
        some (s.acceptedIncoming, { s with acceptedIncoming := s.acceptedIncoming + 1 }) :=
      if_pos hlt
    obtain ⟨opened, hreads⟩ := onCanRead_reads results
      (s := { s with acceptedIncoming := s.acceptedIncoming + 1 }) hx
    have hbut : ReadingBut (some s.acceptedIncoming)
        { s with acceptedIncoming := s.acceptedIncoming + 1 } := by
      refine ⟨h.once, fun i data => (h.completed i data).trans ?_, h.split⟩
      rw [and_iff_right nofun, ← and_assoc]
      refine and_congr_left fun _ => ?_
      rw [ne_eq, Option.some.injEq]
      dsimp only
      omega
    have hreading := onCanRead_reading results hbut hx (Nat.lt_succ_self _)
    obtain ⟨opened', hsends, hdrained, hrest⟩ := ih (by
      rw [hreads.incoming, hreads.accepted, List.length_set]
      dsimp only
      omega) hreading
    rw [acceptStreams, hsome]
    refine ⟨opened ++ opened', ?_, fun hd => hdrained (hreads.drained hd), hrest⟩
    have hfirst : (finished s s.acceptedIncoming).toList =
        if s.incoming[s.acceptedIncoming].fin = true then
          [(s.acceptedIncoming, s.incoming[s.acceptedIncoming].buffer ++
            s.incoming[s.acceptedIncoming].unread)]
        else [] := by
      unfold finished
      rw [hx, h.split _ (List.getElem_mem hlt)]
      dsimp only
      split <;> rfl
    have hdone : (List.range' s.acceptedIncoming (waiting + 1)).filterMap (finished s) =
        (finished s s.acceptedIncoming).toList ++
          (List.range' (s.acceptedIncoming + 1) waiting).filterMap (finished s) := by
      rw [List.range'_succ, List.filterMap_cons]
      cases finished s s.acceptedIncoming <;> rfl
    have hsame : finished (onCanRead results s.acceptedIncoming
        { s with acceptedIncoming := s.acceptedIncoming + 1 }) = finished s :=
      funext fun i =>
        onCanRead_finished (s := { s with acceptedIncoming := s.acceptedIncoming + 1 }) hx i
    have hboth := hreads.sends.trans hsends
    rw [hreads.accepted, hsame, ← hfirst] at hboth
    rw [hdone]
    exact ⟨hboth.completed, hboth.credit, hboth.outgoing, hboth.queue, hboth.within⟩

theorem arrive_reading (h : ReadingBut none s) {index : ℕ} {x : IncomingStream}
    (hx : s.incoming[index]? = some x) (hopen : ¬ x.fin = true) (data : Str) (fin : Bool) :
    ReadingBut (some index) { s with incoming := s.incoming.set index (x.arrive data fin) } ∧
      (¬ index < s.acceptedIncoming →
        ReadingBut none { s with incoming := s.incoming.set index (x.arrive data fin) }) := by
  have hunread : ∀ d, (index, d) ∉ s.completed := by
    intro d hmem
    obtain ⟨-, -, y, hy, hfin, -⟩ := (h.completed index d).mp hmem
    rw [hx] at hy
    exact hopen (Option.some.inj hy ▸ hfin)
  have hsplit : ∀ y ∈ s.incoming.set index (x.arrive data fin),
      y.buffer ++ y.unread = y.received := by
    intro y hy
    rcases List.mem_or_eq_of_mem_set hy with hold | rfl
    · exact h.split y hold
    · change x.buffer ++ (x.unread ++ data) = x.received ++ data
      rw [← List.append_assoc, h.split x (List.mem_of_getElem? hx)]
  have hother : ∀ i d, i ≠ index → ((i, d) ∈ s.completed ↔ i < s.acceptedIncoming ∧
      ∃ y, (s.incoming.set index (x.arrive data fin))[i]? = some y ∧ y.fin = true ∧
        y.received = d) := by
    intro i d hi
    rw [List.getElem?_set_ne (Ne.symm hi), h.completed, and_iff_right nofun]
  refine ⟨⟨h.once, fun i d => ?_, hsplit⟩, fun haccepted => ⟨h.once, fun i d => ?_, hsplit⟩⟩
  · by_cases hi : i = index
    · subst hi
      exact iff_of_false (hunread d) fun hentry => hentry.1 rfl
    · rw [and_iff_right fun heq => hi (Option.some.inj heq)]
      exact hother i d hi
  · rw [and_iff_right nofun]
    by_cases hi : i = index
    · subst hi
      exact iff_of_false (hunread d) fun hentry => haccepted hentry.1
    · exact hother i d hi

/-- What an event does, up to the credit that it brings. -/
structure Steps (results : Results) (s s' : EchoWebTransportSessionVisitor) (done : List (ℕ × Str))
    (opened : List Str) : Prop where
  sends : Sends results s s' done opened
  drained : Drained s'
  reading : ReadingBut none s'

theorem dataArrives_steps (results : Results) (h : ReadingBut none s) (hdrained : Drained s)
    (index : ℕ) (data : Str) (fin : Bool) : ∃ opened, Steps results s (s.dataArrives index data fin results)
      (completing s (.dataArrives index data fin results)) opened := by
  unfold dataArrives completing
  dsimp only
  cases hx : s.incoming[index]? with
  | none => exact ⟨[], .refl s, hdrained, h⟩
  | some x =>
    dsimp only
    cases hfin : x.fin with
    | true => exact ⟨[], .refl s, hdrained, h⟩
    | false =>
      obtain ⟨hbut, hwaits⟩ := arrive_reading h hx (by simp [hfin]) data fin
      have hlt : index < s.incoming.length := (List.getElem?_eq_some_iff.mp hx).1
      have hx' : (s.incoming.set index (x.arrive data fin))[index]? = some (x.arrive data fin) := by
        rw [List.getElem?_set_self hlt]
      by_cases haccepted : index < s.acceptedIncoming
      · obtain ⟨opened, hreads⟩ := onCanRead_reads results
          (s := { s with incoming := s.incoming.set index (x.arrive data fin) }) hx'
        have hsends := hreads.sends
        have hsplit := h.split x (List.mem_of_getElem? hx)
        have hbuffer : (x.arrive data fin).buffer ++ (x.arrive data fin).unread =
            x.received ++ data := by
          rw [← hsplit, List.append_assoc]
          rfl
        rw [hbuffer] at hsends
        rw [if_pos haccepted]
        refine ⟨opened, ?_, hreads.drained hdrained, onCanRead_reading results hbut hx' haccepted⟩
        simp only [haccepted, decide_true, Bool.not_false, Bool.true_and, Bool.and_true]
        exact ⟨hsends.completed, hsends.credit, hsends.outgoing, hsends.queue, hsends.within⟩
      · rw [if_neg haccepted]
        simp only [haccepted, decide_false, Bool.and_false]
        refine ⟨[], ?_, hdrained, hwaits haccepted⟩
        exact ⟨(List.append_nil _).symm, rfl, (List.append_nil _).symm, List.append_nil _, id⟩

theorem streamAvailable_steps (results : Results) (h : ReadingBut none s) (hdrained : Drained s) :
    ∃ opened, Steps results s (s.onIncomingUnidirectionalStreamAvailable results)
      (completing s (.streamAvailable results)) opened := by
  obtain ⟨opened, hsends, hkeep, hreading, -⟩ := acceptStreams_sends results rfl h
  exact ⟨opened, hsends, hkeep hdrained, hreading⟩

theorem creditGranted_steps (results : Results) (h : ReadingBut none s) (streams : ℕ) : ∃ opened,
    Steps results { s with credit := s.credit + streams }
      (s.step (.creditGranted streams results)) [] opened := by
  obtain ⟨opened, hsends, hdrained, hincoming⟩ := sendQueued_sends results
    (s := { s with credit := s.credit + streams }) rfl
  refine ⟨opened, hsends, hdrained, ?_, ?_, ?_⟩
  · change ((sendQueued results _ _).completed.map Prod.fst).Nodup
    rw [hsends.completed, List.append_nil]
    exact h.once
  · intro i data
    change _ ∈ (sendQueued results _ _).completed ↔
      _ ∧ i < (sendQueued results _ _).acceptedIncoming ∧ ∃ x, (sendQueued results _ _).incoming[i]? = some x ∧ _
    rw [hsends.completed, List.append_nil, hincoming.incoming, hincoming.accepted]
    exact h.completed i data
  · change ∀ x ∈ (sendQueued results _ _).incoming, _
    rw [hincoming.incoming]
    exact h.split

end Incoming

structure Queued (s : EchoWebTransportSessionVisitor) : Prop where
  order : s.completed.map Prod.snd = s.outgoing.map OutgoingStream.contents ++ s.streamsToEchoBack
  within : s.outgoing.length ≤ s.credit
  regular : ∀ x ∈ s.outgoing, Regular x

structure Echoing (s : EchoWebTransportSessionVisitor) : Prop where
  queued : Queued s
  drained : Drained s
  reading : ReadingBut none s

variable {s s' : EchoWebTransportSessionVisitor} {results : Results} {done : List (ℕ × Str)}
  {opened : List Str}

theorem Echoing.echoesBack (h : Echoing s) : EchoesBack s where
  once := h.reading.once
  completed index data := by
    rw [h.reading.completed, and_iff_right nofun]
  order := h.queued.order
  drained := (drained_iff s).mp h.drained
  started x hx := (h.queued.regular x hx).progress.started
  carried x hx := (h.queued.regular x hx).carries

theorem Steps.queued (h : Steps results s s' done opened) (hs : Queued s)
    (hopens : Opens s s.credit results (s.streamsToEchoBack ++ done.map Prod.snd)) : Queued s' where
  order := by
    rw [h.sends.completed, h.sends.outgoing, List.map_append, List.map_append, hs.order,
      List.append_assoc, h.sends.queue, writers_contents, List.append_assoc]
  within := h.sends.within hs.within
  regular x hx := by
    rw [h.sends.outgoing] at hx
    rcases List.mem_append.mp hx with hold | hnew
    · exact hs.regular x hold
    · obtain ⟨k, hk⟩ := List.mem_iff_getElem?.mp hnew
      rw [writers_getElem?] at hk
      obtain ⟨data, hdata, rfl⟩ := Option.map_eq_some_iff.mp hk
      have hlt : k < opened.length := (List.getElem?_eq_some_iff.mp hdata).1
      have hroom := h.sends.within hs.within
      rw [h.sends.outgoing, List.length_append, writers_length, h.sends.credit] at hroom
      refine onCanWrite_regular (new_regular data) fun hok hempty => ?_
      have hwaiting : (s.streamsToEchoBack ++ done.map Prod.snd)[k]? = some [] := by
        rw [h.sends.queue, List.getElem?_append_left hlt, hdata]
        exact congrArg some hempty
      exact absurd hok (hopens k (by omega) hwaiting)

theorem Steps.broken (h : Steps results s s' done opened)
    (hopens : ¬ Opens s s.credit results (s.streamsToEchoBack ++ done.map Prod.snd)) :
    ¬ EchoesBack s' := by
  intro hechoes
  obtain ⟨k, hk⟩ := not_forall.mp hopens
  obtain ⟨hroom, hk⟩ := Classical.not_imp.mp hk
  obtain ⟨hwaiting, hok⟩ := Classical.not_imp.mp hk
  have hok := not_not.mp hok
  have hlt : k < opened.length := by
    by_contra hle
    rw [h.sends.queue, List.getElem?_append_right (not_lt.mp hle)] at hwaiting
    rcases h.drained with hempty | hfull
    · rw [hempty] at hwaiting
      cases hwaiting
    · rw [h.sends.outgoing, List.length_append, writers_length, h.sends.credit] at hfull
      omega
  rw [h.sends.queue, List.getElem?_append_left hlt] at hwaiting
  have hstream : s'.outgoing[s.outgoing.length + k]? =
      some ((OutgoingStream.new []).onCanWrite (true, true)) := by
    rw [h.sends.outgoing, List.getElem?_append_right (Nat.le_add_right _ _),
      Nat.add_sub_cancel_left, writers_getElem?, hwaiting, ← hok]
    rfl
  exact onCanWrite_unserved (x := OutgoingStream.new []) rfl List.not_mem_nil
    (hechoes.carried _ (List.mem_of_getElem? hstream))

theorem canWrite_echoing (h : Echoing s) {index : ℕ} {ok : Bool × Bool}
    (hserved : Served s (.canWrite index ok)) : Echoing (s.step (.canWrite index ok)) := by
  have hcontents : (s.outgoing.modify index (OutgoingStream.onCanWrite ok)).map
      OutgoingStream.contents = s.outgoing.map OutgoingStream.contents := by
    apply List.ext_getElem?
    intro i
    rw [List.getElem?_map, List.getElem?_map, List.getElem?_modify]
    cases s.outgoing[i]? with
    | none => rfl
    | some x =>
      refine congrArg some ?_
      change (if index = i then x.onCanWrite ok else x).contents = x.contents
      split
      · exact onCanWrite_contents ok x
      · rfl
  refine ⟨⟨?_, ?_, ?_⟩, ?_, h.reading.once, h.reading.completed, h.reading.split⟩
  · change s.completed.map Prod.snd = (s.outgoing.modify index _).map _ ++ s.streamsToEchoBack
    rw [hcontents]
    exact h.queued.order
  · change (s.outgoing.modify index _).length ≤ s.credit
    rw [List.length_modify]
    exact h.queued.within
  · intro y hy
    change y ∈ s.outgoing.modify index (OutgoingStream.onCanWrite ok) at hy
    obtain ⟨i, hi⟩ := List.mem_iff_getElem?.mp hy
    rw [List.getElem?_modify] at hi
    obtain ⟨x, hx, rfl⟩ := Option.map_eq_some_iff.mp hi
    have hregular := h.queued.regular x (List.mem_of_getElem? hx)
    split
    · next hindex =>
      subst hindex
      exact onCanWrite_regular hregular fun hok hdata => hserved hok x hx hdata
    · exact hregular
  · rcases h.drained with hempty | hfull
    · exact Or.inl hempty
    · right
      change s.credit ≤ (s.outgoing.modify index _).length
      rw [List.length_modify]
      exact hfull

theorem canWrite_broken {index : ℕ} {ok : Bool × Bool} (hserved : ¬ Served s (.canWrite index ok)) :
    ¬ EchoesBack (s.step (.canWrite index ok)) := by
  intro hechoes
  obtain ⟨hok, hx⟩ := Classical.not_imp.mp hserved
  obtain ⟨x, hx⟩ := not_forall.mp hx
  obtain ⟨hindex, hx⟩ := Classical.not_imp.mp hx
  obtain ⟨hdata, hfin⟩ := Classical.not_imp.mp hx
  refine onCanWrite_unserved hdata hfin (hechoes.carried _ (List.mem_of_getElem? (i := index) ?_))
  change (s.outgoing.modify index (OutgoingStream.onCanWrite ok))[index]? = _
  rw [List.getElem?_modify_eq, hindex, hok]
  rfl

theorem creditGranted_queued (h : Queued s) (streams : ℕ) :
    Queued { s with credit := s.credit + streams } :=
  ⟨h.order, Nat.le_trans h.within (Nat.le_add_right _ _), h.regular⟩

theorem step_echoing (h : Echoing s) {e : SessionEvent} (he : Served s e) : Echoing (s.step e) := by
  cases e with
  | streamArrives =>
    refine ⟨⟨h.queued.order, h.queued.within, h.queued.regular⟩, h.drained, h.reading.once, ?_, ?_⟩
    · intro i data
      rw [← and_assoc]
      refine (h.reading.completed i data).trans ?_
      rw [← and_assoc]
      refine and_congr_right fun _ => ?_
      change (∃ x, s.incoming[i]? = some x ∧ _) ↔ ∃ x, (s.incoming ++ [.new])[i]? = some x ∧ _
      constructor
      · rintro ⟨x, hx, hfin⟩
        refine ⟨x, ?_, hfin⟩
        rw [List.getElem?_append_left (List.getElem?_eq_some_iff.mp hx).1, hx]
      · rintro ⟨x, hx, hfin⟩
        by_cases hlt : i < s.incoming.length
        · rw [List.getElem?_append_left hlt] at hx
          exact ⟨x, hx, hfin⟩
        · -- the new stream has no FIN
          rw [List.getElem?_append_right (not_lt.mp hlt)] at hx
          have hnew := List.mem_singleton.mp (List.mem_of_getElem? hx)
          rw [hnew] at hfin
          cases hfin.1
    · intro x hx
      rcases List.mem_append.mp hx with hold | hnew
      · exact h.reading.split x hold
      · rw [List.mem_singleton.mp hnew]
        rfl
  | dataArrives index data fin results =>
    obtain ⟨opened, hsteps⟩ := dataArrives_steps results h.reading h.drained index data fin
    exact ⟨hsteps.queued h.queued he, hsteps.drained, hsteps.reading⟩
  | streamAvailable results =>
    obtain ⟨opened, hsteps⟩ := streamAvailable_steps results h.reading h.drained
    exact ⟨hsteps.queued h.queued he, hsteps.drained, hsteps.reading⟩
  | creditGranted streams results =>
    obtain ⟨opened, hsteps⟩ := creditGranted_steps results h.reading streams
    exact ⟨hsteps.queued (creditGranted_queued h.queued streams) he, hsteps.drained, hsteps.reading⟩
  | canWrite index ok => exact canWrite_echoing h he

theorem step_broken (h : Echoing s) {e : SessionEvent} (he : ¬ Served s e) :
    ¬ EchoesBack (s.step e) := by
  cases e with
  | streamArrives => exact absurd trivial he
  | dataArrives index data fin results =>
    obtain ⟨opened, hsteps⟩ := dataArrives_steps results h.reading h.drained index data fin
    exact hsteps.broken he
  | streamAvailable results =>
    obtain ⟨opened, hsteps⟩ := streamAvailable_steps results h.reading h.drained
    exact hsteps.broken he
  | creditGranted streams results =>
    obtain ⟨opened, hsteps⟩ := creditGranted_steps results h.reading streams
    exact hsteps.broken he
  | canWrite index ok => exact canWrite_broken he

/-- Every completed stream is echoed in a run exactly when no `OnCanWrite` that would be answered
    finds a stream without data and without FIN. -/
theorem echoes_back_iff (credit : ℕ) (events : List SessionEvent) :
    Always step EchoesBack (.new credit) events ↔ Each step Served (.new credit) events := by
  have hunrestricted : Each step (fun _ _ => True) (.new credit) events :=
    each_of_labels (Q := fun _ => True) _ fun _ _ => trivial
  apply always_iff_each (I := Echoing)
  · intro s h
    exact h.echoesBack
  · intro s e h _ he
    exact step_echoing h he
  · intro s e h _ he
    exact step_broken h he
  · refine ⟨⟨rfl, Nat.zero_le _, fun x hx => absurd hx List.not_mem_nil⟩, Or.inl rfl,
      List.nodup_nil, fun i data => ?_, fun x hx => absurd hx List.not_mem_nil⟩
    exact iff_of_false List.not_mem_nil fun h => absurd h.2.1 (Nat.not_lt_zero i)
  · exact hunrestricted

def emptyStream : List SessionEvent :=
  [.streamArrives, .dataArrives 0 [] true fun _ => (true, true),
    .streamAvailable fun _ => (true, true)]

def refusedFin : List SessionEvent :=
  [.streamArrives, .dataArrives 0 "hi".toList true fun _ => (true, true),
    .streamAvailable fun _ => (true, false), .canWrite 0 (true, true)]

theorem echo_unfinished :
    ((after step (.new 1) emptyStream).outgoing.map OutgoingStream.sent = [[]] ∧
      ¬ Always step EchoesBack (.new 1) emptyStream) ∧
    ((after step (.new 1) refusedFin).outgoing.map OutgoingStream.sent = [[.data "hi".toList]] ∧
      ¬ Always step EchoesBack (.new 1) refusedFin) := by
  refine ⟨⟨rfl, fun h => ?_⟩, ⟨rfl, fun h => ?_⟩⟩
  · have hfin : Sent.fin ∈ ([] : List Sent) := (h.last.carried _ List.mem_cons_self rfl).fin_mem
    cases hfin
  · have hfin : Sent.fin ∈ [Sent.data "hi".toList] :=
      (h.last.carried _ List.mem_cons_self rfl).fin_mem
    exact absurd hfin (by decide)

end QuailServer.UnidirectionalEcho
