import QuailServer.BodyDelivery

set_option autoImplicit false

namespace QuailServer.FinalHeaders
open HeaderBlock WebTransport ServerStream QuitServerStream

/-- A header block that is neither an Early Hints nor a 100 block. -/
def isFinalHeaders (q : Platform) : Effect → Bool
  | .writeHeaders .response block _ => decide (q.parseHeaderStatusCode block ≠ some 100)
  | _ => false

def finalHeaders (q : Platform) (trace : List Effect) : ℕ := trace.countP (isFinalHeaders q)

/-- The assertion at the entry of the two send functions held whenever it was reached. -/
def Asserted (trace : List Effect) : Prop := ∀ a b, .dcheckNe a b ∈ trace → a ≠ b

def SentOnce (q : Platform) (s : QuitServerStream) : Prop :=
  finalHeaders q s.trace ≤ 1 ∧ Asserted s.trace

/-- A response to which `Respond` writes no final header block and reaches no assertion. -/
def Silent (q : Platform) (s : QuitServerStream) (r : QuicBackendResponse) : Prop :=
  r.responseType = .closeConnection ∨ r.responseType = .ignoreRequest ∨
    r.responseType = .generateBytes ∧ q.parseHeaderStatusCode r.headers ≠ none ∧
      match s.requestHeaders.asString ":path" with
      | [] => True
      | _ :: path => (q.simpleAtoi path).1 = true ∧ q.parseHeaderStatusCode
          (r.headers.set "content-length" (strCat (q.simpleAtoi path).2)) = some 100

theorem finalHeaders_append (q : Platform) (t u : List Effect) :
    finalHeaders q (t ++ u) = finalHeaders q t + finalHeaders q u := List.countP_append

theorem asserted_append {t u : List Effect} :
    Asserted (t ++ u) ↔ Asserted t ∧ Asserted u := by
  unfold Asserted
  simp only [List.mem_append]
  constructor
  · intro h
    exact ⟨fun a b hm => h a b (Or.inl hm), fun a b hm => h a b (Or.inr hm)⟩
  · rintro ⟨ht, hu⟩ a b (hm | hm)
    · exact ht a b hm
    · exact hu a b hm

structure Kept (q : Platform) (s : QuitServerStream) : Prop where
  asserted : Asserted s.trace
  finals : finalHeaders q s.trace ≤ if s.responseSent then 1 else 0
  stopped : s.readingStopped = true → s.responseSent = true ∧ finalHeaders q s.trace = 1

theorem Kept.extend {q : Platform} {s u : QuitServerStream} (h : Kept q s) (out : List Effect)
    (htrace : u.trace = s.trace ++ out) (hassert : Asserted out) (hfinal : finalHeaders q out = 0)
    (hsent : s.responseSent = true → u.responseSent = true)
    (hstop : u.readingStopped = s.readingStopped) : Kept q u := by
  have hcount : finalHeaders q u.trace = finalHeaders q s.trace := by
    rw [htrace, finalHeaders_append, hfinal, Nat.add_zero]
  refine ⟨htrace ▸ asserted_append.mpr ⟨h.asserted, hassert⟩, ?_, ?_⟩
  · rw [hcount]
    refine le_trans h.finals ?_
    by_cases hs : s.responseSent = true
    · rw [if_pos hs, if_pos (hsent hs)]
    · rw [if_neg hs]
      exact Nat.zero_le _
  · intro hu
    rw [hstop] at hu
    obtain ⟨hs, hone⟩ := h.stopped hu
    exact ⟨hsent hs, hcount.trans hone⟩

theorem Kept.sent {q : Platform} {s u : QuitServerStream} (h : Kept q s)
    (hs : s.responseSent = false) (out : List Effect) (htrace : u.trace = s.trace ++ out)
    (hassert : Asserted out) (hfinal : finalHeaders q out ≤ 1) (hsent : u.responseSent = true)
    (hstop : u.readingStopped = true → finalHeaders q out = 1) : Kept q u := by
  have hnone : finalHeaders q s.trace = 0 := by
    have := h.finals
    rw [hs] at this
    exact Nat.le_zero.mp this
  have hcount : finalHeaders q u.trace = finalHeaders q out := by
    rw [htrace, finalHeaders_append, hnone, Nat.zero_add]
  refine ⟨htrace ▸ asserted_append.mpr ⟨h.asserted, hassert⟩, ?_, ?_⟩
  · rw [hcount, if_pos hsent]
    exact hfinal
  · intro hu
    exact ⟨hsent, hcount.trans (hstop hu)⟩

section
variable {q : Platform} {s : QuitServerStream}

theorem Kept.writeOrBufferBody (h : Kept q s) (data : Str) (fin : Bool) :
    Kept q (s.writeOrBufferBody data fin) :=
  h.extend [.writeOrBufferBody data fin] rfl (by simp [Asserted]) rfl (fun h => h) rfl

theorem Kept.writeTrailers (h : Kept q s) (block : Http2HeaderBlock) :
    Kept q (s.writeTrailers block) :=
  h.extend [.writeTrailers block] rfl (by simp [Asserted]) rfl (fun h => h) rfl

theorem Kept.sendBodyAndTrailers (h : Kept q s) (body : Str) (trailers : Http2HeaderBlock) :
    Kept q (s.sendBodyAndTrailers body trailers) := by
  have hbody : Kept q (if !body.isEmpty || trailers.empty then
      s.writeOrBufferBody body trailers.empty else s) := by
    split
    · exact h.writeOrBufferBody body _
    · exact h
  unfold QuitServerStream.sendBodyAndTrailers
  dsimp only
  by_cases hfin : trailers.empty = true
  · rw [if_pos hfin]
    exact hbody
  · rw [if_neg hfin]
    exact hbody.writeTrailers trailers

theorem Kept.writeHeaders (h : Kept q s) (hs : s.responseSent = false)
    (hstop : s.readingStopped = false) (check : List Effect) (hcheck : Asserted check)
    (hnone : finalHeaders q check = 0) (block : Http2HeaderBlock) (fin : Bool) :
    Kept q { s with
      trace := s.trace ++ check ++ [.writeHeaders .response block fin]
      finBuffered := s.finBuffered || fin
      responseSent := true } := by
  have hassert : Asserted (check ++ [.writeHeaders .response block fin]) :=
    asserted_append.mpr ⟨hcheck, by simp [Asserted]⟩
  refine h.sent hs (check ++ [.writeHeaders .response block fin]) (List.append_assoc _ _ _)
    hassert ?_ rfl ?_
  · rw [finalHeaders_append, hnone, Nat.zero_add]
    exact List.countP_le_length
  · intro hu
    exact absurd (hstop.symm.trans hu) Bool.false_ne_true

theorem Kept.reading (h : Kept q s) (hs : s.responseSent = false) : s.readingStopped = false := by
  cases hstop : s.readingStopped with
  | false => rfl
  | true => exact absurd (h.stopped hstop).1 (by simp [hs])

theorem Kept.sendHeadersAndBodyAndTrailers (h : Kept q s) {headers : Option Http2HeaderBlock}
    (hs : headers.isSome ≠ s.responseSent) (body : Str) (trailers : Http2HeaderBlock) :
    Kept q (s.sendHeadersAndBodyAndTrailers headers body trailers) := by
  have hcheck : Asserted [.dcheckNe headers.isSome s.responseSent] := by
    simpa [Asserted] using hs
  cases headers with
  | none =>
    have hemit := h.extend (u := s.emit (.dcheckNe false s.responseSent)) _ rfl hcheck rfl
      (fun h => h) rfl
    exact hemit.sendBodyAndTrailers body trailers
  | some block =>
    have hunsent : s.responseSent = false := by simpa using hs.symm
    have hsent := h.writeHeaders hunsent (h.reading hunsent) _ hcheck rfl block
      (body.isEmpty && trailers.empty)
    unfold QuitServerStream.sendHeadersAndBodyAndTrailers
    dsimp only
    split
    · exact hsent
    · exact hsent.sendBodyAndTrailers body trailers

theorem Kept.sendIncompleteResponse (h : Kept q s) {headers : Option Http2HeaderBlock}
    (hs : headers.isSome ≠ s.responseSent) (body : Str) :
    Kept q (s.sendIncompleteResponse q headers body) := by
  have hcheck : Asserted [.dcheckNe headers.isSome s.responseSent] := by
    simpa [Asserted] using hs
  have hbody : ∀ u : QuitServerStream, Kept q u →
      Kept q (if body.isEmpty then u else u.writeOrBufferBody body false) := by
    intro u hu
    split
    · exact hu
    · exact hu.writeOrBufferBody body false
  cases headers with
  | none => exact hbody _ (h.extend _ rfl hcheck rfl (fun h => h) rfl)
  | some block =>
    have hunsent : s.responseSent = false := by simpa using hs.symm
    refine hbody _ ?_
    dsimp only
    by_cases hcode : q.parseHeaderStatusCode block = some 100
    · rw [if_pos hcode]
      refine h.extend [.dcheckNe true s.responseSent, .writeHeaders .response block false] ?_ ?_ ?_
        (fun h => h) rfl
      · simp [QuitServerStream.writeHeaders, emit]
      · simpa [Asserted] using hs
      · simp [finalHeaders, isFinalHeaders, hcode]
    · rw [if_neg hcode]
      exact h.writeHeaders hunsent (h.reading hunsent) _ hcheck rfl block false

theorem Kept.sendNotFoundResponse (h : Kept q s) (hs : s.responseSent = false) :
    Kept q s.sendNotFoundResponse := by
  unfold QuitServerStream.sendNotFoundResponse sendHeadersAndBody
  exact h.sendHeadersAndBodyAndTrailers (by simp [hs]) _ ∅

theorem Kept.sendErrorResponse (h : Kept q s) (hs : s.responseSent = false) {code : ℕ}
    (hcode : code = 0 ∨ code = 400 ∨ code = 502) : Kept q (s.sendErrorResponse code) := by
  have hcount : finalHeaders q ((if s.readingStopped then [] else [.stopReading]) ++
      [.dcheckNe true s.responseSent, .writeHeaders .response (errorBlock code) false,
        .writeOrBufferBody kErrorResponseBody true]) = 1 := by
    rw [h.reading hs]
    simp [finalHeaders, isFinalHeaders, errorBlock_final q hcode]
  rw [sendErrorResponse_eq]
  refine h.sent hs _ (List.append_assoc _ _ _) ?_ (Nat.le_of_eq hcount) rfl fun _ => hcount
  rw [h.reading hs, hs]
  simp [Asserted]

theorem Kept.writeGeneratedBytes (h : Kept q s) : Kept q (s.writeGeneratedBytes q) := by
  induction s using writeGeneratedBytes.induct q with
  | case1 s hleft len left ih =>
    rw [QuitServerStream.writeGeneratedBytes, dif_pos hleft]
    have hnext : Kept q { s with generateBytesLength := left } :=
      h.extend [] (by simp) (by simp [Asserted]) rfl (fun h => h) rfl
    exact ih (hnext.writeOrBufferBody _ _)
  | case2 s hleft =>
    rw [QuitServerStream.writeGeneratedBytes, dif_neg hleft]
    exact h

theorem Kept.generating (h : Kept q s) (block : Http2HeaderBlock) (n : ℕ) (held : Bool)
    (hs : s.responseSent = false ∨ q.parseHeaderStatusCode block = some 100) :
    Kept q { s with
      generateBytesLength := n
      finBuffered := s.finBuffered || false
      trace := s.trace ++ [.writeHeaders .response block false] ++ [.dcheck held]
      responseSent := true } := by
  rcases hs with hs | hcode
  · refine h.sent hs [.writeHeaders .response block false, .dcheck held]
      (by simp) (by simp [Asserted]) ?_ rfl ?_
    · by_cases hcode : q.parseHeaderStatusCode block = some 100 <;>
        simp [finalHeaders, isFinalHeaders, hcode]
    · intro hu
      exact absurd ((h.reading hs).symm.trans hu) Bool.false_ne_true
  · refine h.extend [.writeHeaders .response block false, .dcheck held] (by simp)
      (by simp [Asserted]) ?_ (fun _ => rfl) rfl
    simp [finalHeaders, isFinalHeaders, hcode]

theorem Kept.respondGenerateBytes (h : Kept q s) (r : QuicBackendResponse)
    (hs : s.responseSent = false ∨ Silent q s r ∧ r.responseType = .generateBytes) :
    Kept q (s.respondGenerateBytes q r) := by
  have hsilent : s.responseSent = false ∨ (match s.requestHeaders.asString ":path" with
      | [] => True
      | _ :: path => (q.simpleAtoi path).1 = true ∧ q.parseHeaderStatusCode
          (r.headers.set "content-length" (strCat (q.simpleAtoi path).2)) = some 100) := by
    refine hs.imp_right ?_
    rintro ⟨h' | h' | h', htype⟩
    · rw [htype] at h'
      cases h'
    · rw [htype] at h'
      cases h'
    · exact h'.2.2
  unfold QuitServerStream.respondGenerateBytes
  cases hpath : s.requestHeaders.asString ":path" with
  | nil => exact h.extend [.outOfRange] rfl (by simp [Asserted]) rfl (fun h => h) rfl
  | cons c path =>
    rw [hpath] at hsilent
    dsimp only at hsilent ⊢
    by_cases hatoi : (q.simpleAtoi path).1 = true
    · rw [if_pos hatoi]
      refine Kept.writeGeneratedBytes ?_
      exact h.generating _ _ _ (hsilent.imp_right And.right)
    · rw [if_neg hatoi]
      have hunsent := hsilent.resolve_right fun hsil => hatoi hsil.1
      have hnext : Kept q { s with generateBytesLength := (q.simpleAtoi path).2 } :=
        h.extend [] (by simp) (by simp [Asserted]) rfl (fun h => h) rfl
      exact hnext.sendNotFoundResponse hunsent

theorem Kept.earlyHints (h : Kept q s) (hints : List Http2HeaderBlock) :
    Kept q (hints.foldl (fun s headers => s.writeHeaders .earlyHints headers false) s) ∧
      (hints.foldl (fun s headers => s.writeHeaders .earlyHints headers false) s).responseSent =
        s.responseSent := by
  induction hints generalizing s with
  | nil => exact ⟨h, rfl⟩
  | cons hint hints ih =>
    have hnext : Kept q (s.writeHeaders .earlyHints hint false) :=
      h.extend [.writeHeaders .earlyHints hint false] rfl (by simp [Asserted]) rfl (fun h => h) rfl
    exact ih hnext

theorem Kept.respond (h : Kept q s) (r : QuicBackendResponse)
    (hs : s.responseSent = false ∨ Silent q s r) : Kept q (s.respond q r) := by
  obtain ⟨hhints, hsent⟩ := h.earlyHints r.earlyHints
  have hw := earlyHints_writes r.earlyHints s
  unfold QuitServerStream.respond
  dsimp only
  generalize r.earlyHints.foldl (fun s headers => s.writeHeaders .earlyHints headers false) s = w
    at hhints hsent hw ⊢
  have hsilent : w.responseSent = false ∨ Silent q w r := by
    refine hs.imp (fun h => hsent.trans h) ?_
    unfold Silent
    rw [hw.requestHeaders]
    exact fun h => h
  have hloud : r.responseType ≠ .closeConnection → r.responseType ≠ .ignoreRequest →
      (r.responseType ≠ .generateBytes ∨ q.parseHeaderStatusCode r.headers = none) →
      w.responseSent = false := by
    intro hclose hignore hanswer
    refine hsilent.resolve_right ?_
    rintro (h' | h' | ⟨h', hcode, -⟩)
    · exact hclose h'
    · exact hignore h'
    · exact hanswer.elim (fun hne => hne h') hcode
  split_ifs with hclose hignore herr hmissing hincomplete hgenerate
  · exact hhints.extend [.onUnrecoverableError] rfl (by simp [Asserted]) rfl (fun h => h) rfl
  · exact hhints
  · exact hhints.sendErrorResponse (hloud hclose hignore (Or.inl (by simp [herr]))) (Or.inr (Or.inr rfl))
  · exact hhints.sendErrorResponse (hloud hclose hignore (Or.inr hmissing)) (Or.inl rfl)
  · exact hhints.sendIncompleteResponse (by simp [hloud hclose hignore (Or.inl (by simp [hincomplete]))]) r.body
  · exact hhints.respondGenerateBytes r (hsilent.imp_right fun h => ⟨h, hgenerate⟩)
  · exact hhints.sendHeadersAndBodyAndTrailers (by simp [hloud hclose hignore (Or.inl hgenerate)]) r.body r.trailers

theorem Kept.sendStreamData (h : Kept q s) (hs : s.responseSent = true) (data : Str)
    (close : Bool) : Kept q (s.sendStreamData q data close) := by
  have hcheck : Kept q (s.emit (.dcheck (!data.isEmpty || close))) :=
    h.extend [.dcheck (!data.isEmpty || close)] rfl (by simp [Asserted]) rfl (fun h => h) rfl
  have hsent : (s.emit (.dcheck (!data.isEmpty || close))).responseSent = true := hs
  unfold QuitServerStream.sendStreamData
  dsimp only
  split
  · exact hcheck.sendHeadersAndBodyAndTrailers (by simp [hsent]) data ∅
  · exact hcheck.sendIncompleteResponse (by simp [hsent]) data

end

end QuailServer.FinalHeaders
