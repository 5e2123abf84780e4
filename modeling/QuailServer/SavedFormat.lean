import QuailServer.FileScan

set_option autoImplicit false

namespace QuailServer.SavedFormat
open HeaderBlock ResourceReader ResourceFile FileScan

/-- A file cut into its header lines, without their newlines, and the empty line with the body. -/
structure SavedParse where
  lines : List Str
  tail : Option (Str × Str)

namespace SavedParse

def text (p : SavedParse) : Str :=
  (p.lines.map fun raw => raw ++ ['\n']).flatten ++
    match p.tail with
    | none => []
    | some (raw, body) => raw ++ '\n' :: body

def body (p : SavedParse) : Str :=
  match p.tail with
  | none => []
  | some (_, body) => body

structure WellFormed (p : SavedParse) : Prop where
  lines : ∀ raw ∈ p.lines, '\n' ∉ raw ∧ chomp raw ≠ [] ∧ HeaderLine (chomp raw)
  tail : ∀ raw body, p.tail = some (raw, body) → raw = [] ∨ raw = ['\r']

def ending (p : SavedParse) : Ending :=
  match p.tail with
  | none => .endOfFile
  | some (raw, body) => .emptyLine raw body

end SavedParse

theorem chomp_eq_nil_iff (raw : Str) : chomp raw = [] ↔ raw = [] ∨ raw = ['\r'] := by
  constructor
  · intro h
    unfold chomp at h
    split at h
    · next hcr =>
      right
      obtain ⟨init, rfl⟩ := List.getLast?_eq_some_iff.mp hcr
      rw [List.dropLast_concat] at h
      rw [h]
      rfl
    · exact Or.inl h
  · rintro (rfl | rfl) <;> rfl

theorem scanned_of_wellFormed {p : SavedParse} (h : p.WellFormed) :
    Scanned p.text p.lines p.ending := by
  obtain ⟨lines, tail⟩ := p
  obtain ⟨hlines, htail⟩ := h
  induction lines with
  | nil =>
    cases tail with
    | none => exact .endOfFile
    | some t =>
      obtain ⟨raw, body⟩ := t
      have hraw := htail raw body rfl
      refine .emptyLine ?_ ((chomp_eq_nil_iff raw).mpr hraw)
      rcases hraw with rfl | rfl <;> decide
  | cons raw lines ih =>
    obtain ⟨hraw, hrest⟩ := List.forall_mem_cons.mp hlines
    have htext : (SavedParse.mk (raw :: lines) tail).text =
        raw ++ '\n' :: (SavedParse.mk lines tail).text := by
      simp [SavedParse.text]
    rw [htext]
    exact .line hraw.1 hraw.2.2 (ih hrest htail)

theorem wellFormed_of_scanned {text : Str} {lines : List Str} {ending : Ending}
    (h : Scanned text lines ending) (hending : ending ≠ .invalid) :
    ∃ p : SavedParse, p.WellFormed ∧ p.text = text ∧ p.lines = lines ∧ p.ending = ending := by
  induction h with
  | endOfFile => exact ⟨⟨[], none⟩, ⟨List.forall_mem_nil _, nofun⟩, rfl, rfl, rfl⟩
  | @emptyLine raw body hraw hline =>
    refine ⟨⟨[], some (raw, body)⟩, ⟨List.forall_mem_nil _, ?_⟩, rfl, rfl, rfl⟩
    intro raw' body' heq
    cases heq
    exact (chomp_eq_nil_iff raw).mp hline
  | unterminated hne htext => exact absurd rfl hending
  | malformed hraw hne hline => exact absurd rfl hending
  | @line raw rest lines ending hraw hline tail ih =>
    obtain ⟨p, ⟨hlines, htail⟩, htext, heq, hend⟩ := ih hending
    refine ⟨⟨raw :: lines, p.tail⟩, ⟨?_, htail⟩, ?_, rfl, hend⟩
    · rw [← heq]
      exact List.forall_mem_cons.mpr ⟨⟨hraw, hline.ne_nil, hline⟩, hlines⟩
    · rw [← htext, ← heq]
      simp [SavedParse.text]

def headerTurns (separatorForKey : Str → Str) :
    ℕ → ℕ → ResourceFile → Option (LoopExit × ResourceFile)
  | 0, start, f => if start < f.fileContents.length then none else some (.finished, f)
  | fuel + 1, start, f =>
    if start < f.fileContents.length then
      match headerTurn separatorForKey start f with
      | .next start' f' => headerTurns separatorForKey fuel start' f'
      | .exit how f' => some (how, f')
    else some (.finished, f)

/-- Every turn that goes on moves the start, so that one turn for each byte is enough. -/
theorem headerTurns_enough (separatorForKey : Str → Str) {fuel start : ℕ} {f : ResourceFile}
    (h : f.fileContents.length ≤ start + fuel) :
    headerTurns separatorForKey fuel start f = some (headerLoop separatorForKey start f) := by
  induction fuel generalizing start f with
  | zero =>
    rw [headerTurns, if_neg (by omega), headerLoop_end separatorForKey (by omega)]
  | succ fuel ih =>
    rw [headerTurns]
    by_cases hlt : start < f.fileContents.length
    · rw [if_pos hlt]
      cases hturn : headerTurn separatorForKey start f with
      | next start' f' =>
        obtain ⟨hstart, hcontents⟩ := headerTurn_advances hturn
        rw [headerLoop_next hlt hturn]
        exact ih (by rw [hcontents]; omega)
      | exit how f' => rw [headerLoop_exit hlt hturn]
    · rw [if_neg hlt, headerLoop_end separatorForKey (by omega)]

/-- Which files are accepted, how they are cut, and what their body is. -/
structure AcceptsFormat (separatorForKey : Str → Str) (fileName base contents : Str) : Prop where
  accepts : .headersInvalid ∉
      (readContents separatorForKey (some contents) (opened fileName base)).trace ↔
    ∃ p : SavedParse, p.WellFormed ∧ p.text = contents
  unique : ∀ p p' : SavedParse, p.WellFormed → p'.WellFormed → p.text = contents →
    p'.text = contents → p = p'
  body : ∀ p : SavedParse, p.WellFormed → p.text = contents →
    (readContents separatorForKey (some contents) (opened fileName base)).body = p.body
  ends : headerTurns separatorForKey contents.length 0
      { opened fileName base with fileContents := contents } =
    some (headerLoop separatorForKey 0 { opened fileName base with fileContents := contents })

theorem parse_unique {p p' : SavedParse} (h : p.WellFormed) (h' : p'.WellFormed)
    (htext : p.text = p'.text) : p = p' := by
  have hscan := scanned_of_wellFormed h
  rw [htext] at hscan
  obtain ⟨hlines, hending⟩ := scanned_unique hscan (scanned_of_wellFormed h')
  obtain ⟨lines, tail⟩ := p
  obtain ⟨lines', tail'⟩ := p'
  change lines = lines' at hlines
  subst hlines
  cases tail with
  | none =>
    cases tail' with
    | none => rfl
    | some t' => cases hending
  | some t =>
    cases tail' with
    | none => cases hending
    | some t' =>
      injection hending with hraw hbody
      exact congrArg _ (congrArg some (Prod.ext hraw hbody))

theorem ending_accepted (p : SavedParse) : p.ending ≠ .invalid := by
  unfold SavedParse.ending
  cases p.tail <;> nofun

theorem ending_body (p : SavedParse) : p.ending.bodyOr [] = p.body := by
  unfold SavedParse.ending SavedParse.body
  cases p.tail <;> rfl

/-- A file that does not start with a newline either has the format, or is reported. -/
theorem readContents_cases (separatorForKey : Str → Str) {contents : Str}
    (hstart : contents.head? ≠ some '\n') {f : ResourceFile} (hbody : f.body = []) :
    (∃ p : SavedParse, p.WellFormed ∧ p.text = contents ∧ ∃ es, (∀ e ∈ es, Quiet e) ∧
      readContents separatorForKey (some contents) f = finishHeaders (record es
        { f with
          fileContents := contents
          spdyHeaders := linesHeaders separatorForKey p.lines f.spdyHeaders
          body := p.body })) ∨
    ((∀ p : SavedParse, p.WellFormed → p.text ≠ contents) ∧ ∃ lines es, (∀ e ∈ es, Quiet e) ∧
      readContents separatorForKey (some contents) f = record (es ++ [.headersInvalid])
        { f with
          fileContents := contents
          spdyHeaders := linesHeaders separatorForKey lines f.spdyHeaders }) := by
  obtain ⟨lines, ending, hscan⟩ := scanned_total contents
  by_cases hending : ending = .invalid
  · subst hending
    right
    refine ⟨?_, lines, readContents_invalid separatorForKey hstart hscan f⟩
    rintro p hp rfl
    exact ending_accepted p (scanned_unique (scanned_of_wellFormed hp) hscan).2
  · left
    obtain ⟨p, hp, htext, rfl, rfl⟩ := wellFormed_of_scanned hscan hending
    obtain ⟨es, hes, hread⟩ := readContents_accepted separatorForKey hstart hscan hending f
    rw [hbody, ending_body] at hread
    exact ⟨p, hp, htext, es, hes, hread⟩

theorem accepted_events {f : ResourceFile} {es : List FileEvent} (hes : ∀ e ∈ es, Quiet e)
    (hf : ∀ e ∈ f.trace, e.inBounds = true ∧ e.isReport = false) :
    ∀ e ∈ (finishHeaders (record es f)).trace, e.inBounds = true ∧ e.isReport = false := by
  obtain ⟨-, -, es', htrace, hes'⟩ := finishHeaders_resplit (record es f)
  rw [htrace]
  refine List.forall_mem_append.mpr ⟨List.forall_mem_append.mpr ⟨hf, fun e he => ?_⟩, hes'⟩
  exact ⟨(hes e he).1, (hes e he).2.1⟩

theorem rejected_events {f : ResourceFile} {es : List FileEvent} (hes : ∀ e ∈ es, Quiet e)
    (hf : ∀ e ∈ f.trace, e.inBounds = true ∧ e.isReport = false) :
    .headersInvalid ∈ (record (es ++ [.headersInvalid]) f).trace ∧
      ∀ e ∈ (record (es ++ [.headersInvalid]) f).trace, e.inBounds = true := by
  constructor
  · simp [record]
  · refine List.forall_mem_append.mpr ⟨fun e he => (hf e he).1, List.forall_mem_append.mpr ?_⟩
    exact ⟨fun e he => (hes e he).1, List.forall_mem_singleton.mpr rfl⟩

/-- A file that does not start with a newline is accepted exactly when it has the format. -/
theorem accepts_saved_format (separatorForKey : Str → Str) (fileName base : Str) {contents : Str}
    (hstart : contents.head? ≠ some '\n') :
    AcceptsFormat separatorForKey fileName base contents := by
  have hopened := opened_quiet fileName base
  have hunique : ∀ p p' : SavedParse, p.WellFormed → p'.WellFormed → p.text = contents →
      p'.text = contents → p = p' :=
    fun p p' hp hp' htext htext' => parse_unique hp hp' (htext.trans htext'.symm)
  have hends : headerTurns separatorForKey contents.length 0
      { opened fileName base with fileContents := contents } =
        some (headerLoop separatorForKey 0 { opened fileName base with fileContents := contents }) :=
    headerTurns_enough separatorForKey (Nat.le_add_left _ _)
  rcases readContents_cases separatorForKey hstart (opened_body fileName base) with
    ⟨p, hp, htext, es, hes, hread⟩ | ⟨hnone, lines, es, hes, hread⟩
  · refine ⟨iff_of_true (fun hmem => ?_) ⟨p, hp, htext⟩, hunique, fun p' hp' htext' => ?_, hends⟩
    · rw [hread] at hmem
      refine absurd (accepted_events hes ?_ _ hmem).2 nofun
      exact hopened
    · rw [hread, (finishHeaders_resplit _).body, hunique p' p hp' hp htext' htext]
      rfl
  · refine ⟨iff_of_false (fun hnot => hnot ?_) fun ⟨p, hp, htext⟩ => hnone p hp htext, hunique,
      fun p hp htext => absurd htext (hnone p hp), hends⟩
    rw [hread]
    refine (rejected_events hes ?_).1
    exact hopened

theorem accepts_one_header : AcceptsFormat quicheSeparator "/d/a.org/i".toList "a.org/i".toList
    "a: b\r\n\nbody".toList :=
  accepts_saved_format _ _ _ (by decide)

/-- Every access of `Read` is in bounds exactly when the file does not start with a newline. -/
theorem scan_in_bounds_iff (separatorForKey : Str → Str) (fileName base contents : Str) :
    (∀ e ∈ (readContents separatorForKey (some contents) (opened fileName base)).trace,
        e.inBounds = true) ↔ contents.head? ≠ some '\n' := by
  constructor
  · intro h hhead
    obtain ⟨rest, rfl⟩ := List.head?_eq_some_iff.mp hhead
    rw [readContents_newline] at h
    have hindex := h (.index (-1) (rest.length + 1)) (by simp [record])
    simp [FileEvent.inBounds] at hindex
  · intro hstart
    have hopened := opened_quiet fileName base
    rcases readContents_cases separatorForKey hstart (opened_body fileName base) with
      ⟨p, -, -, es, hes, hread⟩ | ⟨-, lines, es, hes, hread⟩
    · rw [hread]
      intro e he
      refine (accepted_events hes ?_ e he).1
      exact hopened
    · rw [hread]
      refine (rejected_events hes ?_).2
      exact hopened

theorem newline_file_out_of_bounds :
    .index (-1) 1 ∈ (readContents quicheSeparator (some ['\n']) (opened [] [])).trace ∧
      ¬ ∀ e ∈ (readContents quicheSeparator (some ['\n']) (opened [] [])).trace,
        e.inBounds = true := by
  have hmem : .index (-1) 1 ∈ (readContents quicheSeparator (some ['\n']) (opened [] [])).trace := by
    rw [readContents_newline]
    simp [record]
  exact ⟨hmem, fun h => absurd (h _ hmem) (by decide)⟩

end QuailServer.SavedFormat
