import QuailServer.ResourceReader

set_option autoImplicit false

namespace QuailServer.FileScan
open HeaderBlock ResourceReader ResourceFile

/-- The line without the CR of a dos line ending. -/
def chomp (raw : Str) : Str := if raw.getLast? = some '\r' then raw.dropLast else raw

def StatusLine (line : Str) : Prop := "HTTP".toList <+: line ∧ ' ' ∈ line

def FieldLine (line : Str) : Prop := ¬ "HTTP".toList <+: line ∧ colonSpace <:+: line

def HeaderLine (line : Str) : Prop := StatusLine line ∨ FieldLine line

inductive Ending where
  | endOfFile
  | emptyLine (raw body : Str)
  | invalid

/-- The header lines of a text, without their newlines, and what ends them. -/
inductive Scanned : Str → List Str → Ending → Prop where
  | endOfFile : Scanned [] [] .endOfFile
  | emptyLine {raw body : Str} (hraw : '\n' ∉ raw) (hline : chomp raw = []) :
      Scanned (raw ++ '\n' :: body) [] (.emptyLine raw body)
  | unterminated {text : Str} (hne : text ≠ []) (htext : '\n' ∉ text) : Scanned text [] .invalid
  | malformed {raw rest : Str} (hraw : '\n' ∉ raw) (hne : chomp raw ≠ [])
      (hline : ¬ HeaderLine (chomp raw)) : Scanned (raw ++ '\n' :: rest) [] .invalid
  | line {raw rest : Str} {lines : List Str} {ending : Ending} (hraw : '\n' ∉ raw)
      (hline : HeaderLine (chomp raw)) (tail : Scanned rest lines ending) :
      Scanned (raw ++ '\n' :: rest) (raw :: lines) ending

theorem HeaderLine.ne_nil {line : Str} (h : HeaderLine line) : line ≠ [] := by
  rintro rfl
  rcases h with ⟨-, hmem⟩ | ⟨-, hinfix⟩
  · exact List.not_mem_nil hmem
  · exact absurd (List.infix_nil.mp hinfix) (by decide)

/-- Every text can be cut, so that the format is decided by how its lines end. -/
theorem scanned_total (text : Str) : ∃ lines ending, Scanned text lines ending := by
  induction hn : text.length using Nat.strong_induction_on generalizing text with
  | _ n ih =>
    by_cases hmem : '\n' ∈ text
    · obtain ⟨raw, rest, rfl, hraw⟩ := List.eq_append_cons_of_mem hmem
      by_cases hline : HeaderLine (chomp raw)
      · have hlt : rest.length < n := by
          rw [← hn, List.length_append, List.length_cons]
          omega
        obtain ⟨lines, ending, hrest⟩ := ih rest.length hlt rest rfl
        exact ⟨raw :: lines, ending, .line hraw hline hrest⟩
      · by_cases hempty : chomp raw = []
        · exact ⟨[], .emptyLine raw rest, .emptyLine hraw hempty⟩
        · exact ⟨[], .invalid, .malformed hraw hempty hline⟩
    · by_cases hnil : text = []
      · subst hnil
        exact ⟨[], .endOfFile, .endOfFile⟩
      · exact ⟨[], .invalid, .unterminated hnil hmem⟩

theorem scanned_absent {text : Str} {lines : List Str} {ending : Ending}
    (h : Scanned text lines ending) (htext : '\n' ∉ text) :
    lines = [] ∧ ending = if text = [] then .endOfFile else .invalid := by
  cases h with
  | endOfFile => exact ⟨rfl, rfl⟩
  | unterminated hne _ => exact ⟨rfl, (if_neg hne).symm⟩
  | emptyLine => exact absurd (by simp) htext
  | malformed => exact absurd (by simp) htext
  | line => exact absurd (by simp) htext

theorem scanned_cons {raw rest : Str} {lines : List Str} {ending : Ending}
    (h : Scanned (raw ++ '\n' :: rest) lines ending) (hraw : '\n' ∉ raw) :
    (chomp raw = [] ∧ lines = [] ∧ ending = .emptyLine raw rest) ∨
      (chomp raw ≠ [] ∧ ¬ HeaderLine (chomp raw) ∧ lines = [] ∧ ending = .invalid) ∨
      (HeaderLine (chomp raw) ∧ ∃ tail, lines = raw :: tail ∧ Scanned rest tail ending) := by
  generalize htext : raw ++ '\n' :: rest = text at h
  cases h with
  | endOfFile => simp at htext
  | unterminated _ habsent => exact absurd (by simp [← htext]) habsent
  | emptyLine hraw' hline =>
    obtain ⟨rfl, rfl⟩ := TextSearch.append_cons_inj hraw hraw' htext
    exact Or.inl ⟨hline, rfl, rfl⟩
  | malformed hraw' hne hline =>
    obtain ⟨rfl, rfl⟩ := TextSearch.append_cons_inj hraw hraw' htext
    exact Or.inr (Or.inl ⟨hne, hline, rfl, rfl⟩)
  | line hraw' hline tail =>
    obtain ⟨rfl, rfl⟩ := TextSearch.append_cons_inj hraw hraw' htext
    exact Or.inr (Or.inr ⟨hline, _, rfl, tail⟩)

theorem scanned_unique {text : Str} {lines lines' : List Str} {ending ending' : Ending}
    (h : Scanned text lines ending) (h' : Scanned text lines' ending') :
    lines = lines' ∧ ending = ending' := by
  induction h generalizing lines' with
  | endOfFile =>
    obtain ⟨rfl, rfl⟩ := scanned_absent h' List.not_mem_nil
    exact ⟨rfl, rfl⟩
  | unterminated hne htext =>
    obtain ⟨rfl, rfl⟩ := scanned_absent h' htext
    exact ⟨rfl, (if_neg hne).symm⟩
  | emptyLine hraw hline =>
    rcases scanned_cons h' hraw with ⟨-, rfl, rfl⟩ | ⟨hne, -⟩ | ⟨hheader, -⟩
    · exact ⟨rfl, rfl⟩
    · exact absurd hline hne
    · exact absurd hline hheader.ne_nil
  | malformed hraw hne hline =>
    rcases scanned_cons h' hraw with ⟨hempty, -⟩ | ⟨-, -, rfl, rfl⟩ | ⟨hheader, -⟩
    · exact absurd hempty hne
    · exact ⟨rfl, rfl⟩
    · exact absurd hheader hline
  | line hraw hline _ ih =>
    rcases scanned_cons h' hraw with ⟨hempty, -⟩ | ⟨-, hnot, -⟩ | ⟨-, rest', rfl, hrest⟩
    · exact absurd hempty hline.ne_nil
    · exact absurd hline hnot
    · obtain ⟨rfl, rfl⟩ := ih hrest
      exact ⟨rfl, rfl⟩

def Quiet (e : FileEvent) : Prop :=
  e.inBounds = true ∧ e.isReport = false ∧ ∀ base, e ≠ .setHostPathFromBase base

def record (es : List FileEvent) (f : ResourceFile) : ResourceFile := { f with trace := f.trace ++ es }

def lineHeaders (separatorForKey : Str → Str) (h : Http2HeaderBlock) (line : Str) :
    Http2HeaderBlock :=
  if line.take 4 = "HTTP".toList then
    h.set ":status" ((line.drop ((line.idxOf? ' ').getD 0 + 1)).take 3)
  else
    let pos := (TextSearch.find colonSpace line).getD 0
    h.appendValueOrAddHeader separatorForKey (toLower (line.take pos)) (line.drop (pos + 2))

theorem quiet_substr {pos size : ℕ} (h : pos ≤ size) : Quiet (.substr pos size) :=
  ⟨decide_eq_true h, rfl, fun _ => nofun⟩

theorem quiet_index {i : ℤ} {size : ℕ} (hpos : 0 ≤ i) (hlt : i < size) : Quiet (.index i size) :=
  ⟨decide_eq_true ⟨hpos, hlt⟩, rfl, fun _ => nofun⟩

theorem quiet_view {start size : ℕ} {len : ℤ} (hpos : 0 ≤ len) (hle : start + len ≤ size) :
    Quiet (.view start len size) :=
  ⟨decide_eq_true ⟨hpos, hle⟩, rfl, fun _ => nofun⟩

theorem http_prefix_iff (line : Str) : line.take 4 = "HTTP".toList ↔ "HTTP".toList <+: line := by
  rw [List.prefix_iff_eq_take]
  exact eq_comm

theorem readLine_header (separatorForKey : Str → Str) (start : ℕ) {line : Str} (h : HeaderLine line)
    (f : ResourceFile) : ∃ es, (∀ e ∈ es, Quiet e) ∧ readLine separatorForKey start line f =
      .next start (record es
        { f with spdyHeaders := lineHeaders separatorForKey f.spdyHeaders line }) := by
  unfold readLine lineHeaders
  rcases h with ⟨hhttp, hspace⟩ | ⟨hhttp, hcolon⟩
  · obtain ⟨pos, hpos⟩ := Option.isSome_iff_exists.mp (List.isSome_idxOf?.mpr hspace)
    obtain ⟨hlt, -⟩ := List.idxOf?_eq_some_iff.mp hpos
    rw [if_pos ((http_prefix_iff line).mpr hhttp), if_pos ((http_prefix_iff line).mpr hhttp), hpos]
    refine ⟨[.substr 0 line.length, .substr (pos + 1) line.length], ?_, ?_⟩
    · simp [quiet_substr, Nat.succ_le_of_lt hlt]
    · simp [record, emit]
  · have hnot := fun heq => hhttp ((http_prefix_iff line).mp heq)
    cases hfind : TextSearch.find colonSpace line with
    | none => exact absurd hcolon (TextSearch.find_eq_none_iff.mp hfind)
    | some pos =>
      have hle : pos + 2 ≤ line.length := TextSearch.find_bound hfind
      rw [if_neg hnot, if_neg hnot]
      refine ⟨[.substr 0 line.length, .substr 0 line.length, .substr (pos + 2) line.length], ?_, ?_⟩
      · simp [quiet_substr, hle]
      · simp [record, emit]

theorem readLine_invalid (separatorForKey : Str → Str) (start : ℕ) {line : Str} (h : ¬ HeaderLine line)
    (f : ResourceFile) : ∃ es, (∀ e ∈ es, Quiet e) ∧ readLine separatorForKey start line f =
      .exit .returned (record (es ++ [.headersInvalid]) f) := by
  have hquiet : ∀ e ∈ [FileEvent.substr 0 line.length], Quiet e := by
    intro e he
    rw [List.mem_singleton.mp he]
    exact quiet_substr (Nat.zero_le _)
  refine ⟨[.substr 0 line.length], hquiet, ?_⟩
  unfold readLine
  by_cases hhttp : "HTTP".toList <+: line
  · have hspace : ' ' ∉ line := fun hmem => h (Or.inl ⟨hhttp, hmem⟩)
    rw [if_pos ((http_prefix_iff line).mpr hhttp), List.idxOf?_eq_none_iff.mpr hspace]
    simp [record, emit]
  · have hcolon : ¬ colonSpace <:+: line := fun hmem => h (Or.inr ⟨hhttp, hmem⟩)
    rw [if_neg fun heq => hhttp ((http_prefix_iff line).mp heq),
      TextSearch.find_eq_none_iff.mpr hcolon]
    simp [record, emit]

/-- The text after `before` starts a line whose look-back stays in the contents. -/
def LineStart (before text : Str) : Prop :=
  before.getLast? = some '\n' ∨ (before = [] ∧ text.head? ≠ some '\n')

theorem LineStart.ne_nil {before raw rest : Str} (h : LineStart before (raw ++ '\n' :: rest)) :
    before ++ raw ≠ [] := by
  rintro hnil
  obtain ⟨rfl, rfl⟩ := List.append_eq_nil_iff.mp hnil
  rcases h with h | ⟨-, h⟩
  · cases h
  · exact h rfl

theorem LineStart.look_back {before raw rest : Str} (h : LineStart before (raw ++ '\n' :: rest)) :
    (before ++ raw).getLast? = some '\r' ↔ raw.getLast? = some '\r' := by
  rw [List.getLast?_append]
  cases hlast : raw.getLast? with
  | some c => rfl
  | none =>
    rcases h with h | ⟨rfl, -⟩
    · simp [h]
    · simp

theorem chomp_length (raw : Str) :
    ((chomp raw).length : ℤ) = raw.length - if raw.getLast? = some '\r' then 1 else 0 := by
  unfold chomp
  by_cases hcr : raw.getLast? = some '\r'
  · have hpos : 0 < raw.length := by
      rw [List.length_pos_iff]
      rintro rfl
      cases hcr
    rw [if_pos hcr, if_pos hcr, List.length_dropLast]
    omega
  · rw [if_neg hcr, if_neg hcr]
    omega

theorem chomp_isPrefix (raw : Str) : chomp raw <+: raw := by
  unfold chomp
  split
  · exact List.dropLast_prefix raw
  · exact List.prefix_refl raw

theorem lineLength_eq {before raw rest : Str} (h : LineStart before (raw ++ '\n' :: rest)) :
    lineLength (before ++ (raw ++ '\n' :: rest)) before.length (before.length + raw.length) =
      (chomp raw).length := by
  have hpos : 0 < (before ++ raw).length := List.length_pos_iff.mpr h.ne_nil
  have hlen : before.length + raw.length = (before ++ raw).length := List.length_append.symm
  have hback : (before ++ (raw ++ '\n' :: rest))[before.length + raw.length - 1]? =
      (before ++ raw).getLast? := by
    rw [← List.append_assoc, hlen, List.getElem?_append_left (by omega), List.getLast?_eq_getElem?]
  unfold lineLength
  rw [hback, chomp_length]
  simp only [h.look_back]
  omega

theorem view_line (before raw rest : Str) :
    ((before ++ (raw ++ '\n' :: rest)).drop before.length).take (chomp raw).length = chomp raw := by
  obtain ⟨t, ht⟩ := chomp_isPrefix raw
  rw [List.drop_left]
  nth_rewrite 2 [← ht]
  rw [List.append_assoc, List.take_left]

theorem headerTurn_at (separatorForKey : Str → Str) {start pos n : ℕ} {f : ResourceFile}
    (hfind : TextSearch.findFrom '\n' f.fileContents start = some pos) (hpos : 0 < pos)
    (hlen : lineLength f.fileContents start pos = n) :
    headerTurn separatorForKey start f =
      if (f.fileContents.drop start).take n = [] then
        .exit .finished (record
          [.index (pos - 1) f.fileContents.length, .view start n f.fileContents.length,
            .view (pos + 1) (f.fileContents.length - (pos + 1 : ℕ)) f.fileContents.length]
          { f with body := f.fileContents.drop (pos + 1) })
      else readLine separatorForKey (pos + 1) ((f.fileContents.drop start).take n) (record
        [.index (pos - 1) f.fileContents.length, .view start n f.fileContents.length] f) := by
  have hne : pos ≠ 0 := by omega
  have hlt : ¬ (n : ℤ) < 0 := by omega
  unfold headerTurn
  simp only [hfind, if_neg hne, emit_fileContents, hlen, if_neg hlt, Int.toNat_natCast,
    List.isEmpty_iff]
  by_cases hempty : (f.fileContents.drop start).take n = []
  · rw [if_pos hempty, if_pos hempty]
    simp [record, emit]
  · rw [if_neg hempty, if_neg hempty]
    simp [record, emit]

theorem headerTurn_line (separatorForKey : Str → Str) {before raw rest : Str} (hraw : '\n' ∉ raw)
    (hstart : LineStart before (raw ++ '\n' :: rest)) {f : ResourceFile}
    (hcontents : f.fileContents = before ++ (raw ++ '\n' :: rest)) :
    ∃ es, (∀ e ∈ es, Quiet e) ∧ headerTurn separatorForKey before.length f =
      if chomp raw = [] then .exit .finished (record es { f with body := rest })
      else readLine separatorForKey (before ++ raw ++ ['\n']).length (chomp raw) (record es f) := by
  have hpos : 0 < before.length + raw.length := by
    rw [← List.length_append]
    exact List.length_pos_iff.mpr hstart.ne_nil
  have hle : (chomp raw).length ≤ raw.length := (chomp_isPrefix raw).length_le
  have hsize : f.fileContents.length = before.length + raw.length + 1 + rest.length := by
    rw [hcontents]
    simp only [List.length_append, List.length_cons]
    omega
  have hnext : (before ++ raw ++ ['\n']).length = before.length + raw.length + 1 := by
    simp only [List.length_append, List.length_cons, List.length_nil]
  have hrest : f.fileContents.drop (before.length + raw.length + 1) = rest := by
    have happ : f.fileContents = (before ++ raw ++ ['\n']) ++ rest := by simp [hcontents]
    rw [happ, ← hnext, List.drop_left]
  have hfind := TextSearch.findFrom_length_append hraw before rest
  have hlen := lineLength_eq hstart
  have hview := view_line before raw rest
  rw [← hcontents] at hfind hlen hview
  have hindex : Quiet (.index ((before.length + raw.length : ℕ) - 1) f.fileContents.length) := by
    apply quiet_index <;> omega
  have hline : Quiet (.view before.length (chomp raw).length f.fileContents.length) := by
    apply quiet_view <;> omega
  have hbody : Quiet (.view (before.length + raw.length + 1)
      (f.fileContents.length - (before.length + raw.length + 1 : ℕ)) f.fileContents.length) := by
    apply quiet_view <;> omega
  rw [headerTurn_at separatorForKey hfind hpos hlen, hview, hrest, hnext]
  by_cases hempty : chomp raw = []
  · rw [if_pos hempty]
    refine ⟨_, ?_, (if_pos hempty).symm⟩
    exact List.forall_mem_cons.mpr ⟨hindex, List.forall_mem_cons.mpr
      ⟨hline, List.forall_mem_singleton.mpr hbody⟩⟩
  · rw [if_neg hempty]
    refine ⟨_, ?_, (if_neg hempty).symm⟩
    exact List.forall_mem_cons.mpr ⟨hindex, List.forall_mem_singleton.mpr hline⟩

def Ending.exit : Ending → LoopExit
  | .invalid => .returned
  | _ => .finished

def Ending.bodyOr (old : Str) : Ending → Str
  | .emptyLine _ body => body
  | _ => old

def Ending.reports : Ending → List FileEvent
  | .invalid => [.headersInvalid]
  | _ => []

def linesHeaders (separatorForKey : Str → Str) (lines : List Str) (h : Http2HeaderBlock) :
    Http2HeaderBlock :=
  lines.foldl (fun h raw => lineHeaders separatorForKey h (chomp raw)) h

@[simp] theorem record_nil (f : ResourceFile) : record [] f = f := by
  simp [record]

theorem record_record (es es' : List FileEvent) (f : ResourceFile) :
    record es' (record es f) = record (es ++ es') f := by
  simp [record]

theorem quiet_append {es es' : List FileEvent} (h : ∀ e ∈ es, Quiet e) (h' : ∀ e ∈ es', Quiet e) :
    ∀ e ∈ es ++ es', Quiet e :=
  List.forall_mem_append.mpr ⟨h, h'⟩

theorem headerLoop_end (separatorForKey : Str → Str) {start : ℕ} {f : ResourceFile}
    (h : f.fileContents.length ≤ start) : headerLoop separatorForKey start f = (.finished, f) := by
  rw [headerLoop, dif_neg (by omega)]

theorem headerLoop_exit {separatorForKey : Str → Str} {start : ℕ} {f f' : ResourceFile}
    {how : LoopExit} (hlt : start < f.fileContents.length)
    (h : headerTurn separatorForKey start f = .exit how f') :
    headerLoop separatorForKey start f = (how, f') := by
  rw [headerLoop, dif_pos hlt]
  split
  · next heq => rw [h] at heq; cases heq
  · next heq => rw [h] at heq; cases heq; rfl

theorem headerLoop_next {separatorForKey : Str → Str} {start start' : ℕ} {f f' : ResourceFile}
    (hlt : start < f.fileContents.length)
    (h : headerTurn separatorForKey start f = .next start' f') :
    headerLoop separatorForKey start f = headerLoop separatorForKey start' f' := by
  rw [headerLoop, dif_pos hlt]
  split
  · next heq => rw [h] at heq; cases heq; rfl
  · next heq => rw [h] at heq; cases heq

theorem LineStart.next {before raw rest : Str} :
    LineStart (before ++ raw ++ ['\n']) rest := by
  left
  rw [List.getLast?_append]
  rfl

theorem line_inside {contents before raw rest : Str}
    (h : contents = before ++ (raw ++ '\n' :: rest)) : before.length < contents.length := by
  rw [h, List.length_append, List.length_append, List.length_cons]
  omega

/-- The offset scanner follows the cut of the text that is left. -/
theorem headerLoop_scanned (separatorForKey : Str → Str) {text : Str} {lines : List Str}
    {ending : Ending} (h : Scanned text lines ending) {before : Str} (hstart : LineStart before text)
    {f : ResourceFile} (hcontents : f.fileContents = before ++ text) :
    ∃ es, (∀ e ∈ es, Quiet e) ∧ headerLoop separatorForKey before.length f =
      (ending.exit, record (es ++ ending.reports)
        { f with
          spdyHeaders := linesHeaders separatorForKey lines f.spdyHeaders
          body := ending.bodyOr f.body }) := by
  induction h generalizing before f with
  | endOfFile =>
    refine ⟨[], List.forall_mem_nil _, ?_⟩
    rw [headerLoop_end separatorForKey (by simp [hcontents])]
    change (LoopExit.finished, f) = (LoopExit.finished, record [] f)
    rw [record_nil]
  | @emptyLine raw body hraw hline =>
    obtain ⟨es, hquiet, hturn⟩ := headerTurn_line separatorForKey hraw hstart hcontents
    rw [if_pos hline] at hturn
    refine ⟨es, hquiet, ?_⟩
    have hlt := line_inside hcontents
    rw [headerLoop_exit hlt hturn]
    change _ = (LoopExit.finished, record (es ++ []) _)
    rw [List.append_nil]
    rfl
  | @unterminated text hne htext =>
    have hlt : before.length < f.fileContents.length := by
      have hpos := List.length_pos_iff.mpr hne
      rw [hcontents, List.length_append]
      omega
    have hturn : headerTurn separatorForKey before.length f =
        .exit .returned (f.emit .headersInvalid) := by
      unfold headerTurn
      rw [hcontents, TextSearch.findFrom_length_absent htext]
    refine ⟨[], List.forall_mem_nil _, ?_⟩
    rw [headerLoop_exit hlt hturn]
    rfl
  | @malformed raw rest hraw hne hline =>
    obtain ⟨es, hquiet, hturn⟩ := headerTurn_line separatorForKey hraw hstart hcontents
    rw [if_neg hne] at hturn
    obtain ⟨es', hquiet', hread⟩ := readLine_invalid separatorForKey
      (before ++ raw ++ ['\n']).length hline (record es f)
    rw [hread, record_record] at hturn
    have hlt := line_inside hcontents
    refine ⟨es ++ es', quiet_append hquiet hquiet', ?_⟩
    rw [headerLoop_exit hlt hturn, ← List.append_assoc]
    rfl
  | @line raw rest lines ending hraw hline tail ih =>
    obtain ⟨es, hquiet, hturn⟩ := headerTurn_line separatorForKey hraw hstart hcontents
    rw [if_neg hline.ne_nil] at hturn
    obtain ⟨es', hquiet', hread⟩ := readLine_header separatorForKey
      (before ++ raw ++ ['\n']).length hline (record es f)
    rw [hread] at hturn
    have hlt := line_inside hcontents
    rw [headerLoop_next hlt hturn]
    have hcontents' : f.fileContents = (before ++ raw ++ ['\n']) ++ rest := by simp [hcontents]
    obtain ⟨es'', hquiet'', hloop⟩ := ih LineStart.next (f := record es' { record es f with
      spdyHeaders := lineHeaders separatorForKey f.spdyHeaders (chomp raw) }) hcontents'
    refine ⟨es ++ es' ++ es'', quiet_append (quiet_append hquiet hquiet') hquiet'', ?_⟩
    refine hloop.trans ?_
    simp [record, linesHeaders]

theorem lineStart_nil {text : Str} (h : text.head? ≠ some '\n') : LineStart [] text := Or.inr ⟨rfl, h⟩

/-- The look-back of the first line wraps when the file starts with a newline. -/
theorem readContents_newline (separatorForKey : Str → Str) (rest : Str) (f : ResourceFile) :
    readContents separatorForKey (some ('\n' :: rest)) f =
      record [.index (-1) (rest.length + 1)] { f with fileContents := '\n' :: rest } := by
  have hfind : TextSearch.findFrom '\n' ('\n' :: rest) 0 = some 0 :=
    TextSearch.findFrom_length_append List.not_mem_nil [] rest
  have hturn : headerTurn separatorForKey 0 { f with fileContents := '\n' :: rest } =
      .exit .undefined (record [.index (-1) (rest.length + 1)]
        { f with fileContents := '\n' :: rest }) := by
    unfold headerTurn
    dsimp only
    rw [hfind]
    rfl
  unfold readContents
  dsimp only
  rw [headerLoop_exit (Nat.succ_pos _) hturn]

theorem readContents_invalid (separatorForKey : Str → Str) {contents : Str} {lines : List Str}
    (hstart : contents.head? ≠ some '\n') (h : Scanned contents lines .invalid) (f : ResourceFile) :
    ∃ es, (∀ e ∈ es, Quiet e) ∧ readContents separatorForKey (some contents) f =
      record (es ++ [.headersInvalid])
        { f with
          fileContents := contents
          spdyHeaders := linesHeaders separatorForKey lines f.spdyHeaders } := by
  obtain ⟨es, hquiet, hloop⟩ := headerLoop_scanned separatorForKey h (lineStart_nil hstart)
    (f := { f with fileContents := contents }) rfl
  refine ⟨es, hquiet, ?_⟩
  unfold readContents
  dsimp only
  change headerLoop separatorForKey 0 _ = _ at hloop
  rw [hloop]
  rfl

theorem readContents_accepted (separatorForKey : Str → Str) {contents : Str} {lines : List Str}
    {ending : Ending} (hstart : contents.head? ≠ some '\n') (h : Scanned contents lines ending)
    (hending : ending ≠ .invalid) (f : ResourceFile) :
    ∃ es, (∀ e ∈ es, Quiet e) ∧ readContents separatorForKey (some contents) f =
      finishHeaders (record es
        { f with
          fileContents := contents
          spdyHeaders := linesHeaders separatorForKey lines f.spdyHeaders
          body := ending.bodyOr f.body }) := by
  obtain ⟨es, hquiet, hloop⟩ := headerLoop_scanned separatorForKey h (lineStart_nil hstart)
    (f := { f with fileContents := contents }) rfl
  refine ⟨es, hquiet, ?_⟩
  unfold readContents
  dsimp only
  change headerLoop separatorForKey 0 _ = _ at hloop
  rw [hloop]
  cases ending with
  | invalid => exact absurd rfl hending
  | endOfFile =>
    change finishHeaders (record (es ++ []) _) = _
    rw [List.append_nil]
  | emptyLine raw body =>
    change finishHeaders (record (es ++ []) _) = _
    rw [List.append_nil]

structure Resplit (f f' : ResourceFile) : Prop where
  body : f'.body = f.body
  spdyHeaders : f'.spdyHeaders = f.spdyHeaders
  trace : ∃ es, f'.trace = f.trace ++ es ∧ ∀ e ∈ es, e.inBounds = true ∧ e.isReport = false

theorem setHostPathFromBase_resplit (base : Str) (f : ResourceFile) :
    Resplit f (f.setHostPathFromBase base) := by
  have hsplit : ∀ e ∈ [FileEvent.setHostPathFromBase base], e.inBounds = true ∧ e.isReport = false :=
    List.forall_mem_singleton.mpr ⟨rfl, rfl⟩
  unfold setHostPathFromBase
  cases hslash : base.idxOf? '/' with
  | none => exact ⟨rfl, rfl, _, rfl, hsplit⟩
  | some pathStart =>
    obtain ⟨hlt, -⟩ := List.idxOf?_eq_some_iff.mp hslash
    have hquiet : ∀ e ∈ [FileEvent.setHostPathFromBase base, .substr 0 base.length,
        .substr pathStart base.length], e.inBounds = true ∧ e.isReport = false := by
      simp [FileEvent.inBounds, FileEvent.isReport, hlt.le]
    match base.idxOf? ',' with
    | none => exact ⟨rfl, rfl, _, by simp [emit], hquiet⟩
    | some 0 => exact ⟨rfl, rfl, _, by simp [emit], hquiet⟩
    | some (_ + 1) => exact ⟨rfl, rfl, _, by simp [emit], hquiet⟩

theorem finishHeaders_resplit (f : ResourceFile) :
    Resplit { f with spdyHeaders := f.spdyHeaders.erase "connection" } f.finishHeaders := by
  unfold finishHeaders
  dsimp only
  cases Http2HeaderBlock.find (f.spdyHeaders.erase "connection") "x-original-url" with
  | none => exact ⟨rfl, rfl, [], by simp, List.forall_mem_nil _⟩
  | some url =>
    obtain ⟨hbody, hheaders, htrace⟩ := setHostPathFromBase_resplit (removeScheme url)
      { f with spdyHeaders := f.spdyHeaders.erase "connection", xOriginalUrl := url }
    exact ⟨hbody, hheaders, htrace⟩

theorem opened_quiet (fileName base : Str) :
    ∀ e ∈ (opened fileName base).trace, e.inBounds = true ∧ e.isReport = false := by
  obtain ⟨-, -, es, htrace, hes⟩ := setHostPathFromBase_resplit base (ResourceFile.new fileName)
  have hopened : (opened fileName base).trace = es := htrace
  rw [hopened]
  exact hes

theorem opened_body (fileName base : Str) : (opened fileName base).body = [] :=
  (setHostPathFromBase_resplit base (ResourceFile.new fileName)).body

theorem opened_headers (fileName base : Str) : (opened fileName base).spdyHeaders = ∅ :=
  (setHostPathFromBase_resplit base (ResourceFile.new fileName)).spdyHeaders

end QuailServer.FileScan
