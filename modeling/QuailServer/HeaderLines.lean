import QuailServer.SavedFormat
import QuailServer.SavedResponses

set_option autoImplicit false

namespace QuailServer.HeaderLines
open HeaderBlock ResourceReader ResourceFile FileScan SavedFormat SavedResponses

def Http (raw : Str) : Prop := "HTTP".toList <+: chomp raw

instance (raw : Str) : Decidable (Http raw) := inferInstanceAs (Decidable (_ <+: _))

def statusOf (line : Str) : Str := (line.drop ((line.idxOf? ' ').getD 0 + 1)).take 3

def nameOf (line : Str) : Str := toLower (line.take ((TextSearch.find colonSpace line).getD 0))

def valueOf (line : Str) : Str := line.drop ((TextSearch.find colonSpace line).getD 0 + 2)

/-- The values of the fields that have this name in lower case, in order. -/
def fieldValues (lines : List Str) (key : Str) : List Str :=
  (lines.filter fun raw => ¬ Http raw ∧ nameOf (chomp raw) = key).map fun raw => valueOf (chomp raw)

section Lines
variable (separatorForKey : Str → Str)

theorem lineHeaders_http {raw : Str} (hhttp : Http raw) (h : Http2HeaderBlock) :
    lineHeaders separatorForKey h (chomp raw) = h.set ":status" (statusOf (chomp raw)) :=
  if_pos ((http_prefix_iff _).mpr hhttp)

theorem lineHeaders_field {raw : Str} (hhttp : ¬ Http raw) (h : Http2HeaderBlock) :
    lineHeaders separatorForKey h (chomp raw) =
      h.appendValueOrAddHeader separatorForKey (nameOf (chomp raw)) (valueOf (chomp raw)) :=
  if_neg fun heq => hhttp ((http_prefix_iff _).mp heq)

theorem linesHeaders_append (xs ys : List Str) (h : Http2HeaderBlock) :
    linesHeaders separatorForKey (xs ++ ys) h =
      linesHeaders separatorForKey ys (linesHeaders separatorForKey xs h) :=
  List.foldl_append

theorem fieldValues_append (xs ys : List Str) (key : Str) :
    fieldValues (xs ++ ys) key = fieldValues xs key ++ fieldValues ys key := by
  unfold fieldValues
  rw [List.filter_append, List.map_append]

theorem fieldValues_hit {raw key : Str} (hhttp : ¬ Http raw) (hname : nameOf (chomp raw) = key) :
    fieldValues [raw] key = [valueOf (chomp raw)] := by
  simp [fieldValues, hhttp, hname]

theorem fieldValues_miss {raw key : Str} (h : Http raw ∨ nameOf (chomp raw) ≠ key) :
    fieldValues [raw] key = [] := by
  rcases h with h | h <;> simp [fieldValues, h]

/-- A name that is new holds the values of its fields; status lines do not write to it. -/
theorem linesHeaders_find (lines : List Str) {h : Http2HeaderBlock} {key : Str}
    (hkey : key ≠ ":status".toList) (hnew : h.find key = none) :
    (linesHeaders separatorForKey lines h).find key =
      combined (separatorForKey key) (fieldValues lines key) := by
  induction lines using List.reverseRecOn with
  | nil => exact hnew
  | append_singleton lines raw ih =>
    rw [linesHeaders_append, fieldValues_append]
    change (lineHeaders separatorForKey _ (chomp raw)).find key = _
    by_cases hhttp : Http raw
    · rw [lineHeaders_http separatorForKey hhttp, Http2HeaderBlock.find_set_ne _ _ hkey, ih,
        fieldValues_miss (Or.inl hhttp), List.append_nil]
    · rw [lineHeaders_field separatorForKey hhttp]
      by_cases hname : nameOf (chomp raw) = key
      · rw [fieldValues_hit hhttp hname, combined_concat, ← ih, hname]
        exact Http2HeaderBlock.find_append ..
      · rw [Http2HeaderBlock.find_append_ne _ _ _ (Ne.symm hname), ih,
          fieldValues_miss (Or.inr hname), List.append_nil]

def addedStatus (lines : List Str) : Str :=
  ((fieldValues lines ":status").map fun value => separatorForKey ":status" ++ value).flatten

theorem linesHeaders_status {lines : List Str} (hfields : ∀ raw ∈ lines, ¬ Http raw)
    {h : Http2HeaderBlock} {status : Str} (hstatus : h.find ":status" = some status) :
    (linesHeaders separatorForKey lines h).find ":status" =
      some (status ++ addedStatus separatorForKey lines) := by
  induction lines using List.reverseRecOn with
  | nil =>
    refine hstatus.trans (congrArg some ?_)
    exact (List.append_nil status).symm
  | append_singleton lines raw ih =>
    obtain ⟨hlines, hraw⟩ := List.forall_mem_append.mp hfields
    have hhttp := List.forall_mem_singleton.mp hraw
    have hbefore := ih hlines
    have hline : linesHeaders separatorForKey (lines ++ [raw]) h =
        (linesHeaders separatorForKey lines h).appendValueOrAddHeader separatorForKey
          (nameOf (chomp raw)) (valueOf (chomp raw)) := by
      rw [linesHeaders_append]
      exact lineHeaders_field separatorForKey hhttp _
    rw [hline]
    unfold addedStatus at hbefore ⊢
    rw [fieldValues_append, List.map_append, List.flatten_append]
    by_cases hname : nameOf (chomp raw) = ":status".toList
    · rw [fieldValues_hit hhttp hname, hname, Http2HeaderBlock.find_append, hbefore]
      simp
    · rw [fieldValues_miss (Or.inr hname), Http2HeaderBlock.find_append_ne _ _ _ (Ne.symm hname),
        hbefore]
      simp

end Lines

/-- The lines after the first keep its status: fields named `:status` add nothing to it, and of the
    lines that start with `HTTP` the last one, with the fields after it, gives it again. -/
structure KeepsStatus (separatorForKey : Str → Str) (later : List Str) (status : Str) : Prop where
  fields : (∀ raw ∈ later, ¬ Http raw) → addedStatus separatorForKey later = []
  overwritten : ∀ before raw after, later = before ++ raw :: after → Http raw →
    (∀ x ∈ after, ¬ Http x) → statusOf (chomp raw) ++ addedStatus separatorForKey after = status

theorem linesHeaders_keeps (separatorForKey : Str → Str) (later : List Str) {h : Http2HeaderBlock}
    {status : Str} (hfirst : h.find ":status" = some status) :
    (linesHeaders separatorForKey later h).find ":status" = some status ↔
      KeepsStatus separatorForKey later status := by
  have hlast : ∀ before raw after, later = before ++ raw :: after → Http raw →
      (∀ x ∈ after, ¬ Http x) → (linesHeaders separatorForKey later h).find ":status" =
        some (statusOf (chomp raw) ++ addedStatus separatorForKey after) := by
    rintro before raw after rfl hraw hafter
    rw [linesHeaders_append]
    apply linesHeaders_status separatorForKey hafter
    dsimp only
    rw [lineHeaders_http separatorForKey hraw, Http2HeaderBlock.find_set]
  constructor
  · intro hfind
    refine ⟨fun hfields => ?_, fun before raw after hlater hraw hafter => ?_⟩
    · rw [linesHeaders_status separatorForKey hfields hfirst] at hfind
      exact List.append_right_eq_self.mp (Option.some.inj hfind)
    · rw [hlast before raw after hlater hraw hafter] at hfind
      exact Option.some.inj hfind
  · intro hkeeps
    by_cases hsome : ∃ raw ∈ later, Http raw
    · obtain ⟨before, raw, after, hlater, hraw, hafter⟩ := TextSearch.exists_last hsome
      rw [hlast before raw after hlater hraw hafter,
        hkeeps.overwritten before raw after hlater hraw hafter]
    · have hfields : ∀ raw ∈ later, ¬ Http raw := fun raw hraw hhttp => hsome ⟨raw, hraw, hhttp⟩
      rw [linesHeaders_status separatorForKey hfields hfirst, hkeeps.fields hfields, List.append_nil]

theorem text_start {p : SavedParse} (hp : p.WellFormed) (hlines : p.lines ≠ []) :
    p.text.head? ≠ some '\n' := by
  obtain ⟨raw, later, heq⟩ := List.exists_cons_of_ne_nil hlines
  obtain ⟨hnewline, hne, -⟩ := hp.lines raw (by rw [heq]; exact List.mem_cons_self)
  obtain ⟨rest, htext⟩ : ∃ rest, p.text = raw ++ rest := by
    unfold SavedParse.text
    rw [heq, List.map_cons, List.flatten_cons, List.append_assoc, List.append_assoc]
    exact ⟨_, rfl⟩
  cases raw with
  | nil => exact absurd rfl hne
  | cons c raw =>
    rw [htext]
    intro hhead
    obtain rfl := Option.some.inj hhead
    exact hnewline List.mem_cons_self

theorem accepted_headers (separatorForKey : Str → Str) (fileName base : Str) {p : SavedParse}
    (hp : p.WellFormed) (hstart : p.text.head? ≠ some '\n') :
    (readContents separatorForKey (some p.text) (opened fileName base)).spdyHeaders =
      (linesHeaders separatorForKey p.lines ∅).erase "connection" := by
  obtain ⟨es, -, hread⟩ := readContents_accepted separatorForKey hstart (scanned_of_wellFormed hp)
    (ending_accepted p) (opened fileName base)
  rw [hread, (finishHeaders_resplit _).spdyHeaders]
  change (linesHeaders separatorForKey p.lines (opened fileName base).spdyHeaders).erase _ = _
  rw [opened_headers]

/-- An accepted file keeps the status of its first line exactly when the lines after it do. -/
theorem status_first_line_iff (separatorForKey : Str → Str) (fileName base : Str) {p : SavedParse}
    (hp : p.WellFormed) {raw : Str} {later : List Str} (hlines : p.lines = raw :: later)
    {version status reason : Str} (hfirst : chomp raw = statusLine version status reason)
    (hversion : ' ' ∉ version) (hstatus : status.length = 3) :
    (readContents separatorForKey (some p.text) (opened fileName base)).spdyHeaders.find ":status" =
      some status ↔ KeepsStatus separatorForKey later status := by
  have hheaders : linesHeaders separatorForKey p.lines ∅ =
      linesHeaders separatorForKey later (Http2HeaderBlock.set ∅ ":status" status) := by
    rw [hlines]
    change linesHeaders separatorForKey later (lineHeaders separatorForKey ∅ (chomp raw)) = _
    rw [hfirst, statusLine_status hversion hstatus]
  rw [accepted_headers separatorForKey fileName base hp (text_start hp (by simp [hlines])),
    Http2HeaderBlock.find_erase_ne _ (by decide), hheaders]
  exact linesHeaders_keeps separatorForKey later (Http2HeaderBlock.find_set ..)

def twoLines (line : Str) : SavedParse := ⟨["HTTP/1.1 200 OK".toList, line], some ([], [])⟩

theorem twoLines_wellFormed {line : Str} (hnewline : '\n' ∉ line) (hne : chomp line ≠ [])
    (hline : HeaderLine (chomp line)) : (twoLines line).WellFormed := by
  refine ⟨List.forall_mem_cons.mpr ⟨⟨by decide, by decide, ?_⟩,
    List.forall_mem_singleton.mpr ⟨hnewline, hne, hline⟩⟩, ?_⟩
  · exact Or.inl ⟨by decide, by decide⟩
  · intro raw body heq
    obtain ⟨rfl, rfl⟩ := Prod.mk.inj (Option.some.inj heq)
    exact Or.inl rfl

theorem status_first_line_field :
    (readContents quicheSeparator (some (twoLines "Server: a".toList).text)
      (opened [] [])).spdyHeaders.find ":status" = some "200".toList := by
  have hp : (twoLines "Server: a".toList).WellFormed :=
    twoLines_wellFormed (by decide) (by decide) (Or.inr ⟨by decide, by decide⟩)
  have hfirst : chomp "HTTP/1.1 200 OK".toList =
      statusLine "/1.1".toList "200".toList " OK".toList := rfl
  refine (status_first_line_iff quicheSeparator [] [] hp rfl hfirst (by decide) rfl).mpr
    ⟨fun _ => by decide, ?_⟩
  rintro before raw after heq hraw -
  have hmem : raw ∈ ["Server: a".toList] := heq ▸ List.mem_append_right before List.mem_cons_self
  rw [List.mem_singleton.mp hmem] at hraw
  exact absurd hraw (by decide)

theorem status_replaced_or_extended :
    (twoLines "HTTP-Age: 404".toList).WellFormed ∧
      (readContents quicheSeparator (some (twoLines "HTTP-Age: 404".toList).text)
        (opened [] [])).spdyHeaders.find ":status" = some "404".toList ∧
      (twoLines ":status: 404".toList).WellFormed ∧
      (readContents quicheSeparator (some (twoLines ":status: 404".toList).text)
        (opened [] [])).spdyHeaders.find ":status" = some "200\x00404".toList := by
  have hreplaced : (twoLines "HTTP-Age: 404".toList).WellFormed :=
    twoLines_wellFormed (by decide) (by decide) (Or.inl ⟨by decide, by decide⟩)
  have hextended : (twoLines ":status: 404".toList).WellFormed :=
    twoLines_wellFormed (by decide) (by decide) (Or.inr ⟨by decide, by decide⟩)
  refine ⟨hreplaced, ?_, hextended, ?_⟩
  · rw [accepted_headers quicheSeparator [] [] hreplaced (text_start hreplaced nofun)]
    decide
  · rw [accepted_headers quicheSeparator [] [] hextended (text_start hextended nofun)]
    decide

end QuailServer.HeaderLines
