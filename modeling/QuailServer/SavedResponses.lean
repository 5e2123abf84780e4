import QuailServer.FileScan

set_option autoImplicit false

namespace QuailServer.SavedResponses
open HeaderBlock ResourceReader ResourceFile FileScan

inductive LineEnding where
  | lf
  | crlf
  deriving DecidableEq

def LineEnding.text : LineEnding → Str
  | .lf => ['\n']
  | .crlf => ['\r', '\n']

def LineEnding.raw (line : Str) : LineEnding → Str
  | .lf => line
  | .crlf => line ++ ['\r']

def statusLine (version status reason : Str) : Str :=
  "HTTP".toList ++ version ++ ' ' :: (status ++ reason)

structure SavedField where
  name : Str
  value : Str
  ending : LineEnding
  name_newline : '\n' ∉ name
  name_colon : ¬ colonSpace <:+: name
  name_status : toLower name ≠ ":status".toList
  name_http : ¬ "HTTP".toList <+: name
  value_newline : '\n' ∉ value
  value_cr : ending = .lf → value.getLast? ≠ some '\r'

structure SavedResponse where
  version : Str
  status : Str
  reason : Str
  ending : LineEnding
  fields : List SavedField
  blank : LineEnding
  body : Str
  version_newline : '\n' ∉ version
  version_space : ' ' ∉ version
  status_length : status.length = 3
  status_newline : '\n' ∉ status
  reason_newline : '\n' ∉ reason
  reason_space : reason = [] ∨ reason.head? = some ' '
  status_cr : ending = .lf → (statusLine version status reason).getLast? ≠ some '\r'

def SavedField.line (x : SavedField) : Str := x.name ++ colonSpace ++ x.value

namespace SavedResponse

def encode (r : SavedResponse) : Str :=
  statusLine r.version r.status r.reason ++ r.ending.text ++
    (r.fields.map fun x => x.line ++ x.ending.text).flatten ++ r.blank.text ++ r.body

/-- The values of the fields that have this name in lower case, in order. -/
def values (r : SavedResponse) (key : Str) : List Str :=
  (r.fields.filter fun x => toLower x.name = key).map SavedField.value

end SavedResponse

def mixedEndings : SavedResponse where
  version := "/1.1".toList
  status := "200".toList
  reason := " OK".toList
  ending := .lf
  fields := [⟨"Server".toList, "a".toList, .crlf, by decide, by decide, by decide, by decide,
    by decide, by decide⟩]
  blank := .lf
  body := "b: c\n".toList
  version_newline := by decide
  version_space := by decide
  status_length := rfl
  status_newline := by decide
  reason_newline := by decide
  reason_space := Or.inr rfl
  status_cr := by decide

example : mixedEndings.encode = "HTTP/1.1 200 OK\nServer: a\r\n\nb: c\n".toList := by decide

def combined (separator : Str) (values : List Str) : Option Str :=
  if values = [] then none else some (separator.intercalate values)

/-- The file read back from what was encoded. -/
structure Decodes (separatorForKey : Str → Str) (r : SavedResponse) (f : ResourceFile) : Prop where
  status : f.spdyHeaders.find ":status" = some r.status
  connection : f.spdyHeaders.find "connection" = none
  values : ∀ key : Str, key ≠ ":status".toList → key ≠ "connection".toList →
    f.spdyHeaders.find key = combined (separatorForKey key) (r.values key)
  body : f.body = r.body

theorem raw_newline (line : Str) (e : LineEnding) : line ++ e.text = e.raw line ++ ['\n'] := by
  cases e with
  | lf => rfl
  | crlf => simp [LineEnding.text, LineEnding.raw]

theorem chomp_raw {line : Str} {e : LineEnding} (hcr : e = .lf → line.getLast? ≠ some '\r') :
    chomp (e.raw line) = line := by
  unfold chomp
  cases e with
  | lf => exact if_neg (hcr rfl)
  | crlf => simp [LineEnding.raw]

theorem raw_absent {line : Str} (hline : '\n' ∉ line) (e : LineEnding) : '\n' ∉ e.raw line := by
  cases e with
  | lf => exact hline
  | crlf => simpa [LineEnding.raw] using hline

theorem chomp_blank (e : LineEnding) : chomp (e.raw []) = [] := by
  cases e <;> rfl

theorem statusLine_header (version status reason : Str) :
    HeaderLine (statusLine version status reason) := by
  left
  refine ⟨⟨version ++ ' ' :: (status ++ reason), ?_⟩, ?_⟩
  · simp [statusLine]
  · simp [statusLine]

theorem statusLine_status {version status reason : Str} (hspace : ' ' ∉ version)
    (hlen : status.length = 3) (separatorForKey : Str → Str) (h : Http2HeaderBlock) :
    lineHeaders separatorForKey h (statusLine version status reason) = h.set ":status" status := by
  have habsent : ' ' ∉ "HTTP".toList ++ version := by
    rw [List.mem_append]
    exact not_or.mpr ⟨by decide, hspace⟩
  have hcut : statusLine version status reason =
      ("HTTP".toList ++ version ++ [' ']) ++ (status ++ reason) := by
    simp [statusLine]
  have hindex : (statusLine version status reason).idxOf? ' ' = some ("HTTP".toList ++ version).length :=
    TextSearch.idxOf?_append_cons habsent _
  have hdrop : (statusLine version status reason).drop (("HTTP".toList ++ version).length + 1) =
      status ++ reason := by
    have hnext : ("HTTP".toList ++ version ++ [' ']).length = ("HTTP".toList ++ version).length + 1 :=
      List.length_append
    rw [hcut, ← hnext, List.drop_left]
  have htake : (status ++ reason).take 3 = status := by
    rw [← hlen, List.take_left]
  unfold lineHeaders
  rw [if_pos ((http_prefix_iff _).mpr ⟨version ++ ' ' :: (status ++ reason), by simp [statusLine]⟩),
    hindex, Option.getD_some, hdrop, htake]

theorem field_http {x : SavedField} : ¬ "HTTP".toList <+: x.line := by
  intro h
  obtain ⟨t, ht⟩ := h
  unfold SavedField.line at ht
  rw [List.append_assoc] at ht
  obtain ⟨u, hu, -⟩ | ⟨u, hu, hrest⟩ := List.append_eq_append_iff.mp ht
  · exact x.name_http ⟨u, hu.symm⟩
  · cases u with
    | nil =>
      rw [List.append_nil] at hu
      exact x.name_http ⟨[], by rw [List.append_nil, hu]⟩
    | cons c u =>
      -- The colon after a shorter name would stand where `HTTP` has a letter.
      injection hrest with hc _
      have hmem : ':' ∈ "HTTP".toList := by
        rw [hu, hc]
        simp
      exact absurd hmem (by decide)

theorem field_header (x : SavedField) : HeaderLine x.line := by
  right
  exact ⟨field_http, ⟨x.name, x.value, rfl⟩⟩

theorem field_headers (x : SavedField) (separatorForKey : Str → Str) (h : Http2HeaderBlock) :
    lineHeaders separatorForKey h x.line =
      h.appendValueOrAddHeader separatorForKey (toLower x.name) x.value := by
  have hcut : x.line = x.name ++ ':' :: ' ' :: x.value := by simp [SavedField.line, colonSpace]
  have hfind : TextSearch.find colonSpace x.line = some x.name.length := by
    rw [hcut]
    exact TextSearch.find_pair (by decide) x.name_colon x.value
  have hlen : (x.name ++ colonSpace).length = x.name.length + 2 := List.length_append
  have htake : x.line.take x.name.length = x.name := by
    rw [hcut, List.take_left]
  have hdrop : x.line.drop (x.name.length + 2) = x.value := by
    rw [SavedField.line, ← hlen, List.drop_left]
  unfold lineHeaders
  rw [if_neg fun heq => field_http ((http_prefix_iff x.line).mp heq), hfind]
  dsimp only [Option.getD_some]
  rw [htake, hdrop]

theorem field_newline (x : SavedField) : '\n' ∉ x.line := by
  simp [SavedField.line, colonSpace, x.name_newline, x.value_newline]

theorem field_cr {x : SavedField} (h : x.ending = .lf) : x.line.getLast? ≠ some '\r' := by
  unfold SavedField.line
  rw [List.getLast?_append]
  cases hlast : x.value.getLast? with
  | some c =>
    have hvalue := x.value_cr h
    rw [hlast] at hvalue
    exact hvalue
  | none => simp [colonSpace]

theorem intercalate_concat (separator : Str) {values : List Str} (h : values ≠ []) (v : Str) :
    separator.intercalate (values ++ [v]) = separator.intercalate values ++ separator ++ v := by
  induction values with
  | nil => exact absurd rfl h
  | cons w values ih =>
    cases values with
    | nil => simp [List.intercalate_cons_cons]
    | cons u values =>
      have hrest := ih (List.cons_ne_nil u values)
      rw [List.cons_append, List.cons_append, List.intercalate_cons_cons, ← List.cons_append, hrest,
        List.intercalate_cons_cons]
      simp

theorem combined_concat (separator : Str) (values : List Str) (v : Str) :
    combined separator (values ++ [v]) =
      some (((combined separator values).map fun old => old ++ separator ++ v).getD v) := by
  unfold combined
  rw [if_neg (by simp)]
  by_cases h : values = []
  · subst h
    simp
  · rw [if_neg h, intercalate_concat separator h]
    rfl

def addFields (separatorForKey : Str → Str) (fields : List SavedField) (h : Http2HeaderBlock) :
    Http2HeaderBlock :=
  fields.foldl (fun h x => h.appendValueOrAddHeader separatorForKey (toLower x.name) x.value) h

theorem addFields_concat (separatorForKey : Str → Str) (fields : List SavedField) (x : SavedField)
    (h : Http2HeaderBlock) : addFields separatorForKey (fields ++ [x]) h =
      (addFields separatorForKey fields h).appendValueOrAddHeader separatorForKey
        (toLower x.name) x.value := by
  unfold addFields
  rw [List.foldl_append]
  rfl

theorem addFields_status (separatorForKey : Str → Str) (fields : List SavedField)
    (h : Http2HeaderBlock) :
    (addFields separatorForKey fields h).find ":status" = h.find ":status" := by
  induction fields using List.reverseRecOn with
  | nil => rfl
  | append_singleton fields x ih =>
    rw [addFields_concat, Http2HeaderBlock.find_append_ne _ _ _ x.name_status.symm, ih]

theorem addFields_find (separatorForKey : Str → Str) (fields : List SavedField)
    {h : Http2HeaderBlock} {key : Str} (hnew : h.find key = none) :
    (addFields separatorForKey fields h).find key =
      combined (separatorForKey key)
        ((fields.filter fun x => toLower x.name = key).map SavedField.value) := by
  induction fields using List.reverseRecOn with
  | nil => exact hnew
  | append_singleton fields x ih =>
    rw [addFields_concat, List.filter_append, List.map_append]
    by_cases hkey : toLower x.name = key
    · subst hkey
      rw [Http2HeaderBlock.find_append, ih]
      simp [combined_concat]
    · rw [Http2HeaderBlock.find_append_ne _ _ _ (Ne.symm hkey), ih]
      simp [hkey]

def SavedResponse.lines (r : SavedResponse) : List Str :=
  r.ending.raw (statusLine r.version r.status r.reason) ::
    r.fields.map fun x => x.ending.raw x.line

theorem scanned_fields {fields : List SavedField} {rest : Str} {ending : Ending}
    (h : Scanned rest [] ending) :
    Scanned ((fields.map fun x => x.line ++ x.ending.text).flatten ++ rest)
      (fields.map fun x => x.ending.raw x.line) ending := by
  induction fields with
  | nil => exact h
  | cons x fields ih =>
    have htext : ((x :: fields).map fun x => x.line ++ x.ending.text).flatten ++ rest =
        x.ending.raw x.line ++ '\n' ::
          ((fields.map fun x => x.line ++ x.ending.text).flatten ++ rest) := by
      rw [List.map_cons, List.flatten_cons, raw_newline]
      simp
    rw [htext]
    refine .line (raw_absent (field_newline x) x.ending) ?_ ih
    rw [chomp_raw field_cr]
    exact field_header x

theorem scanned_encode (r : SavedResponse) :
    Scanned r.encode r.lines (.emptyLine (r.blank.raw []) r.body) := by
  have hblank : Scanned (r.blank.raw [] ++ '\n' :: r.body) [] (.emptyLine (r.blank.raw []) r.body) :=
    .emptyLine (raw_absent List.not_mem_nil r.blank) (chomp_blank r.blank)
  have htext : r.encode = r.ending.raw (statusLine r.version r.status r.reason) ++ '\n' ::
      ((r.fields.map fun x => x.line ++ x.ending.text).flatten ++
        (r.blank.raw [] ++ '\n' :: r.body)) := by
    have hempty := raw_newline [] r.blank
    rw [List.nil_append] at hempty
    unfold SavedResponse.encode
    rw [hempty, raw_newline (statusLine r.version r.status r.reason) r.ending]
    simp
  have hstatus : '\n' ∉ statusLine r.version r.status r.reason := by
    simp [statusLine, r.version_newline, r.status_newline, r.reason_newline]
  rw [htext]
  refine .line (raw_absent hstatus r.ending) ?_ (scanned_fields hblank)
  rw [chomp_raw r.status_cr]
  exact statusLine_header r.version r.status r.reason

theorem lines_headers (r : SavedResponse) (separatorForKey : Str → Str) (h : Http2HeaderBlock) :
    linesHeaders separatorForKey r.lines h =
      addFields separatorForKey r.fields (h.set ":status" r.status) := by
  unfold linesHeaders SavedResponse.lines addFields
  rw [List.foldl_cons, chomp_raw r.status_cr, statusLine_status r.version_space r.status_length,
    List.foldl_map]
  congr 1
  funext h x
  rw [chomp_raw field_cr, field_headers]

/-- Every saved response is read back: its status, its combined header values and its body. -/
theorem decode_encode (separatorForKey : Str → Str) (fileName base : Str) (r : SavedResponse) :
    Decodes separatorForKey r
      (readContents separatorForKey (some r.encode) (opened fileName base)) := by
  have hstart : r.encode.head? ≠ some '\n' := by
    simp [SavedResponse.encode, statusLine]
  obtain ⟨es, -, hread⟩ := readContents_accepted separatorForKey hstart (scanned_encode r)
    nofun (opened fileName base)
  obtain ⟨hbody, hheaders, -⟩ := finishHeaders_resplit (record es { opened fileName base with
    fileContents := r.encode
    spdyHeaders := linesHeaders separatorForKey r.lines (opened fileName base).spdyHeaders
    body := r.body })
  have hblock : (readContents separatorForKey (some r.encode) (opened fileName base)).spdyHeaders =
      (addFields separatorForKey r.fields (Http2HeaderBlock.set ∅ ":status" r.status)).erase
        "connection" := by
    rw [hread]
    refine hheaders.trans ?_
    change (linesHeaders separatorForKey r.lines (opened fileName base).spdyHeaders).erase _ = _
    rw [opened_headers, lines_headers]
  refine ⟨?_, ?_, fun key hstatus hconnection => ?_, ?_⟩
  · rw [hblock, Http2HeaderBlock.find_erase_ne _ (by decide), addFields_status,
      Http2HeaderBlock.find_set]
  · rw [hblock]
    exact Http2HeaderBlock.find_erase _ _
  · have hnew : (Http2HeaderBlock.set ∅ ":status" r.status).find key = none := by
      rw [Http2HeaderBlock.find_set_ne _ _ hstatus]
      exact Http2HeaderBlock.find_empty key
    rw [hblock, Http2HeaderBlock.find_erase_ne _ hconnection, addFields_find separatorForKey _ hnew]
    rfl
  · rw [hread]
    exact hbody

end QuailServer.SavedResponses
