import QuailServer.SavedFormat
import QuailServer.SavedResponses
import QuailServer.StoreInvariant

set_option autoImplicit false

namespace QuailServer.SavedFiles
open HeaderBlock ResourceReader ResourceFile FileScan SavedFormat SavedResponses BackendDirectory
  StoreInvariant ResponseStore ServerBackend QuailServerBackend

structure SavedFile (separatorForKey : Str → Str) (r : SavedResponse) (start f : ResourceFile) :
    Prop where
  headers : f.spdyHeaders =
    (addFields separatorForKey r.fields (Http2HeaderBlock.set ∅ ":status" r.status)).erase "connection"
  body : f.body = r.body
  bounds : ∀ e ∈ f.trace, e.inBounds = true
  unmoved : r.values "x-original-url" = [] → f.host = start.host ∧ f.path = start.path

def scanned (separatorForKey : Str → Str) (r : SavedResponse) (f : ResourceFile) : ResourceFile :=
  { f with
    fileContents := r.encode
    spdyHeaders := linesHeaders separatorForKey r.lines f.spdyHeaders
    body := r.body }

theorem saved_find (separatorForKey : Str → Str) (r : SavedResponse) {key : Str}
    (hstatus : key ≠ ":status".toList) :
    (addFields separatorForKey r.fields (Http2HeaderBlock.set ∅ ":status" r.status)).find key =
      combined (separatorForKey key) (r.values key) := by
  apply addFields_find
  rw [Http2HeaderBlock.find_set_ne _ _ hstatus]
  exact Http2HeaderBlock.find_empty key

theorem readContents_saved (separatorForKey : Str → Str) (fileName base : Str) (r : SavedResponse) :
    SavedFile separatorForKey r (opened fileName base)
      (readContents separatorForKey (some r.encode) (opened fileName base)) := by
  have hstart : r.encode.head? ≠ some '\n' := by
    simp [SavedResponse.encode, statusLine]
  obtain ⟨es, hquiet, hread⟩ := readContents_accepted separatorForKey hstart (scanned_encode r)
    (by simp) (opened fileName base)
  obtain ⟨w, hw⟩ : ∃ w, w = record es (scanned separatorForKey r (opened fileName base)) := ⟨_, rfl⟩
  have hblock : w.spdyHeaders =
      addFields separatorForKey r.fields (Http2HeaderBlock.set ∅ ":status" r.status) := by
    rw [hw]
    change linesHeaders separatorForKey r.lines (opened fileName base).spdyHeaders = _
    rw [opened_headers, lines_headers]
  have hopened : ∀ e ∈ (scanned separatorForKey r (opened fileName base)).trace,
      e.inBounds = true ∧ e.isReport = false := opened_quiet fileName base
  obtain ⟨hbody, hheaders, -⟩ := finishHeaders_resplit w
  have hfinish : readContents separatorForKey (some r.encode) (opened fileName base) =
      w.finishHeaders := hw ▸ hread
  rw [hfinish]
  refine ⟨hheaders.trans (congrArg (Http2HeaderBlock.erase · "connection") hblock), ?_, ?_, ?_⟩
  · rw [hbody, hw]
    rfl
  · rw [hw]
    exact fun e he => (accepted_events hquiet hopened e he).1
  · intro hurl
    have hnone : (w.spdyHeaders.erase "connection").find "x-original-url" = none := by
      rw [Http2HeaderBlock.find_erase_ne _ (by decide), hblock, saved_find _ _ (by decide), hurl]
      rfl
    have hplain : w.finishHeaders = { w with spdyHeaders := w.spdyHeaders.erase "connection" } := by
      unfold finishHeaders
      dsimp only
      rw [hnone]
    rw [hplain, hw]
    exact ⟨rfl, rfl⟩

/-- A file without `X-Original-Url` is stored under its name below the directory. -/
theorem saved_key {u : FileUtils} {cacheDirectory fileName : Str} {r : SavedResponse}
    (contents : u.readFileContents fileName = some r.encode)
    (name : fileBase cacheDirectory fileName = indexKey) (url : r.values "x-original-url" = []) :
    (added u cacheDirectory fileName).key = indexKey := by
  have hsaved := readContents_saved u.separatorForKey fileName (fileBase cacheDirectory fileName) r
  obtain ⟨hhost, hpath⟩ := hsaved.unmoved url
  have hfile : resourceFile u cacheDirectory fileName = readContents u.separatorForKey
      (some r.encode) (opened fileName (fileBase cacheDirectory fileName)) := by
    unfold resourceFile
    rw [contents]
  change getKey (resourceFile u cacheDirectory fileName).host
    (resourceFile u cacheDirectory fileName).path = indexKey
  rw [hfile, hhost, hpath, name]
  rfl

theorem saved_defined {u : FileUtils} {cacheDirectory fileName : Str} {r : SavedResponse}
    (contents : u.readFileContents fileName = some r.encode) :
    defined u cacheDirectory fileName = true := by
  unfold defined resourceFile
  rw [contents, List.all_eq_true]
  exact (readContents_saved u.separatorForKey fileName _ r).bounds

theorem resourceFile_decodes {u : FileUtils} {cacheDirectory fileName : Str} {r : SavedResponse}
    (contents : u.readFileContents fileName = some r.encode) :
    Decodes u.separatorForKey r (resourceFile u cacheDirectory fileName) := by
  have hsaved := readContents_saved u.separatorForKey fileName (fileBase cacheDirectory fileName) r
  unfold resourceFile
  rw [contents]
  refine ⟨?_, ?_, fun key hstatus hconnection => ?_, hsaved.body⟩
  · rw [hsaved.headers, Http2HeaderBlock.find_erase_ne _ (by decide), addFields_status,
      Http2HeaderBlock.find_set]
  · rw [hsaved.headers, Http2HeaderBlock.find_erase]
  · rw [hsaved.headers, Http2HeaderBlock.find_erase_ne _ hconnection, saved_find _ _ hstatus]

def indexFile (cacheDirectory : Str) : Str := cacheDirectory ++ "/local2/index.html".toList

/-- A directory with one saved response. -/
def savedDirectory (cacheDirectory : Str) : FileUtils where
  readFileContents _ := some mixedEndings.encode
  enumerateDirectoryRecursively _ := some [indexFile cacheDirectory]
  separatorForKey := quicheSeparator

theorem savedDirectory_key {cacheDirectory : Str}
    (name : fileBase cacheDirectory (indexFile cacheDirectory) = indexKey) :
    (added (savedDirectory cacheDirectory) cacheDirectory (indexFile cacheDirectory)).key = indexKey :=
  saved_key (r := mixedEndings) rfl name (by decide)

theorem savedDirectory_loads (cacheDirectory : Str) (hne : cacheDirectory ≠ []) :
    initializeBackend (savedDirectory cacheDirectory) cacheDirectory (new none none) = some (true,
      addAll (new none none)
        [added (savedDirectory cacheDirectory) cacheDirectory (indexFile cacheDirectory)]) := by
  rw [initializeBackend_listed (new none none) hne rfl, List.all_cons,
    saved_defined (r := mixedEndings) rfl]
  rfl

end QuailServer.SavedFiles
