import QuailServer.ServedPages

set_option autoImplicit false

namespace QuailServer.SavedPages
open HeaderBlock WebTransport SavedResponses SavedFiles BackendDirectory StoreInvariant ResponseStore
  ServerBackend QuailServerBackend RequestBody ServerStream ResponseFraming ServedPages
open QuitServerStream (errorBlock kErrorResponseBody)

theorem indexPage_saved {u : FileUtils} {cacheDirectory fileName : Str} {files : List Str}
    {r : SavedResponse} (first : (files.find? fun fileName =>
      (added u cacheDirectory fileName).key = indexKey) = some fileName)
    (contents : u.readFileContents fileName = some r.encode) :
    indexPage u cacheDirectory files = some { QuicBackendResponse.new with
      headers := (resourceFile u cacheDirectory fileName).spdyHeaders, body := r.body } := by
  have hbody : (resourceFile u cacheDirectory fileName).body = r.body := by
    unfold resourceFile
    rw [contents]
    exact (readContents_saved u.separatorForKey fileName _ r).body
  unfold indexPage
  rw [List.find?_map, Option.map_map]
  change (files.find? fun fileName => (added u cacheDirectory fileName).key = indexKey).map _ = _
  rw [first, ← hbody]
  rfl

/-- A saved response that is the first file for the key reaches the peer of every acceptable
    request with its status, its combined header values and its body. -/
theorem saved_page_served (q : Platform) (others : List Effect → List HandlerCall) (u : FileUtils)
    (cacheDirectory : Str) (files : List Str) (b : QuailServerBackend)
    (listed : u.enumerateDirectoryRecursively cacheDirectory = some files)
    (loaded : initializeBackend u cacheDirectory (new none none) = some (true, b)) (fileName : Str)
    (first : (files.find? fun fileName =>
      (added u cacheDirectory fileName).key = indexKey) = some fileName)
    (r : SavedResponse) (contents : u.readFileContents fileName = some r.encode) (id : StreamId)
    (before : List Event) (h : InitialHeaders) (later : List Event)
    (hbefore : ∀ h', .initialHeaders h' ∉ before) (hh : PlainRequest h)
    (answered : ∀ e ∈ before ++ .initialHeaders h :: later, Answered e)
    (complete : (intake (before ++ .initialHeaders h :: later)).complete = true)
    (acceptable : Acceptable h (intake (before ++ .initialHeaders h :: later)).body) :
    let f := resourceFile u cacheDirectory fileName
    let trace := (run q (storeBackend q others b) id (before ++ .initialHeaders h :: later)).trace
    Decodes u.separatorForKey r f ∧
      Sends (if q.parseHeaderStatusCode f.spdyHeaders = none then
          ⟨errorBlock 0, kErrorResponseBody, none, false⟩
        else ⟨f.spdyHeaders, r.body, none, false⟩) (frames trace) := by
  have hsent := served_when_acceptable q others listed loaded id hbefore hh answered complete acceptable
  rw [indexPage_saved first contents] at hsent
  exact ⟨resourceFile_decodes contents, hsent⟩

theorem saved_page_served_post : ∃ b,
    initializeBackend (savedDirectory "/d".toList) "/d".toList (new none none) = some (true, b) ∧
    Sends (if plainPlatform.parseHeaderStatusCode (resourceFile (savedDirectory "/d".toList) "/d".toList
          (indexFile "/d".toList)).spdyHeaders = none then
        ⟨errorBlock 0, kErrorResponseBody, none, false⟩
      else ⟨(resourceFile (savedDirectory "/d".toList) "/d".toList (indexFile "/d".toList)).spdyHeaders,
        "b: c\n".toList, none, false⟩)
      (frames (run plainPlatform (storeBackend plainPlatform (fun _ => []) b) 0
        ([] ++ .initialHeaders postHeaders :: [.bodyAvailable ⟨["a", "b"], true⟩, .canWrite])).trace) := by
  have hloaded := savedDirectory_loads "/d".toList (by decide)
  have hfirst : ([indexFile "/d".toList].find? fun fileName =>
      (added (savedDirectory "/d".toList) "/d".toList fileName).key = indexKey) =
        some (indexFile "/d".toList) :=
    List.find?_cons_of_pos (decide_eq_true (savedDirectory_key (by decide)))
  have hpost : PlainRequest postHeaders := ⟨⟨rfl, rfl⟩, by decide⟩
  exact ⟨_, hloaded, (saved_page_served plainPlatform (fun _ => []) (savedDirectory "/d".toList)
    "/d".toList _ _ rfl hloaded _ hfirst mixedEndings rfl 0 [] postHeaders
    [.bodyAvailable ⟨["a", "b"], true⟩, .canWrite] (by simp) hpost (by simp [Answered]) rfl
    ⟨by decide, by decide, Or.inr rfl⟩).2⟩

end QuailServer.SavedPages
