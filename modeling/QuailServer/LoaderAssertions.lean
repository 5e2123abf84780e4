import QuailServer.HeaderLines
import QuailServer.HostPath
import QuailServer.RejectedFiles

set_option autoImplicit false

namespace QuailServer.LoaderAssertions
open HeaderBlock ServerBackend QuailServerBackend ResourceReader ResourceFile FileScan SavedFormat
open SavedResponses HeaderLines BackendDirectory StoreInvariant RejectedFiles StepMachine

def StartsWithHost (text : Str) : Prop := text ≠ [] ∧ text.head? ≠ some '/'

/-- The bases that a file was split by, in order. -/
def bases (f : ResourceFile) : List Str :=
  f.trace.filterMap fun
    | .setHostPathFromBase base => some base
    | _ => none

structure FileAsserts (u : FileUtils) (cacheDirectory fileName : Str) : Prop where
  bases : ∀ base ∈ bases (resourceFile u cacheDirectory fileName), StartsWithHost base
  host : defined u cacheDirectory fileName = true → (added u cacheDirectory fileName).host ≠ []

/-- Every file that `InitializeBackend` reaches meets the assertions. -/
def LoaderAsserts (u : FileUtils) (cacheDirectory : Str) (b : QuailServerBackend) : Prop :=
  Each (addStep u cacheDirectory)
    (fun s fileName => s.isSome = true → FileAsserts u cacheDirectory fileName)
    (some b) (listing u cacheDirectory)

structure RelativeName where
  text : Str
  ne_nil : text ≠ []
  relative : text.head? ≠ some '/'

/-- `quiche::JoinPath` puts one slash between a directory and a name. -/
structure JoinsWithSlash (joinPath : Str → Str → Str) : Prop where
  slash : ∀ directory name, directory.getLast? = some '/' → name ≠ [] →
    joinPath directory name = directory ++ name
  plain : ∀ directory name, directory ≠ [] → directory.getLast? ≠ some '/' → name ≠ [] →
    joinPath directory name = directory ++ '/' :: name

theorem joinPathImpl_joins : JoinsWithSlash joinPathImpl where
  slash directory name hlast hname := by
    have hdir : directory ≠ [] := by
      rintro rfl
      cases hlast
    have hstrip : stripSuffix '/' directory ++ ['/'] = directory := by
      unfold stripSuffix
      rw [if_pos hlast]
      exact List.dropLast_append_getLast? '/' hlast
    unfold joinPathImpl
    rw [if_neg (by simpa using hdir), if_neg (by simpa using hname), ← List.singleton_append,
      ← List.append_assoc, hstrip]
  plain directory name hdir hlast hname := by
    have hstrip : stripSuffix '/' directory = directory := if_neg hlast
    unfold joinPathImpl
    rw [if_neg (by simpa using hdir), if_neg (by simpa using hname), hstrip]

/-- A name that starts with a backslash is cut once, and only after a directory that ends in a
    slash. -/
def NameKeepsHost (cacheDirectory : Str) (name : RelativeName) : Prop :=
  name.text.head? ≠ some '\\' ∨ cacheDirectory.getLast? = some '/' ∧
    ∃ c rest, name.text = '\\' :: c :: rest ∧ c ≠ '/' ∧ c ≠ '\\'

structure UrlHasHost (url : Str) : Prop where
  bare : StartsWithHost url
  http : ∀ rest : Str, url = "http://".toList ++ rest → StartsWithHost rest
  https : ∀ rest : Str, url = "https://".toList ++ rest → StartsWithHost rest

/-- The file is accepted, and this is what it has under `X-Original-Url`. -/
def OriginalUrl (separatorForKey : Str → Str) (contents : Option Str) (url : Str) : Prop :=
  ∃ p : SavedParse, p.WellFormed ∧ contents = some p.text ∧
    combined (separatorForKey "x-original-url") (fieldValues p.lines "x-original-url") = some url

def slashes (text : Str) : Str := text.map fun c => if c = '\\' then '/' else c

theorem slashes_startsWithHost (text : Str) :
    StartsWithHost (slashes text) ↔ StartsWithHost text ∧ text.head? ≠ some '\\' := by
  cases text with
  | nil => exact iff_of_false (fun h => h.1 rfl) fun h => h.1.1 rfl
  | cons c text =>
    by_cases hc : c = '\\'
    · subst hc
      exact iff_of_false (fun h => h.2 rfl) fun h => h.2 rfl
    · simp [StartsWithHost, slashes, hc]

theorem fileBase_plain {joinPath : Str → Str → Str} (hjoin : JoinsWithSlash joinPath)
    {cacheDirectory : Str} (hdir : cacheDirectory ≠ []) (hlast : cacheDirectory.getLast? ≠ some '/')
    (name : RelativeName) :
    fileBase cacheDirectory (joinPath cacheDirectory name.text) = slashes name.text := by
  have hdrop : (slashes (cacheDirectory ++ '/' :: name.text)).drop cacheDirectory.length =
      '/' :: slashes name.text := by
    unfold slashes
    rw [← List.map_drop, List.drop_left]
    rfl
  rw [hjoin.plain _ _ hdir hlast name.ne_nil]
  unfold fileBase
  dsimp only
  unfold slashes at hdrop
  rw [hdrop]
  exact if_pos rfl

theorem fileBase_slash {joinPath : Str → Str → Str} (hjoin : JoinsWithSlash joinPath)
    {cacheDirectory : Str} (hlast : cacheDirectory.getLast? = some '/') (name : RelativeName) :
    fileBase cacheDirectory (joinPath cacheDirectory name.text) =
      if name.text.head? = some '\\' then slashes (name.text.drop 1) else slashes name.text := by
  have hdrop : (slashes (cacheDirectory ++ name.text)).drop cacheDirectory.length =
      slashes name.text := by
    unfold slashes
    rw [← List.map_drop, List.drop_left]
  have hhead : (slashes name.text).head? = some '/' ↔ name.text.head? = some '\\' := by
    obtain ⟨text, hne, hrelative⟩ := name
    cases text with
    | nil => exact absurd rfl hne
    | cons c text =>
      have hc : c ≠ '/' := fun h => hrelative (congrArg some h)
      by_cases hback : c = '\\' <;> simp [slashes, hback, hc]
  rw [hjoin.slash _ _ hlast name.ne_nil]
  unfold fileBase
  dsimp only
  unfold slashes at hdrop hhead ⊢
  rw [hdrop]
  by_cases hback : name.text.head? = some '\\'
  · rw [if_pos (hhead.mpr hback), if_pos hback, List.map_drop]
  · rw [if_neg fun h => hback (hhead.mp h), if_neg hback]

theorem fileBase_startsWithHost {joinPath : Str → Str → Str} (hjoin : JoinsWithSlash joinPath)
    {cacheDirectory : Str} (hdir : cacheDirectory ≠ []) (name : RelativeName) :
    StartsWithHost (fileBase cacheDirectory (joinPath cacheDirectory name.text)) ↔
      NameKeepsHost cacheDirectory name := by
  have hname : StartsWithHost name.text := ⟨name.ne_nil, name.relative⟩
  by_cases hlast : cacheDirectory.getLast? = some '/'
  · rw [fileBase_slash hjoin hlast]
    by_cases hback : name.text.head? = some '\\'
    · obtain ⟨rest, hrest⟩ := List.head?_eq_some_iff.mp hback
      rw [if_pos hback, slashes_startsWithHost]
      unfold NameKeepsHost
      rw [or_iff_right (not_not.mpr hback), and_iff_right hlast, hrest]
      cases rest with
      | nil => exact iff_of_false (fun h => h.1.1 rfl) nofun
      | cons c rest => simp [StartsWithHost]
    · rw [if_neg hback, slashes_startsWithHost]
      exact iff_of_true ⟨hname, hback⟩ (Or.inl hback)
  · rw [fileBase_plain hjoin hdir hlast, slashes_startsWithHost, and_iff_right hname]
    exact ⟨Or.inl, fun h => h.resolve_right fun h => hlast h.1⟩

def hostOf (base : Str) : Str := base.takeWhile fun c => c != '/'

theorem hostOf_ne_nil_iff (base : Str) : hostOf base ≠ [] ↔ StartsWithHost base := by
  cases base with
  | nil => exact iff_of_false (fun h => h rfl) fun h => h.1 rfl
  | cons c base => by_cases hc : c = '/' <;> simp [hostOf, StartsWithHost, hc]

theorem setHostPathFromBase_split (base : Str) (f : ResourceFile) :
    bases (f.setHostPathFromBase base) = bases f ++ [base] ∧
      (f.setHostPathFromBase base).host = hostOf base := by
  by_cases hslash : '/' ∈ base
  · obtain ⟨host, path, rfl, hhost⟩ := List.eq_append_cons_of_mem hslash
    have hof : hostOf (host ++ '/' :: path) = host :=
      TextSearch.takeWhile_append hhost (Or.inr rfl)
    rw [hof]
    unfold setHostPathFromBase
    rw [TextSearch.idxOf?_append_cons hhost]
    have htake : (host ++ '/' :: path).take host.length = host := List.take_left
    match (host ++ '/' :: path).idxOf? ',' with
    | none => exact ⟨by simp [bases, emit], htake⟩
    | some 0 => exact ⟨by simp [bases, emit], htake⟩
    | some (_ + 1) => exact ⟨by simp [bases, emit], htake⟩
  · have hof : hostOf base = base := by
      have h : hostOf (base ++ []) = base := TextSearch.takeWhile_append hslash (Or.inl rfl)
      rwa [List.append_nil] at h
    obtain ⟨hhost, -⟩ := HostPath.split_bare hslash f
    rw [hof]
    refine ⟨?_, hhost⟩
    unfold setHostPathFromBase
    rw [List.idxOf?_eq_none_iff.mpr hslash]
    simp [bases, emit]

theorem opened_split (fileName base : Str) :
    bases (opened fileName base) = [base] ∧ (opened fileName base).host = hostOf base :=
  setHostPathFromBase_split base (ResourceFile.new fileName)

theorem bases_record {es : List FileEvent} (hes : ∀ e ∈ es, ∀ base, e ≠ .setHostPathFromBase base)
    (f : ResourceFile) : bases (record es f) = bases f := by
  have hnone : es.filterMap (fun
      | .setHostPathFromBase base => some base
      | _ => none) = ([] : List Str) := by
    refine List.filterMap_eq_nil_iff.mpr fun e he => ?_
    cases e with
    | setHostPathFromBase base => exact absurd rfl (hes _ he base)
    | _ => rfl
  unfold bases record
  rw [List.filterMap_append, hnone, List.append_nil]

theorem finishHeaders_split {f : ResourceFile} {url : Option Str}
    (h : f.spdyHeaders.find "x-original-url" = url) :
    bases f.finishHeaders = bases f ++ (url.map removeScheme).toList ∧
      f.finishHeaders.host = (url.map fun url => hostOf (removeScheme url)).getD f.host := by
  have hne : "x-original-url".toList ≠ "connection".toList := by decide
  rw [← Http2HeaderBlock.find_erase_ne _ hne] at h
  unfold finishHeaders
  dsimp only
  rw [h]
  cases url with
  | none => exact ⟨(List.append_nil _).symm, rfl⟩
  | some url => exact setHostPathFromBase_split (removeScheme url) _

theorem originalUrl_text {separatorForKey : Str → Str} {p : SavedParse} (hp : p.WellFormed)
    (url : Str) : OriginalUrl separatorForKey (some p.text) url ↔
      combined (separatorForKey "x-original-url") (fieldValues p.lines "x-original-url") =
        some url := by
  refine ⟨?_, fun h => ⟨p, hp, rfl, h⟩⟩
  rintro ⟨p', hp', htext, hurl⟩
  rwa [parse_unique hp hp' (Option.some.inj htext)]

/-- The file is split by its name, and by its original URL when it is accepted and has one. -/
theorem read_splits (u : FileUtils) (cacheDirectory fileName : Str) :
    ((∀ url, ¬ OriginalUrl u.separatorForKey (u.readFileContents fileName) url) ∧
      bases (resourceFile u cacheDirectory fileName) = [fileBase cacheDirectory fileName] ∧
      (resourceFile u cacheDirectory fileName).host =
        hostOf (fileBase cacheDirectory fileName)) ∨
    ∃ url, OriginalUrl u.separatorForKey (u.readFileContents fileName) url ∧
      bases (resourceFile u cacheDirectory fileName) =
        [fileBase cacheDirectory fileName, removeScheme url] ∧
      (resourceFile u cacheDirectory fileName).host = hostOf (removeScheme url) := by
  obtain ⟨hbases, hhost⟩ := opened_split fileName (fileBase cacheDirectory fileName)
  have hbody := opened_body fileName (fileBase cacheDirectory fileName)
  cases hcontents : u.readFileContents fileName with
  | none =>
    left
    rw [resourceFile_eq hcontents]
    refine ⟨?_, ?_, hhost⟩
    · rintro url ⟨p, -, htext, -⟩
      cases htext
    · have hreport : ∀ e ∈ [FileEvent.failedToRead], ∀ base, e ≠ .setHostPathFromBase base := by
        simp
      rw [← hbases]
      exact bases_record hreport _
  | some contents =>
    rw [resourceFile_eq hcontents]
    by_cases hstart : contents.head? = some '\n'
    · -- No header line is read, and the run ends there.
      obtain ⟨rest, rfl⟩ := List.head?_eq_some_iff.mp hstart
      left
      rw [readContents_newline]
      refine ⟨?_, ?_, hhost⟩
      · rintro url ⟨p, hp, htext, hurl⟩
        have hlines : p.lines = [] := by
          by_contra hne
          exact text_start hp hne (by rw [← Option.some.inj htext]; rfl)
        rw [hlines] at hurl
        cases hurl
      · rw [← hbases]
        exact bases_record (by simp) _
    · rcases readContents_cases u.separatorForKey hstart hbody with
        ⟨p, hp, htext, es, hes, hread⟩ | ⟨hnone, lines, es, hes, hread⟩
      · have hnew : (opened fileName (fileBase cacheDirectory fileName)).spdyHeaders.find
            "x-original-url" = none := by
          rw [opened_headers]
          exact Http2HeaderBlock.find_empty _
        have hurl := linesHeaders_find u.separatorForKey p.lines
          (show "x-original-url".toList ≠ ":status".toList by decide) hnew
        obtain ⟨g, hg, hgbases, hghost, hgurl⟩ : ∃ g, readContents u.separatorForKey (some contents)
            (opened fileName (fileBase cacheDirectory fileName)) = finishHeaders g ∧
              bases g = [fileBase cacheDirectory fileName] ∧
              g.host = hostOf (fileBase cacheDirectory fileName) ∧
              g.spdyHeaders.find "x-original-url" = combined (u.separatorForKey "x-original-url")
                (fieldValues p.lines "x-original-url") :=
          ⟨_, hread, (bases_record (fun e he => (hes e he).2.2) _).trans hbases, hhost, hurl⟩
        obtain ⟨hsplit, hsplitHost⟩ := finishHeaders_split hgurl
        rw [hg, hsplit, hsplitHost, hgbases, hghost]
        cases hvalue : combined (u.separatorForKey "x-original-url")
            (fieldValues p.lines "x-original-url") with
        | none =>
          refine Or.inl ⟨fun url hurl' => ?_, rfl, rfl⟩
          rw [← htext, originalUrl_text hp, hvalue] at hurl'
          cases hurl'
        | some url =>
          refine Or.inr ⟨url, ?_, rfl, rfl⟩
          rw [← htext]
          exact (originalUrl_text hp url).mpr hvalue
      · left
        rw [hread]
        refine ⟨?_, ?_, hhost⟩
        · rintro url ⟨p, hp, htext, -⟩
          exact hnone p hp (Option.some.inj htext).symm
        · rw [← hbases]
          refine bases_record ?_ _
          simp only [List.mem_append, List.mem_singleton]
          rintro e (he | rfl)
          · exact (hes e he).2.2
          · nofun

theorem originalUrl_unique {separatorForKey : Str → Str} {contents : Option Str} {url url' : Str}
    (h : OriginalUrl separatorForKey contents url)
    (h' : OriginalUrl separatorForKey contents url') : url = url' := by
  obtain ⟨p, hp, rfl, hurl⟩ := h
  rw [originalUrl_text hp, hurl] at h'
  exact Option.some.inj h'

theorem urlHasHost_iff (url : Str) : UrlHasHost url ↔ StartsWithHost (removeScheme url) := by
  by_cases hhttps : "https://".toList <+: url
  · obtain ⟨rest, rfl⟩ := hhttps
    rw [HostPath.removeScheme_https]
    refine ⟨fun h => h.https rest rfl, fun h => ⟨⟨nofun, nofun⟩, nofun, fun rest' heq => ?_⟩⟩
    rwa [← List.append_cancel_left heq]
  · by_cases hhttp : "http://".toList <+: url
    · obtain ⟨rest, rfl⟩ := hhttp
      rw [HostPath.removeScheme_http]
      refine ⟨fun h => h.http rest rfl, fun h => ⟨⟨nofun, nofun⟩, fun rest' heq => ?_, ?_⟩⟩
      · rwa [← List.append_cancel_left heq]
      · intro rest' heq
        exact absurd ⟨rest', heq.symm⟩ hhttps
    · rw [HostPath.removeScheme_of_not (not_or.mpr ⟨hhttps, hhttp⟩)]
      refine ⟨UrlHasHost.bare, fun h => ⟨h, ?_, ?_⟩⟩
      · rintro rest rfl
        exact absurd (List.prefix_append _ _) hhttp
      · rintro rest rfl
        exact absurd (List.prefix_append _ _) hhttps

theorem fileAsserts_iff (u : FileUtils) (cacheDirectory fileName : Str) :
    FileAsserts u cacheDirectory fileName ↔ StartsWithHost (fileBase cacheDirectory fileName) ∧
      ∀ url, OriginalUrl u.separatorForKey (u.readFileContents fileName) url → UrlHasHost url := by
  rcases read_splits u cacheDirectory fileName with
    ⟨hnone, hbases, hhost⟩ | ⟨url, hurl, hbases, hhost⟩
  · rw [and_iff_left fun url h => absurd h (hnone url)]
    constructor
    · intro h
      exact h.bases _ (by rw [hbases]; exact List.mem_cons_self)
    · intro h
      refine ⟨?_, fun _ => ?_⟩
      · rw [hbases]
        exact List.forall_mem_singleton.mpr h
      · change (resourceFile u cacheDirectory fileName).host ≠ []
        rw [hhost]
        exact (hostOf_ne_nil_iff _).mpr h
  · constructor
    · rintro ⟨h, -⟩
      rw [hbases] at h
      obtain ⟨hname, h⟩ := List.forall_mem_cons.mp h
      refine ⟨hname, fun url' hurl' => ?_⟩
      rw [originalUrl_unique hurl' hurl]
      exact (urlHasHost_iff url).mpr (List.forall_mem_singleton.mp h)
    · rintro ⟨hname, h⟩
      have hhas := (urlHasHost_iff url).mp (h url hurl)
      refine ⟨?_, fun _ => ?_⟩
      · rw [hbases]
        exact List.forall_mem_cons.mpr ⟨hname, List.forall_mem_singleton.mpr hhas⟩
      · change (resourceFile u cacheDirectory fileName).host ≠ []
        rw [hhost]
        exact (hostOf_ne_nil_iff _).mpr hhas

/-- The assertions hold in a run over a directory exactly when, for each file that is reached, the
    name does not start with a backslash, or is cut after it, and the original URL, if there is one,
    has a host. -/
theorem loader_asserts_iff (u : FileUtils) {joinPath : Str → Str → Str}
    (hjoin : JoinsWithSlash joinPath) {cacheDirectory : Str} (hdir : cacheDirectory ≠ [])
    (names : List RelativeName) (b : QuailServerBackend) :
    LoaderAsserts (u.withListing fun _ =>
        some (names.map fun name => joinPath cacheDirectory name.text)) cacheDirectory b ↔
      Each (fun s name => addStep u cacheDirectory s (joinPath cacheDirectory name.text))
        (fun s name => s.isSome = true → NameKeepsHost cacheDirectory name ∧
          ∀ url, OriginalUrl u.separatorForKey
            (u.readFileContents (joinPath cacheDirectory name.text)) url → UrlHasHost url)
        (some b) names := by
  have hlisting : listing (u.withListing fun _ =>
      some (names.map fun name => joinPath cacheDirectory name.text)) cacheDirectory =
        names.map fun name => joinPath cacheDirectory name.text :=
    if_neg (by simpa using hdir)
  unfold LoaderAsserts
  rw [hlisting]
  refine (each_map _).trans (Each.congr fun s name => ?_)
  refine imp_congr_right fun _ => (fileAsserts_iff _ _ _).trans (and_congr_left fun _ => ?_)
  exact fileBase_startsWithHost hjoin hdir name

def oneFile (line : Str) : FileUtils where
  readFileContents _ := some (twoLines line).text
  enumerateDirectoryRecursively _ := none
  separatorForKey := quicheSeparator

theorem loader_asserts_windows : LoaderAsserts ((oneFile "X-Original-Url: http://a.org/i").withListing
    fun _ => some ([⟨"b.org\\x".toList, by decide, by decide⟩].map fun name : RelativeName =>
      joinPathImpl "/d".toList name.text)) "/d".toList (new none none) := by
  have hp : (twoLines "X-Original-Url: http://a.org/i".toList).WellFormed :=
    twoLines_wellFormed (by decide) (by decide) (Or.inr ⟨by decide, by decide⟩)
  refine (loader_asserts_iff (oneFile "X-Original-Url: http://a.org/i") joinPathImpl_joins (by decide)
    _ _).mpr ⟨fun _ => ⟨Or.inl (by decide), fun url hurl => ?_⟩, trivial⟩
  have hvalue := (originalUrl_text hp url).mp hurl
  have heq : "http://a.org/i".toList = url := Option.some.inj hvalue
  rw [← heq, urlHasHost_iff]
  exact ⟨by decide, by decide⟩

theorem loader_asserts_fail :
    bases (resourceFile (oneFile "Server: a") "/d".toList "/d/\\x".toList) = ["/x".toList] ∧
      ¬ LoaderAsserts ((oneFile "Server: a").withListing fun _ => some ["/d/\\x".toList])
        "/d".toList (new none none) ∧
      bases (resourceFile (oneFile "X-Original-Url: http://") "/d".toList "/d/b.org/x".toList) =
        ["b.org/x".toList, []] ∧
      ¬ LoaderAsserts ((oneFile "X-Original-Url: http://").withListing fun _ =>
        some ["/d/b.org/x".toList]) "/d".toList (new none none) := by
  have hname : bases (resourceFile (oneFile "Server: a") "/d".toList "/d/\\x".toList) =
      ["/x".toList] := by
    have hp : (twoLines "Server: a".toList).WellFormed :=
      twoLines_wellFormed (by decide) (by decide) (Or.inr ⟨by decide, by decide⟩)
    rcases read_splits (oneFile "Server: a") "/d".toList "/d/\\x".toList with h | ⟨url, hurl, -⟩
    · exact h.2.1
    · exact absurd ((originalUrl_text hp url).mp hurl) nofun
  have hurl : bases (resourceFile (oneFile "X-Original-Url: http://") "/d".toList
      "/d/b.org/x".toList) = ["b.org/x".toList, []] := by
    have hp : (twoLines "X-Original-Url: http://".toList).WellFormed :=
      twoLines_wellFormed (by decide) (by decide) (Or.inr ⟨by decide, by decide⟩)
    rcases read_splits (oneFile "X-Original-Url: http://") "/d".toList "/d/b.org/x".toList with
      ⟨hnone, -⟩ | ⟨url, hurl, hbases, -⟩
    · exact absurd ((originalUrl_text hp _).mpr rfl) (hnone "http://".toList)
    · obtain rfl : "http://".toList = url := Option.some.inj ((originalUrl_text hp url).mp hurl)
      exact hbases
  refine ⟨hname, fun h => ?_, hurl, fun h => ?_⟩
  · have hasserts := (h.1 rfl).bases "/x".toList
    exact (hasserts (by change _ ∈ bases (resourceFile (oneFile _) _ _); rw [hname]; decide)).2 rfl
  · have hasserts := (h.1 rfl).bases []
    exact (hasserts (by change _ ∈ bases (resourceFile (oneFile _) _ _); rw [hurl]; decide)).1 rfl

end QuailServer.LoaderAssertions
