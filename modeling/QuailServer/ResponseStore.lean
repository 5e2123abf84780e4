import QuailServer.ServerBackend

set_option autoImplicit false

namespace QuailServer.ResponseStore
open HeaderBlock WebTransport ServerStream ServerBackend QuailServerBackend

structure Added where
  host : Str
  path : Str
  responseHeaders : Http2HeaderBlock
  responseBody : Str

def Added.key (a : Added) : Str := getKey a.host a.path

def Added.response (a : Added) : QuicBackendResponse :=
  { QuicBackendResponse.new with headers := a.responseHeaders, body := a.responseBody }

def addAll (b : QuailServerBackend) (adds : List Added) : QuailServerBackend :=
  adds.foldl (fun b a => b.addResponse a.host a.path a.responseHeaders a.responseBody) b

def writes (adds : List Added) : List (Str × QuicBackendResponse) :=
  adds.map fun a => (a.key, a.response)

def namesLength (q : Platform) : Str → Bool
  | [] => false
  | _ :: digits => (q.simpleAtoi digits).1

/-- The pointer that a lookup is meant to return. -/
def intendedPointer (q : Platform) (g d : Option QuicBackendResponse) (adds : List Added)
    (host path : Str) : ResponsePointer :=
  if (adds.any fun a => a.key = getKey host path) then .entry (getKey host path)
  else if g.isSome && namesLength q path then .generateBytes
  else if d.isSome then .default
  else .nullptr

/-- The response that a request is meant to get: that of the first call with its key, else a
    fallback. -/
def intendedResponse (q : Platform) (g d : Option QuicBackendResponse) (adds : List Added)
    (host path : Str) : Option QuicBackendResponse :=
  match adds.find? fun a => a.key = getKey host path with
  | some a => some a.response
  | none => if g.isSome && namesLength q path then g else d

/-- A lookup returns the stored response, never the entry of another key, and a fetch for the same
    authority and path hands it to the stream. -/
structure AnswersLookup (q : Platform) (g d : Option QuicBackendResponse) (adds : List Added)
    (host path : Str) : Prop where
  lookup : (addAll (new g d) adds).getResponse q host path = some (intendedPointer q g d adds host path)
  own : ∀ key, (addAll (new g d) adds).getResponse q host path = some (.entry key) →
    key = getKey host path
  fetch : ∀ (headers : Http2HeaderBlock) (body : Str), headers.find ":authority" = some host →
    headers.find ":path" = some path →
    (addAll (new g d) adds).fetchResponseFromBackend q headers body =
      some (.onResponseBackendComplete (intendedResponse q g d adds host path))

theorem addAll_eq (b : QuailServerBackend) (adds : List Added) :
    addAll b adds = { b with
      responses := (writes adds).foldl (fun m w => FirstWrite.insertNew m w.1 w.2) b.responses } := by
  induction adds generalizing b with
  | nil => rfl
  | cons a adds ih => exact ih (b.addResponse a.host a.path a.responseHeaders a.responseBody)

theorem addAll_responses (adds : List Added) (g d : Option QuicBackendResponse) :
    (addAll (new g d) adds).responses = FirstWrite.ofWrites (writes adds) :=
  congrArg QuailServerBackend.responses (addAll_eq (new g d) adds)

theorem firstWrite_writes (adds : List Added) (key : Str) :
    FirstWrite.firstWrite (writes adds) key =
      (adds.find? fun a => a.key = key).map Added.response := by
  unfold FirstWrite.firstWrite writes
  rw [List.find?_map, Option.map_map]
  rfl

theorem addAll_lookup_key (adds : List Added) (g d : Option QuicBackendResponse) (key : Str) :
    (addAll (new g d) adds).responses.lookup key =
      (adds.find? fun a => a.key = key).map Added.response := by
  rw [addAll_responses, FirstWrite.lookup_ofWrites, firstWrite_writes]

theorem mem_responses (g d : Option QuicBackendResponse) (adds : List Added) (key : Str) :
    key ∈ (addAll (new g d) adds).responses ↔ ∃ a ∈ adds, a.key = key := by
  rw [addAll_responses, ← Finmap.lookup_isSome, FirstWrite.lookup_ofWrites,
    FirstWrite.firstWrite_isSome]
  simp [writes]

/-- Off the entries a lookup is answered with the fallback, unless the path is empty and there are
    generated responses. -/
theorem addAll_missing (q : Platform) (adds : List Added) (g d : Option QuicBackendResponse)
    (path : Str) : (addAll (new g d) adds).missing q path =
      if g.isSome = true ∧ path = [] then none
      else some (if g.isSome && namesLength q path then .generateBytes
        else if d.isSome then .default else .nullptr) := by
  rw [addAll_eq]
  unfold missing new namesLength
  cases g with
  | none => simp
  | some response =>
    cases path with
    | nil => simp
    | cons c digits => simp

theorem getResponse_indexed (q : Platform) {adds : List Added} (g d : Option QuicBackendResponse)
    (host path : Str) (h : ∃ a ∈ adds, a.key = indexKey) :
    (addAll (new g d) adds).getResponse q host path = some (.entry indexKey) :=
  if_pos ((mem_responses g d adds indexKey).mpr h)

theorem getResponse_missing (q : Platform) {adds : List Added} (g d : Option QuicBackendResponse)
    (host path : Str) (h : ¬ ∃ a ∈ adds, a.key = indexKey) :
    (addAll (new g d) adds).getResponse q host path = (addAll (new g d) adds).missing q path :=
  if_neg fun hmem => h ((mem_responses g d adds indexKey).mp hmem)

theorem intendedPointer_stored (q : Platform) {adds : List Added} (g d : Option QuicBackendResponse)
    {host path : Str} (h : ∃ a ∈ adds, a.key = getKey host path) :
    intendedPointer q g d adds host path = .entry (getKey host path) :=
  if_pos (by simpa using h)

theorem intendedPointer_missing (q : Platform) {adds : List Added} (g d : Option QuicBackendResponse)
    {host path : Str} (h : ¬ ∃ a ∈ adds, a.key = getKey host path) :
    intendedPointer q g d adds host path =
      if g.isSome && namesLength q path then .generateBytes else if d.isSome then .default else .nullptr :=
  if_neg (by simpa using h)

theorem intendedPointer_not_entry (q : Platform) {adds : List Added}
    (g d : Option QuicBackendResponse) {host path : Str} (h : ¬ ∃ a ∈ adds, a.key = getKey host path)
    (key : Str) : intendedPointer q g d adds host path ≠ .entry key := by
  rw [intendedPointer_missing q g d h]
  split_ifs <;> simp

theorem deref_intended (q : Platform) (adds : List Added) (g d : Option QuicBackendResponse)
    (host path : Str) : (addAll (new g d) adds).deref (intendedPointer q g d adds host path) =
      intendedResponse q g d adds host path := by
  have hgenerate : (addAll (new g d) adds).generateBytesResponse = g := by
    rw [addAll_eq]
    rfl
  have hdefault : (addAll (new g d) adds).defaultResponse = d := by
    rw [addAll_eq]
    rfl
  unfold intendedResponse
  by_cases hown : ∃ a ∈ adds, a.key = getKey host path
  · rw [intendedPointer_stored q g d hown]
    obtain ⟨a, hfind⟩ : ∃ a, adds.find? (fun a => a.key = getKey host path) = some a := by
      rw [← Option.isSome_iff_exists, List.find?_isSome]
      simpa using hown
    rw [hfind]
    refine (addAll_lookup_key adds g d (getKey host path)).trans ?_
    rw [hfind]
    rfl
  · have hfind : adds.find? (fun a => a.key = getKey host path) = none := by
      rw [List.find?_eq_none]
      simpa using hown
    rw [intendedPointer_missing q g d hown, hfind]
    dsimp only
    split_ifs with hbytes hdefined
    · exact hgenerate
    · exact hdefault
    · have hnone : d = none := by simpa using hdefined
      rw [hnone]
      rfl

theorem fetch_of_getResponse (q : Platform) (adds : List Added) (g d : Option QuicBackendResponse)
    {host path : Str} (hget : (addAll (new g d) adds).getResponse q host path =
      some (intendedPointer q g d adds host path))
    {headers : Http2HeaderBlock} (body : Str) (hauthority : headers.find ":authority" = some host)
    (hpath : headers.find ":path" = some path) :
    (addAll (new g d) adds).fetchResponseFromBackend q headers body =
      some (.onResponseBackendComplete (intendedResponse q g d adds host path)) := by
  unfold fetchResponseFromBackend
  rw [hauthority, hpath]
  dsimp only
  rw [hget, Option.map_some, deref_intended]

theorem getResponse_iff (q : Platform) (g d : Option QuicBackendResponse) (adds : List Added)
    (host path : Str) :
    (addAll (new g d) adds).getResponse q host path = some (intendedPointer q g d adds host path) ↔
      (getKey host path = indexKey ∧ ∃ a ∈ adds, a.key = indexKey) ∨
        (∀ a ∈ adds, a.key ≠ indexKey ∧ a.key ≠ getKey host path) ∧ (g = none ∨ path ≠ []) := by
  by_cases hindex : ∃ a ∈ adds, a.key = indexKey
  · rw [getResponse_indexed q g d host path hindex]
    have hused : ¬ ∀ a ∈ adds, a.key ≠ indexKey ∧ a.key ≠ getKey host path := by
      obtain ⟨a, ha, heq⟩ := hindex
      exact fun h => (h a ha).1 heq
    rw [or_iff_left fun h => hused h.1, and_iff_left hindex]
    by_cases hown : ∃ a ∈ adds, a.key = getKey host path
    · rw [intendedPointer_stored q g d hown]
      simp [eq_comm]
    · refine iff_of_false ?_ fun hkey => hown (hkey ▸ hindex)
      exact fun h => intendedPointer_not_entry q g d hown indexKey (Option.some.inj h).symm
  · rw [getResponse_missing q g d host path hindex, addAll_missing, or_iff_right fun h => hindex h.2]
    by_cases hown : ∃ a ∈ adds, a.key = getKey host path
    · rw [intendedPointer_stored q g d hown]
      refine iff_of_false ?_ ?_
      · split_ifs <;> simp
      · rintro ⟨h, -⟩
        obtain ⟨a, ha, heq⟩ := hown
        exact (h a ha).2 heq
    · have hunused : ∀ a ∈ adds, a.key ≠ indexKey ∧ a.key ≠ getKey host path :=
        fun a ha => ⟨fun heq => hindex ⟨a, ha, heq⟩, fun heq => hown ⟨a, ha, heq⟩⟩
      rw [intendedPointer_missing q g d hown, and_iff_right hunused]
      by_cases hundefined : g.isSome = true ∧ path = []
      · rw [if_pos hundefined]
        refine iff_of_false (by simp) ?_
        rintro (hnone | hpath)
        · simp [hnone] at hundefined
        · exact hpath hundefined.2
      · rw [if_neg hundefined]
        refine iff_of_true rfl ?_
        cases g with
        | none => exact Or.inl rfl
        | some response => exact Or.inr fun hpath => hundefined ⟨rfl, hpath⟩

/-- The store answers a lookup as it should exactly when the key of the request is the constant one
    and was stored, or neither of the two was ever stored and the fallback is defined. -/
theorem answers_lookup_iff (q : Platform) (g d : Option QuicBackendResponse) (adds : List Added)
    (host path : Str) : AnswersLookup q g d adds host path ↔
      (getKey host path = indexKey ∧ ∃ a ∈ adds, a.key = indexKey) ∨
        (∀ a ∈ adds, a.key ≠ indexKey ∧ a.key ≠ getKey host path) ∧ (g = none ∨ path ≠ []) := by
  rw [← getResponse_iff]
  refine ⟨AnswersLookup.lookup, fun hget => ⟨hget, fun key hkey => ?_, fun _ body hauthority hpath =>
    fetch_of_getResponse q adds g d hget body hauthority hpath⟩⟩
  have hpointer : intendedPointer q g d adds host path = .entry key :=
    Option.some.inj (hget.symm.trans hkey)
  by_cases hown : ∃ a ∈ adds, a.key = getKey host path
  · rw [intendedPointer_stored q g d hown] at hpointer
    exact (ResponsePointer.entry.inj hpointer).symm
  · exact absurd hpointer (intendedPointer_not_entry q g d hown key)

def homePage : Added := ⟨"www.example.com", "/", Http2HeaderBlock.set ∅ ":status" "200", "home"⟩

theorem stored_page_lost :
    (addAll (new none none) [homePage]).getResponse plainPlatform homePage.host homePage.path =
        some .nullptr ∧
      ¬ AnswersLookup plainPlatform none none [homePage] homePage.host homePage.path := by
  refine ⟨rfl, fun h => ?_⟩
  have hfound : some ResponsePointer.nullptr = some (.entry homePage.key) := h.lookup
  cases hfound

end QuailServer.ResponseStore
