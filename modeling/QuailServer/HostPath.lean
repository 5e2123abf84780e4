import Mathlib.Data.List.TakeWhile
import QuailServer.ResourceReader

set_option autoImplicit false

namespace QuailServer.HostPath
open HeaderBlock ResourceReader ResourceFile

def HasScheme (url : Str) : Prop := "https://".toList <+: url ∨ "http://".toList <+: url

/-- What the split of `h ++ r` is for: the host before the path, the path without what follows a
    comma, and the same result with either scheme in front. -/
structure HostPathSplit (f : ResourceFile) (h r : Str) : Prop where
  host : (f.setHostPathFromBase (h ++ r)).host = h
  path : (f.setHostPathFromBase (h ++ r)).path = r.takeWhile fun c => c != ','
  schemes : ¬ HasScheme (h ++ r) →
    ∀ url ∈ [h ++ r, "http://".toList ++ (h ++ r), "https://".toList ++ (h ++ r)],
      (handleXOriginalUrl { f with xOriginalUrl := url }).host =
          (f.setHostPathFromBase (h ++ r)).host ∧
        (handleXOriginalUrl { f with xOriginalUrl := url }).path =
          (f.setHostPathFromBase (h ++ r)).path

theorem removeScheme_https (base : Str) : removeScheme ("https://".toList ++ base) = base := by
  unfold removeScheme
  rw [if_pos (List.isPrefixOf_iff_prefix.mpr (List.prefix_append _ _))]
  rfl

theorem removeScheme_http (base : Str) : removeScheme ("http://".toList ++ base) = base := rfl

theorem removeScheme_of_not {base : Str} (h : ¬ HasScheme base) : removeScheme base = base := by
  unfold removeScheme
  rw [if_neg fun hs => h (Or.inl (List.isPrefixOf_iff_prefix.mp hs)),
    if_neg fun hs => h (Or.inr (List.isPrefixOf_iff_prefix.mp hs))]

theorem removeScheme_schemes {base url : Str} (h : ¬ HasScheme base)
    (hurl : url ∈ [base, "http://".toList ++ base, "https://".toList ++ base]) :
    removeScheme url = base := by
  simp only [List.mem_cons, List.not_mem_nil, or_false] at hurl
  rcases hurl with rfl | rfl | rfl
  · exact removeScheme_of_not h
  · exact removeScheme_http base
  · exact removeScheme_https base

theorem setHostPath_url (f : ResourceFile) (base url : Str) :
    ({ f with xOriginalUrl := url }.setHostPathFromBase base).host = (f.setHostPathFromBase base).host ∧
      ({ f with xOriginalUrl := url }.setHostPathFromBase base).path =
        (f.setHostPathFromBase base).path := by
  unfold setHostPathFromBase
  dsimp only
  cases base.idxOf? '/' with
  | none => exact ⟨rfl, rfl⟩
  | some pathStart =>
    match base.idxOf? ',' with
    | none => exact ⟨rfl, rfl⟩
    | some 0 => exact ⟨rfl, rfl⟩
    | some (_ + 1) => exact ⟨rfl, rfl⟩

theorem split_bare {base : Str} (hslash : '/' ∉ base) (f : ResourceFile) :
    (f.setHostPathFromBase base).host = base ∧ (f.setHostPathFromBase base).path = [] := by
  unfold setHostPathFromBase
  rw [List.idxOf?_eq_none_iff.mpr hslash]
  exact ⟨rfl, rfl⟩

theorem split_plain {h p : Str} (hslash : '/' ∉ h) (hcomma : ',' ∉ h ++ '/' :: p) (f : ResourceFile) :
    (f.setHostPathFromBase (h ++ '/' :: p)).host = h ∧
      (f.setHostPathFromBase (h ++ '/' :: p)).path = '/' :: p := by
  unfold setHostPathFromBase
  rw [TextSearch.idxOf?_append_cons hslash, List.idxOf?_eq_none_iff.mpr hcomma]
  exact ⟨List.take_left, List.drop_left⟩

/-- The count that is taken is the position of the comma in the whole base, less one. -/
theorem split_query {h p q : Str} (hslash : '/' ∉ h) (hcomma : ',' ∉ h ++ '/' :: p)
    (f : ResourceFile) :
    (f.setHostPathFromBase (h ++ '/' :: (p ++ ',' :: q))).host = h ∧
      (f.setHostPathFromBase (h ++ '/' :: (p ++ ',' :: q))).path =
        ('/' :: (p ++ ',' :: q)).take (h.length + p.length) := by
  have hlen : (h ++ '/' :: p).length = h.length + p.length + 1 := by simp; omega
  have hquery : (h ++ '/' :: (p ++ ',' :: q)).idxOf? ',' = some (h.length + p.length + 1) := by
    have heq : h ++ '/' :: (p ++ ',' :: q) = (h ++ '/' :: p) ++ ',' :: q := by simp
    rw [heq, TextSearch.idxOf?_append_cons hcomma, hlen]
  unfold setHostPathFromBase
  rw [TextSearch.idxOf?_append_cons hslash, hquery]
  exact ⟨List.take_left, congrArg (List.take _) List.drop_left⟩

theorem take_query_iff {h p q : Str} (hne : h ≠ []) (hcomma : ',' ∉ p) :
    ('/' :: (p ++ ',' :: q)).take (h.length + p.length) =
      ('/' :: (p ++ ',' :: q)).takeWhile (fun c => c != ',') ↔ h.length = 1 := by
  have hpos : 0 < h.length := List.length_pos_iff.mpr hne
  have hwhile : ('/' :: (p ++ ',' :: q)).takeWhile (fun c => c != ',') = '/' :: p := by
    rw [List.takeWhile_cons, if_pos (by decide), TextSearch.takeWhile_append hcomma (Or.inr rfl)]
  rw [hwhile]
  constructor
  · intro heq
    have hlen := congrArg List.length heq
    simp only [List.length_take, List.length_cons, List.length_append] at hlen
    omega
  · intro hone
    have htake : (('/' :: p) ++ ',' :: q).take ('/' :: p).length = '/' :: p := List.take_left
    rw [hone, Nat.add_comm]
    exact htake

/-- The split is right exactly when the host is a single character or the path has no comma. -/
theorem host_path_split_iff (f : ResourceFile) {h r : Str} (hne : h ≠ []) (hslash : '/' ∉ h)
    (hcomma : ',' ∉ h) (hr : r = [] ∨ ∃ p, r = '/' :: p) :
    HostPathSplit f h r ↔ h.length = 1 ∨ ',' ∉ r := by
  have hschemes : ¬ HasScheme (h ++ r) →
      ∀ url ∈ [h ++ r, "http://".toList ++ (h ++ r), "https://".toList ++ (h ++ r)],
        (handleXOriginalUrl { f with xOriginalUrl := url }).host =
            (f.setHostPathFromBase (h ++ r)).host ∧
          (handleXOriginalUrl { f with xOriginalUrl := url }).path =
            (f.setHostPathFromBase (h ++ r)).path := by
    intro hnone url hurl
    unfold handleXOriginalUrl
    rw [removeScheme_schemes hnone hurl]
    exact setHostPath_url f (h ++ r) url
  rcases hr with rfl | ⟨p, rfl⟩
  · refine iff_of_true ⟨?_, ?_, hschemes⟩ (Or.inr List.not_mem_nil)
    · rw [List.append_nil]
      exact (split_bare hslash f).1
    · rw [List.append_nil]
      exact (split_bare hslash f).2
  · by_cases hpath : ',' ∈ '/' :: p
    · have hmem : ',' ∈ p := by simpa using hpath
      obtain ⟨path, query, rfl, hfirst⟩ := List.eq_append_cons_of_mem hmem
      have hbefore : ',' ∉ h ++ '/' :: path := by simp [hcomma, hfirst]
      obtain ⟨hhost, hpath'⟩ := split_query (q := query) hslash hbefore f
      have hiff := take_query_iff (q := query) hne hfirst
      rw [or_iff_left (not_not.mpr hpath), ← hiff, ← hpath']
      exact ⟨fun hs => hs.path, fun heq => ⟨hhost, heq, hschemes⟩⟩
    · have hbase : ',' ∉ h ++ '/' :: p := by
        rw [List.mem_append]
        exact not_or.mpr ⟨hcomma, hpath⟩
      obtain ⟨hhost, hpath'⟩ := split_plain hslash hbase f
      refine iff_of_true ⟨hhost, ?_, hschemes⟩ (Or.inr hpath)
      have hwhile := TextSearch.takeWhile_append hpath (Or.inl rfl)
      rw [List.append_nil] at hwhile
      rw [hpath', hwhile]

theorem host_path_split_single :
    HostPathSplit (ResourceFile.new []) "h".toList "/index,v=2".toList :=
  (host_path_split_iff _ (by decide) (by decide) (by decide) (Or.inr ⟨_, rfl⟩)).mpr (Or.inl rfl)

theorem query_kept : "www.example.com".toList ≠ [] ∧ '/' ∉ "www.example.com".toList ∧
    ',' ∉ "www.example.com".toList ∧
    ((ResourceFile.new []).setHostPathFromBase "www.example.com/index,v=2".toList).path =
      "/index,v=2".toList ∧
    ¬ HostPathSplit (ResourceFile.new []) "www.example.com".toList "/index,v=2".toList := by
  refine ⟨by decide, by decide, by decide, rfl, fun hs => ?_⟩
  have hpath : "/index,v=2".toList = "/index".toList := hs.path
  exact absurd hpath (by decide)

end QuailServer.HostPath
