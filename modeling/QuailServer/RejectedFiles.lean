import QuailServer.Library.StepMachine
import QuailServer.SavedFormat
import QuailServer.StoreInvariant

set_option autoImplicit false

namespace QuailServer.RejectedFiles
open HeaderBlock ServerBackend QuailServerBackend ResourceReader ResourceFile FileScan SavedFormat
open BackendDirectory ResponseStore StoreInvariant StepMachine

/-- `Read` logged that it could not read the file or that it ignores it. -/
def reported (u : FileUtils) (cacheDirectory fileName : Str) : Bool :=
  (resourceFile u cacheDirectory fileName).trace.any FileEvent.isReport

def addStep (u : FileUtils) (cacheDirectory : Str) (b : Option QuailServerBackend) (fileName : Str) :
    Option QuailServerBackend :=
  b.bind (addFile u cacheDirectory fileName)

def listing (u : FileUtils) (cacheDirectory : Str) : List Str :=
  if cacheDirectory.isEmpty then []
  else (u.enumerateDirectoryRecursively cacheDirectory).getD []

def withoutReported (u : FileUtils) (cacheDirectory : Str) : FileUtils :=
  u.withListing fun directory => (u.enumerateDirectoryRecursively directory).map
    (List.filter fun fileName => !reported u cacheDirectory fileName)

/-- No reported file contributes an entry, and the backend is the one without such files. -/
structure ReportedIgnored (u : FileUtils) (cacheDirectory : Str) (b : QuailServerBackend) : Prop where
  noEntry : Each (addStep u cacheDirectory)
    (fun b fileName => reported u cacheDirectory fileName = true →
      addStep u cacheDirectory b fileName = b) (some b) (listing u cacheDirectory)
  final : initializeBackend u cacheDirectory b =
    initializeBackend (withoutReported u cacheDirectory) cacheDirectory b

/-- The file cannot be read, or does not have the format of saved responses. -/
def Malformed : Option Str → Prop
  | none => True
  | some contents => contents.head? ≠ some '\n' ∧ ∀ p : SavedParse, p.WellFormed → p.text ≠ contents

def nameKey (cacheDirectory fileName : Str) : Str :=
  getKey (opened fileName (fileBase cacheDirectory fileName)).host
    (opened fileName (fileBase cacheDirectory fileName)).path

structure GivenUp (u : FileUtils) (cacheDirectory fileName : Str) : Prop where
  reported : reported u cacheDirectory fileName = true
  defined : defined u cacheDirectory fileName = true
  key : (added u cacheDirectory fileName).key = nameKey cacheDirectory fileName

theorem resourceFile_eq {u : FileUtils} {fileName : Str} {contents : Option Str}
    (h : u.readFileContents fileName = contents) (cacheDirectory : Str) :
    resourceFile u cacheDirectory fileName = readContents u.separatorForKey contents
      (opened fileName (fileBase cacheDirectory fileName)) := by
  unfold resourceFile
  rw [h]

theorem unreadable_givenUp {u : FileUtils} {fileName : Str} (h : u.readFileContents fileName = none)
    (cacheDirectory : Str) : GivenUp u cacheDirectory fileName := by
  have hopened := opened_quiet fileName (fileBase cacheDirectory fileName)
  have hfile : resourceFile u cacheDirectory fileName =
      (opened fileName (fileBase cacheDirectory fileName)).emit .failedToRead :=
    resourceFile_eq h cacheDirectory
  refine ⟨?_, ?_, ?_⟩
  · rw [RejectedFiles.reported, hfile, List.any_eq_true]
    exact ⟨.failedToRead, by simp [emit], rfl⟩
  · rw [BackendDirectory.defined, hfile, List.all_eq_true]
    exact List.forall_mem_append.mpr ⟨fun e he => (hopened e he).1, List.forall_mem_singleton.mpr rfl⟩
  · rw [added, hfile]
    rfl

theorem malformed_givenUp {u : FileUtils} {fileName : Str} (h : Malformed (u.readFileContents fileName))
    (cacheDirectory : Str) : GivenUp u cacheDirectory fileName := by
  have hopened := opened_quiet fileName (fileBase cacheDirectory fileName)
  have hbody := opened_body fileName (fileBase cacheDirectory fileName)
  cases hcontents : u.readFileContents fileName with
  | none => exact unreadable_givenUp hcontents cacheDirectory
  | some contents =>
    rw [hcontents] at h
    rcases readContents_cases u.separatorForKey h.1 hbody with
      ⟨p, hp, htext, -⟩ | ⟨-, lines, es, hes, hread⟩
    · exact absurd htext (h.2 p hp)
    · have hfile := resourceFile_eq hcontents cacheDirectory
      rw [hread] at hfile
      refine ⟨?_, ?_, ?_⟩
      · rw [RejectedFiles.reported, hfile, List.any_eq_true]
        refine ⟨.headersInvalid, (rejected_events hes ?_).1, rfl⟩
        exact hopened
      · rw [BackendDirectory.defined, hfile, List.all_eq_true]
        refine (rejected_events hes ?_).2
        exact hopened
      · rw [added, hfile]
        rfl

theorem reported_iff (u : FileUtils) (cacheDirectory fileName : Str) :
    reported u cacheDirectory fileName = true ↔ Malformed (u.readFileContents fileName) := by
  refine ⟨fun h => ?_, fun h => (malformed_givenUp h cacheDirectory).reported⟩
  have hopened := opened_quiet fileName (fileBase cacheDirectory fileName)
  have hbody := opened_body fileName (fileBase cacheDirectory fileName)
  obtain ⟨e, hmem, hreport⟩ := List.any_eq_true.mp h
  cases hcontents : u.readFileContents fileName with
  | none => trivial
  | some contents =>
    rw [resourceFile_eq hcontents] at hmem
    by_cases hstart : contents.head? = some '\n'
    · -- Nothing is reported after the look-back left the file.
      obtain ⟨rest, rfl⟩ := List.head?_eq_some_iff.mp hstart
      rw [readContents_newline] at hmem
      rcases List.mem_append.mp hmem with hmem | hmem
      · rw [(hopened e hmem).2] at hreport
        cases hreport
      · rw [List.mem_singleton.mp hmem] at hreport
        cases hreport
    · rcases readContents_cases u.separatorForKey hstart hbody with
        ⟨p, -, -, es, hes, hread⟩ | ⟨hnone, -⟩
      · rw [hread] at hmem
        have hquiet : e.inBounds = true ∧ e.isReport = false := by
          refine accepted_events hes ?_ e hmem
          exact hopened
        rw [hquiet.2] at hreport
        cases hreport
      · exact ⟨hstart, hnone⟩

theorem addResponse_unchanged_iff (b : QuailServerBackend) (a : Added) :
    addAll b [a] = b ↔ a.key ∈ b.responses := by
  refine ⟨fun h => ?_, fun h => addResponse_existing h⟩
  have hlookup := addAll_lookup b [a] a.key
  rw [h, firstWrite_writes] at hlookup
  rw [← Finmap.lookup_isSome, hlookup]
  simp

theorem addStep_unchanged_iff {u : FileUtils} {fileName : Str}
    (h : Malformed (u.readFileContents fileName)) (cacheDirectory : Str)
    (s : Option QuailServerBackend) : addStep u cacheDirectory s fileName = s ↔
      ∀ b, s = some b → nameKey cacheDirectory fileName ∈ b.responses := by
  obtain ⟨-, hdefined, hkey⟩ := malformed_givenUp h cacheDirectory
  cases s with
  | none => exact iff_of_true rfl nofun
  | some b =>
    have hstep : addStep u cacheDirectory (some b) fileName =
        some (addAll b [added u cacheDirectory fileName]) := if_pos hdefined
    rw [hstep, Option.some.injEq, addResponse_unchanged_iff, hkey]
    exact ⟨fun hmem b' heq => Option.some.inj heq ▸ hmem, fun hall => hall b rfl⟩

theorem initializeBackend_listing (u : FileUtils) (cacheDirectory : Str) (b : QuailServerBackend)
    (h : Each (addStep u cacheDirectory)
      (fun b fileName => reported u cacheDirectory fileName = true →
        addStep u cacheDirectory b fileName = b) (some b) (listing u cacheDirectory)) :
    initializeBackend u cacheDirectory b =
      initializeBackend (withoutReported u cacheDirectory) cacheDirectory b := by
  unfold initializeBackend
  by_cases hempty : cacheDirectory.isEmpty
  · rw [if_pos hempty, if_pos hempty]
  · have hlist : listing u cacheDirectory =
        (u.enumerateDirectoryRecursively cacheDirectory).getD [] := if_neg hempty
    rw [hlist] at h
    rw [if_neg hempty, if_neg hempty]
    unfold withoutReported FileUtils.withListing
    dsimp only
    cases hfiles : u.enumerateDirectoryRecursively cacheDirectory with
    | none => rfl
    | some files =>
      rw [hfiles] at h
      have hidle : Each (addStep u cacheDirectory)
          (fun b fileName => (!reported u cacheDirectory fileName) = false →
            addStep u cacheDirectory b fileName = b) (some b) files := by
        refine (Each.congr fun b fileName => ?_).mp h
        rw [Bool.not_eq_false']
      have hafter := after_filter hidle
      exact congrArg (Option.map fun b => (true, b)) hafter.symm

/-- Reported files are ignored exactly when each of them, when it is reached, has a name whose key
    is already in the store. -/
theorem reported_ignored_iff (u : FileUtils) (cacheDirectory : Str) (b : QuailServerBackend) :
    ReportedIgnored u cacheDirectory b ↔ Each (addStep u cacheDirectory)
      (fun s fileName => Malformed (u.readFileContents fileName) →
        ∀ b, s = some b → nameKey cacheDirectory fileName ∈ b.responses)
      (some b) (listing u cacheDirectory) := by
  have hpoint : ∀ s fileName, (reported u cacheDirectory fileName = true →
      addStep u cacheDirectory s fileName = s) ↔ (Malformed (u.readFileContents fileName) →
        ∀ b, s = some b → nameKey cacheDirectory fileName ∈ b.responses) := by
    intro s fileName
    rw [reported_iff]
    exact forall_congr' fun h => addStep_unchanged_iff h cacheDirectory s
  constructor
  · intro h
    exact (Each.congr hpoint).mp h.noEntry
  · intro h
    have hidle := (Each.congr hpoint).mpr h
    exact ⟨hidle, initializeBackend_listing u cacheDirectory b hidle⟩

theorem malformed_of_scanned {contents : Str} {lines : List Str} (hstart : contents.head? ≠ some '\n')
    (h : Scanned contents lines .invalid) : Malformed (some contents) := by
  refine ⟨hstart, ?_⟩
  rintro p hp rfl
  exact ending_accepted p (scanned_unique (scanned_of_wellFormed hp) h).2

def cutOffDirectory : FileUtils where
  readFileContents _ := some "HTTP/1.1 200 OK".toList
  enumerateDirectoryRecursively _ := some ["/d/a.org/x".toList]
  separatorForKey := quicheSeparator

theorem cut_off_file_added :
    reported cutOffDirectory "/d".toList "/d/a.org/x".toList = true ∧
      ¬ ReportedIgnored cutOffDirectory "/d".toList (new none none) := by
  have hmalformed : Malformed (cutOffDirectory.readFileContents "/d/a.org/x".toList) :=
    malformed_of_scanned (by decide) (.unterminated (by decide) (by decide))
  have hreported := (malformed_givenUp hmalformed "/d".toList).reported
  refine ⟨hreported, fun h => ?_⟩
  have hstay := (addStep_unchanged_iff hmalformed "/d".toList _).mp (h.noEntry.1 hreported)
  exact absurd (hstay _ rfl) Finmap.notMem_empty

end QuailServer.RejectedFiles
