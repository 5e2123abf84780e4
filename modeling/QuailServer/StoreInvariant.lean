import QuailServer.BackendDirectory
import QuailServer.ResponseStore

set_option autoImplicit false

namespace QuailServer.StoreInvariant
open HeaderBlock ServerBackend QuailServerBackend ResourceReader ResourceFile BackendDirectory ResponseStore

def added (u : FileUtils) (cacheDirectory fileName : Str) : Added :=
  let f := resourceFile u cacheDirectory fileName
  ⟨f.host, f.path, f.spdyHeaders, f.body⟩

/-- One entry for each key that was used, with the headers and the body of the first call. -/
structure FirstCallKept (b : QuailServerBackend) (adds : List Added) : Prop where
  keys : b.responses.keys = (adds.map Added.key).toFinset
  first : ∀ key, b.responses.lookup key = (adds.find? fun a => a.key = key).map Added.response

theorem addAll_lookup (b : QuailServerBackend) (adds : List Added) (key : Str) :
    (addAll b adds).responses.lookup key =
      (b.responses.lookup key).or (FirstWrite.firstWrite (writes adds) key) := by
  rw [addAll_eq]
  exact FirstWrite.lookup_writes b.responses (writes adds) key

theorem addAll_kept (g d : Option QuicBackendResponse) (adds : List Added) :
    FirstCallKept (addAll (new g d) adds) adds := by
  constructor
  · ext key
    rw [Finmap.mem_keys, mem_responses]
    simp
  · exact addAll_lookup_key adds g d

theorem addResponse_existing {b : QuailServerBackend} {a : Added} (h : a.key ∈ b.responses) :
    b.addResponse a.host a.path a.responseHeaders a.responseBody = b :=
  congrArg (fun responses => { b with responses := responses }) (FirstWrite.insertNew_of_mem h _)

theorem addFiles_none (u : FileUtils) (cacheDirectory : Str) (files : List Str) :
    addFiles u cacheDirectory files none = none := by
  induction files with
  | nil => rfl
  | cons _ files ih => exact ih

theorem addFiles_eq (u : FileUtils) (cacheDirectory : Str) (files : List Str) (b : QuailServerBackend) :
    addFiles u cacheDirectory files (some b) =
      if files.all (defined u cacheDirectory) then
        some (addAll b (files.map (added u cacheDirectory)))
      else none := by
  induction files generalizing b with
  | nil => rfl
  | cons fileName files ih =>
    have hcons : addFiles u cacheDirectory (fileName :: files) (some b) =
        addFiles u cacheDirectory files (addFile u cacheDirectory fileName b) := rfl
    rw [hcons, List.all_cons]
    cases hdefined : defined u cacheDirectory fileName with
    | true =>
      have hfile : addFile u cacheDirectory fileName b =
          some (addAll b [added u cacheDirectory fileName]) := if_pos hdefined
      rw [hfile, ih]
      rfl
    | false =>
      have hfile : addFile u cacheDirectory fileName b = none := if_neg (by simp [hdefined])
      rw [hfile]
      exact addFiles_none u cacheDirectory files

theorem addFiles_kept {u : FileUtils} {cacheDirectory : Str} {files : List Str}
    {b b' : QuailServerBackend} (h : addFiles u cacheDirectory files (some b) = some b') :
    b' = addAll b (files.map (added u cacheDirectory)) := by
  rw [addFiles_eq] at h
  split at h
  · exact (Option.some.inj h).symm
  · cases h

theorem initializeBackend_listed {u : FileUtils} {cacheDirectory : Str} {files : List Str}
    (b : QuailServerBackend) (hne : cacheDirectory ≠ [])
    (hlist : u.enumerateDirectoryRecursively cacheDirectory = some files) :
    initializeBackend u cacheDirectory b =
      if files.all (defined u cacheDirectory) then
        some (true, addAll b (files.map (added u cacheDirectory)))
      else none := by
  unfold initializeBackend
  rw [if_neg (by simpa using hne), hlist]
  dsimp only
  rw [addFiles_eq]
  split <;> rfl

theorem initializeBackend_loaded {u : FileUtils} {cacheDirectory : Str} {b b' : QuailServerBackend}
    (h : initializeBackend u cacheDirectory b = some (true, b')) :
    ∃ files, u.enumerateDirectoryRecursively cacheDirectory = some files ∧
      b' = addAll b (files.map (added u cacheDirectory)) := by
  unfold initializeBackend at h
  split at h
  · cases h
  · split at h
    · cases h
    · next files hlist =>
      obtain ⟨b'', hfiles, heq⟩ := Option.map_eq_some_iff.mp h
      obtain ⟨-, rfl⟩ := Prod.mk.inj heq
      exact ⟨files, hlist, addFiles_kept hfiles⟩

end QuailServer.StoreInvariant
