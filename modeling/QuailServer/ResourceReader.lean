import QuailServer.HeaderBlock
import QuailServer.Library.TextSearch

set_option autoImplicit false

namespace QuailServer.ResourceReader
open HeaderBlock

/-- An access to a string, a report or a split. Positions and lengths are the integers that the
    code computes, before the conversion to `size_t`: one that wraps shows as a negative one. -/
inductive FileEvent where
  | index (i : ℤ) (size : ℕ)
  /-- A view of `len` bytes at `file_contents_.data() + start`. -/
  | view (start : ℕ) (len : ℤ) (size : ℕ)
  | substr (pos size : ℕ)
  | setHostPathFromBase (base : Str)
  | failedToRead
  | headersInvalid
  deriving DecidableEq

def FileEvent.inBounds : FileEvent → Bool
  | .index i size => decide (0 ≤ i ∧ i < size)
  | .view start len size => decide (0 ≤ len ∧ start + len ≤ size)
  | .substr pos size => decide (pos ≤ size)
  | _ => true

def FileEvent.isReport : FileEvent → Bool
  | .failedToRead | .headersInvalid => true
  | _ => false

structure ResourceFile where
  fileName : Str
  fileContents : Str
  body : Str
  spdyHeaders : Http2HeaderBlock
  xOriginalUrl : Str
  host : Str
  path : Str
  trace : List FileEvent

/-- How the header loop was left: by its condition or the `break`, by a `return`, or by an access
    out of bounds, after which nothing is defined. -/
inductive LoopExit where
  | finished
  | returned
  | undefined
  deriving DecidableEq

inductive Turn where
  | next (start : ℕ) (f : ResourceFile)
  | exit (how : LoopExit) (f : ResourceFile)

namespace ResourceFile

def new (fileName : Str) : ResourceFile where
  fileName := fileName
  fileContents := []
  body := []
  spdyHeaders := ∅
  xOriginalUrl := []
  host := []
  path := []
  trace := []

def emit (e : FileEvent) (f : ResourceFile) : ResourceFile := { f with trace := f.trace ++ [e] }

@[simp] theorem emit_fileContents (e : FileEvent) (f : ResourceFile) :
    (f.emit e).fileContents = f.fileContents := rfl

/-- `query_start` counts from the start of `base`, and `npos` is greater than 0: a count of
    `npos - 1` takes everything. -/
def setHostPathFromBase (base : Str) (f : ResourceFile) : ResourceFile :=
  let f := f.emit (.setHostPathFromBase base)
  match base.idxOf? '/' with
  | none => { f with host := base, path := [] }
  | some pathStart =>
    let f := { f.emit (.substr 0 base.length) with host := base.take pathStart }
    let f := f.emit (.substr pathStart base.length)
    match base.idxOf? ',' with
    | none => { f with path := base.drop pathStart }
    | some 0 => { f with path := base.drop pathStart }
    | some (queryStart + 1) => { f with path := (base.drop pathStart).take queryStart }

def removeScheme (url : Str) : Str :=
  if List.isPrefixOf "https://".toList url then url.drop 8
  else if List.isPrefixOf "http://".toList url then url.drop 7
  else url

def handleXOriginalUrl (f : ResourceFile) : ResourceFile :=
  f.setHostPathFromBase (removeScheme f.xOriginalUrl)

/-- The file as `InitializeBackend` reads it: its host and path are set from its name before. -/
def opened (fileName base : Str) : ResourceFile := (ResourceFile.new fileName).setHostPathFromBase base

def toLower (s : Str) : Str := s.map Char.toLower

/-- The separators of QUICHE. -/
def quicheSeparator (key : Str) : Str := if key = "cookie".toList then "; ".toList else ['\x00']

def colonSpace : Str := [':', ' ']

def readLine (separatorForKey : Str → Str) (start : ℕ) (line : Str) (f : ResourceFile) : Turn :=
  let f := f.emit (.substr 0 line.length)
  if line.take 4 = "HTTP".toList then
    match line.idxOf? ' ' with
    | none => .exit .returned (f.emit .headersInvalid)
    | some pos =>
      let f := f.emit (.substr (pos + 1) line.length)
      let status := (line.drop (pos + 1)).take 3
      .next start { f with spdyHeaders := f.spdyHeaders.set ":status" status }
  else
    match TextSearch.find colonSpace line with
    | none => .exit .returned (f.emit .headersInvalid)
    | some pos =>
      let f := (f.emit (.substr 0 line.length)).emit (.substr (pos + 2) line.length)
      let key := toLower (line.take pos)
      let value := line.drop (pos + 2)
      .next start
        { f with spdyHeaders := f.spdyHeaders.appendValueOrAddHeader separatorForKey key value }

/-- The length of the line from `start` to the newline at `pos`. The look-back for CR reads the
    byte before the newline, which belongs to the line before when the line is empty. -/
def lineLength (contents : Str) (start pos : ℕ) : ℤ :=
  pos - start - if contents[pos - 1]? = some '\r' then 1 else 0

def headerTurn (separatorForKey : Str → Str) (start : ℕ) (f : ResourceFile) : Turn :=
  let size := f.fileContents.length
  match TextSearch.findFrom '\n' f.fileContents start with
  | none => .exit .returned (f.emit .headersInvalid)
  | some pos =>
    let f := f.emit (.index (pos - 1) size)
    if pos = 0 then .exit .undefined f
    else
      let len := lineLength f.fileContents start pos
      let f := f.emit (.view start len size)
      if len < 0 then .exit .undefined f
      else
        let line := (f.fileContents.drop start).take len.toNat
        let start := pos + 1
        if line.isEmpty then
          let f := f.emit (.view start (size - start) size)
          .exit .finished { f with body := f.fileContents.drop start }
        else readLine separatorForKey start line f

theorem readLine_advances {separatorForKey : Str → Str} {start start' : ℕ} {line : Str}
    {f f' : ResourceFile} (h : readLine separatorForKey start line f = .next start' f') :
    start' = start ∧ f'.fileContents = f.fileContents := by
  unfold readLine at h
  dsimp only at h
  split at h
  · split at h
    · cases h
    · cases h
      exact ⟨rfl, rfl⟩
  · split at h
    · cases h
    · cases h
      exact ⟨rfl, rfl⟩

theorem headerTurn_advances {separatorForKey : Str → Str} {start start' : ℕ} {f f' : ResourceFile}
    (h : headerTurn separatorForKey start f = .next start' f') :
    start < start' ∧ f'.fileContents = f.fileContents := by
  unfold headerTurn at h
  dsimp only at h
  split at h
  · cases h
  · next pos hfind =>
    split at h
    · cases h
    · split at h
      · cases h
      · split at h
        · cases h
        · obtain ⟨hstart, hcontents⟩ := readLine_advances h
          obtain ⟨i, -, hi⟩ := Option.map_eq_some_iff.mp hfind
          exact ⟨by omega, hcontents⟩

def headerLoop (separatorForKey : Str → Str) (start : ℕ) (f : ResourceFile) :
    LoopExit × ResourceFile :=
  if _hlt : start < f.fileContents.length then
    match _hturn : headerTurn separatorForKey start f with
    | .next start' f' => headerLoop separatorForKey start' f'
    | .exit how f' => (how, f')
  else (.finished, f)
termination_by f.fileContents.length - start
decreasing_by
  obtain ⟨hstart, hcontents⟩ := headerTurn_advances _hturn
  rw [hcontents]
  omega

def finishHeaders (f : ResourceFile) : ResourceFile :=
  let f := { f with spdyHeaders := f.spdyHeaders.erase "connection" }
  match f.spdyHeaders.find "x-original-url" with
  | some url => handleXOriginalUrl { f with xOriginalUrl := url }
  | none => f

/-- `Read`, from the result of `ReadFileContents`. -/
def readContents (separatorForKey : Str → Str) (maybeFileContents : Option Str) (f : ResourceFile) :
    ResourceFile :=
  match maybeFileContents with
  | none => f.emit .failedToRead
  | some contents =>
    match headerLoop separatorForKey 0 { f with fileContents := contents } with
    | (.finished, f) => f.finishHeaders
    | (_, f) => f

end ResourceFile
end QuailServer.ResourceReader
