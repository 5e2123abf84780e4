import QuailServer.ResourceReader
import QuailServer.ServerBackend

set_option autoImplicit false

namespace QuailServer.BackendDirectory
open HeaderBlock ServerBackend ResourceReader ResourceFile

/-- What the loader uses of QUICHE. -/
structure FileUtils where
  readFileContents : Str → Option Str
  enumerateDirectoryRecursively : Str → Option (List Str)
  separatorForKey : Str → Str

def FileUtils.withListing (u : FileUtils) (listing : Str → Option (List Str)) : FileUtils :=
  { u with enumerateDirectoryRecursively := listing }

/-- `absl::StripSuffix` for one character. -/
def stripSuffix (c : Char) (text : Str) : Str := if text.getLast? = some c then text.dropLast else text

/-- The version that is not for Windows. -/
def joinPathImpl (a b : Str) : Str :=
  if a.isEmpty then b
  else if b.isEmpty then a
  else stripSuffix '/' a ++ '/' :: b

/-- The file name without the directory, with URL path separators. -/
def fileBase (cacheDirectory fileName : Str) : Str :=
  let base := fileName.map fun c => if c = '\\' then '/' else c
  let base := base.drop cacheDirectory.length
  if base.head? = some '/' then base.drop 1 else base

def resourceFile (u : FileUtils) (cacheDirectory fileName : Str) : ResourceFile :=
  readContents u.separatorForKey (u.readFileContents fileName)
    (opened fileName (fileBase cacheDirectory fileName))

/-- Every access of the read stayed in bounds. -/
def defined (u : FileUtils) (cacheDirectory fileName : Str) : Bool :=
  (resourceFile u cacheDirectory fileName).trace.all FileEvent.inBounds

/-- One turn of the file loop. There is no result after an access out of bounds. -/
def addFile (u : FileUtils) (cacheDirectory fileName : Str) (b : QuailServerBackend) :
    Option QuailServerBackend :=
  let f := resourceFile u cacheDirectory fileName
  if defined u cacheDirectory fileName then some (b.addResponse f.host f.path f.spdyHeaders f.body)
  else none

def addFiles (u : FileUtils) (cacheDirectory : Str) (files : List Str)
    (b : Option QuailServerBackend) : Option QuailServerBackend :=
  files.foldl (fun b fileName => b.bind (addFile u cacheDirectory fileName)) b

/-- In a build where `QUIC_BUG` and `DFATAL` only log. -/
def initializeBackend (u : FileUtils) (cacheDirectory : Str) (b : QuailServerBackend) :
    Option (Bool × QuailServerBackend) :=
  if cacheDirectory.isEmpty then some (false, b)
  else match u.enumerateDirectoryRecursively cacheDirectory with
    | none => some (false, b)
    | some files => (addFiles u cacheDirectory files (some b)).map fun b => (true, b)

end QuailServer.BackendDirectory
