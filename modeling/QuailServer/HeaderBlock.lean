import Mathlib.Data.List.AList

set_option autoImplicit false

namespace QuailServer.HeaderBlock

/-- `std::string` and `absl::string_view`: a byte string, one `Char` for each byte. -/
abbrev Str := List Char

instance : Coe String Str := ⟨String.toList⟩

/-- `spdy::Http2HeaderBlock`: at most one value for a name. Nothing here reads the order
    of the fields. -/
abbrev Http2HeaderBlock := AList fun _ : Str => Str

namespace Http2HeaderBlock

def find (h : Http2HeaderBlock) (name : Str) : Option Str := AList.lookup name h

def set (h : Http2HeaderBlock) (name value : Str) : Http2HeaderBlock := AList.insert name value h

def empty (h : Http2HeaderBlock) : Bool := h.entries.isEmpty

def erase (h : Http2HeaderBlock) (name : Str) : Http2HeaderBlock := AList.erase name h

/-- `AppendValueOrAddHeader`. The separator that QUICHE puts between the values of one header
    depends on the name. -/
def appendValueOrAddHeader (separatorForKey : Str → Str) (h : Http2HeaderBlock) (name value : Str) :
    Http2HeaderBlock :=
  match h.find name with
  | none => h.set name value
  | some old => h.set name (old ++ separatorForKey name ++ value)

/-- `ValueProxy::as_string` of `operator[]`: the empty string for a missing name. -/
def asString (h : Http2HeaderBlock) (name : Str) : Str := (h.find name).getD []

@[simp] theorem find_set (h : Http2HeaderBlock) (name value : Str) :
    (h.set name value).find name = some value := AList.lookup_insert h

theorem find_set_ne (h : Http2HeaderBlock) {name other : Str} (value : Str) (hne : name ≠ other) :
    (h.set other value).find name = h.find name := AList.lookup_insert_ne hne

@[simp] theorem find_empty (name : Str) : Http2HeaderBlock.find ∅ name = none :=
  AList.lookup_empty name

theorem find_erase (h : Http2HeaderBlock) (name : Str) : (h.erase name).find name = none :=
  AList.lookup_erase name h

theorem find_erase_ne (h : Http2HeaderBlock) {name other : Str} (hne : name ≠ other) :
    (h.erase other).find name = h.find name := AList.lookup_erase_ne hne

theorem find_append (separatorForKey : Str → Str) (h : Http2HeaderBlock) (name value : Str) :
    (h.appendValueOrAddHeader separatorForKey name value).find name =
      some (((h.find name).map fun old => old ++ separatorForKey name ++ value).getD value) := by
  unfold appendValueOrAddHeader
  cases h.find name <;> exact find_set ..

theorem find_append_ne (separatorForKey : Str → Str) (h : Http2HeaderBlock) {name other : Str}
    (value : Str) (hne : name ≠ other) :
    (h.appendValueOrAddHeader separatorForKey other value).find name = h.find name := by
  unfold appendValueOrAddHeader
  cases h.find other <;> exact find_set_ne _ _ hne

theorem empty_of_find {h : Http2HeaderBlock} {name : Str} (hfind : h.find name ≠ none) :
    h.empty = false := by
  cases hempty : h.empty with
  | false => rfl
  | true =>
    refine absurd ?_ hfind
    have hentries : h.entries = [] := List.isEmpty_iff.mp hempty
    have hnil : h = ∅ := AList.ext hentries
    rw [hnil]
    exact find_empty name

end Http2HeaderBlock

def strCat (n : ℕ) : Str := (toString n).toList

inductive SpecialResponseType where
  | regularResponse
  | closeConnection
  | ignoreRequest
  | backendErrResponse
  | incompleteResponse
  | generateBytes
  deriving DecidableEq

structure QuicBackendResponse where
  earlyHints : List Http2HeaderBlock
  responseType : SpecialResponseType
  headers : Http2HeaderBlock
  trailers : Http2HeaderBlock
  body : Str
  /-- `QuicTime::Delta`, in microseconds. -/
  delay : ℕ
  deriving DecidableEq

def QuicBackendResponse.new : QuicBackendResponse :=
  ⟨[], .regularResponse, ∅, ∅, [], 0⟩

def statusBlock (status body : Str) : Http2HeaderBlock :=
  (Http2HeaderBlock.set ∅ ":status" status).set "content-length" (strCat body.length)

@[simp] theorem statusBlock_status (status body : Str) :
    (statusBlock status body).find ":status" = some status := by
  unfold statusBlock
  rw [Http2HeaderBlock.find_set_ne _ _ (by decide), Http2HeaderBlock.find_set]

end QuailServer.HeaderBlock
