import QuailServer.Library.TextSearch
import QuailServer.ServerBackend

set_option autoImplicit false

namespace QuailServer.StoreKeys
open HeaderBlock ServerBackend QuailServerBackend

/-- A host without its port: a registered name or an IPv4 literal, or a bracketed IPv6 literal. -/
inductive Host where
  | name (text : Str) (colon : ':' ∉ text) (slash : '/' ∉ text) (bracket : '[' ∉ text)
  | ipv6 (address : Str) (colon : ':' ∈ address) (slash : '/' ∉ address)

namespace Host

def text : Host → Str
  | name text _ _ _ => text
  | ipv6 address _ _ => '[' :: (address ++ [']'])

def ipv6Address? : Host → Option Str
  | name _ _ _ _ => none
  | ipv6 address _ _ => some address

end Host

structure Authority where
  host : Host
  port : Option Str

def Authority.text (x : Authority) : Str :=
  x.host.text ++ match x.port with
    | none => []
    | some port => ':' :: port

structure Addition where
  authority : Authority
  path : Str
  path_start : path = [] ∨ path.head? = some '/'
  responseType : SpecialResponseType
  responseHeaders : Http2HeaderBlock
  responseBody : Str
  responseTrailers : Http2HeaderBlock
  earlyHints : List Http2HeaderBlock

namespace Addition

def key (a : Addition) : Str := getKey a.authority.text a.path

def addTo (b : QuailServerBackend) (a : Addition) : QuailServerBackend :=
  b.addResponseImpl a.authority.text a.path a.responseType a.responseHeaders a.responseBody
    a.responseTrailers a.earlyHints

def Rejected (b : QuailServerBackend) (a : Addition) : Prop := a.key ∈ b.responses

def SameResource (a a' : Addition) : Prop :=
  a.authority.host.text = a'.authority.host.text ∧ a.path = a'.path

/-- Not two IPv6 literals with the same first group and the same path. -/
def Apart (a a' : Addition) : Prop :=
  ∀ x x', a.authority.host.ipv6Address? = some x → a'.authority.host.ipv6Address? = some x' →
    a.path = a'.path → x.takeWhile (fun c => c != ':') = x'.takeWhile (fun c => c != ':') → x = x'

end Addition

/-- The keys of a sequence of calls tell the resources apart, and only a resource that was added
    before is rejected. -/
structure KeysIdentify (b : QuailServerBackend) (adds : List Addition) : Prop where
  keys : ∀ a ∈ adds, ∀ a' ∈ adds, a.key = a'.key ↔ a.SameResource a'
  duplicates : ∀ before a after, adds = before ++ a :: after →
    a.Rejected (before.foldl Addition.addTo b) → ∃ a' ∈ before, a'.SameResource a

def Host.cut : Host → Str
  | name text _ _ _ => text
  | ipv6 address _ _ => '[' :: address.takeWhile fun c => c != ':'

theorem ipv6_forms {h : Host} {x : Str} (hx : h.ipv6Address? = some x) :
    h.text = '[' :: (x ++ [']']) ∧ h.cut = '[' :: x.takeWhile fun c => c != ':' := by
  cases h with
  | name text colon slash bracket => cases hx
  | ipv6 address colon slash =>
    obtain rfl := Option.some.inj hx
    exact ⟨rfl, rfl⟩

theorem cut_slash (h : Host) : '/' ∉ h.cut := by
  cases h with
  | name text colon slash bracket => exact slash
  | ipv6 address colon slash =>
    intro hmem
    rcases List.mem_cons.mp hmem with heq | htail
    · exact absurd heq (by decide)
    · exact slash ((List.takeWhile_sublist _).subset htail)

/-- The first colon is the one of the port, or one within the brackets. -/
theorem cut_authority (x : Authority) : x.text.takeWhile (fun c => c != ':') = x.host.cut := by
  obtain ⟨h, port⟩ := x
  cases h with
  | name text colon slash bracket =>
    apply TextSearch.takeWhile_append colon
    cases port with
    | none => exact Or.inl rfl
    | some port => exact Or.inr rfl
  | ipv6 address colon slash =>
    obtain ⟨first, rest, rfl, hfirst⟩ := List.eq_append_cons_of_mem colon
    have hcut : (first ++ ':' :: rest).takeWhile (fun c => c != ':') = first :=
      TextSearch.takeWhile_append hfirst (Or.inr rfl)
    have hbracket : ':' ∉ '[' :: first := by simp [hfirst]
    have htext : ∀ tail, '[' :: ((first ++ ':' :: rest) ++ [']']) ++ tail =
        ('[' :: first) ++ ':' :: (rest ++ [']'] ++ tail) := by
      intro tail
      simp
    change ('[' :: ((first ++ ':' :: rest) ++ [']']) ++ _).takeWhile _ = '[' :: _
    rw [htext, TextSearch.takeWhile_append hbracket (Or.inr rfl), hcut]

theorem key_eq (a : Addition) : a.key = a.authority.host.cut ++ a.path := by
  unfold Addition.key getKey
  rw [cut_authority]

theorem key_eq_iff (a a' : Addition) :
    a.key = a'.key ↔ a.authority.host.cut = a'.authority.host.cut ∧ a.path = a'.path := by
  rw [key_eq, key_eq]
  exact TextSearch.append_separated_inj (cut_slash _) (cut_slash _) a.path_start a'.path_start

theorem cut_of_text {h h' : Host} (heq : h.text = h'.text) : h.cut = h'.cut := by
  have htext := cut_authority ⟨h, none⟩
  have htext' := cut_authority ⟨h', none⟩
  unfold Authority.text at htext htext'
  rw [← htext, ← htext', heq]

theorem cut_eq_iff (h h' : Host) : h.cut = h'.cut ↔ h.text = h'.text ∨
    ∃ x x', h.ipv6Address? = some x ∧ h'.ipv6Address? = some x' ∧
      x.takeWhile (fun c => c != ':') = x'.takeWhile (fun c => c != ':') := by
  constructor
  · intro heq
    cases h with
    | name text colon slash bracket =>
      cases h' with
      | name text' colon' slash' bracket' => exact Or.inl heq
      | ipv6 address' colon' slash' =>
        refine absurd ?_ bracket
        change text = '[' :: _ at heq
        rw [heq]
        exact List.mem_cons_self
    | ipv6 address colon slash =>
      cases h' with
      | name text' colon' slash' bracket' =>
        refine absurd ?_ bracket'
        change '[' :: _ = text' at heq
        rw [← heq]
        exact List.mem_cons_self
      | ipv6 address' colon' slash' =>
        exact Or.inr ⟨address, address', rfl, rfl, (List.cons.inj heq).2⟩
  · rintro (htext | ⟨x, x', hx, hx', hgroup⟩)
    · exact cut_of_text htext
    · rw [(ipv6_forms hx).2, (ipv6_forms hx').2, hgroup]

theorem text_of_address {h h' : Host} {x x' : Str} (hx : h.ipv6Address? = some x)
    (hx' : h'.ipv6Address? = some x') : h.text = h'.text ↔ x = x' := by
  rw [(ipv6_forms hx).1, (ipv6_forms hx').1]
  refine ⟨fun heq => ?_, fun heq => by rw [heq]⟩
  exact List.append_cancel_right (List.cons.inj heq).2

theorem key_identifies_iff (a a' : Addition) :
    (a.key = a'.key ↔ a.SameResource a') ↔ a.Apart a' := by
  rw [key_eq_iff, cut_eq_iff]
  unfold Addition.SameResource
  constructor
  · intro h x x' hx hx' hpath hgroup
    exact (text_of_address hx hx').mp (h.mp ⟨Or.inr ⟨x, x', hx, hx', hgroup⟩, hpath⟩).1
  · intro h
    refine ⟨?_, fun hsame => ⟨Or.inl hsame.1, hsame.2⟩⟩
    rintro ⟨htext | ⟨x, x', hx, hx', hgroup⟩, hpath⟩
    · exact ⟨htext, hpath⟩
    · exact ⟨(text_of_address hx hx').mpr (h x x' hx hx' hpath hgroup), hpath⟩

theorem addTo_responses (b : QuailServerBackend) (a : Addition) (key : Str) :
    key ∈ (a.addTo b).responses ↔ key ∈ b.responses ∨ a.key = key := by
  unfold Addition.addTo addResponseImpl
  rw [← Finmap.lookup_isSome, FirstWrite.lookup_insertNew, ← Finmap.lookup_isSome]
  change _ ↔ _ ∨ getKey a.authority.text a.path = key
  by_cases hkey : getKey a.authority.text a.path = key
  · simp [hkey]
  · simp [hkey]

theorem stored_iff (b : QuailServerBackend) (adds : List Addition) (key : Str) :
    key ∈ (adds.foldl Addition.addTo b).responses ↔
      key ∈ b.responses ∨ ∃ a ∈ adds, a.key = key := by
  induction adds generalizing b with
  | nil => simp
  | cons a adds ih =>
    rw [List.foldl_cons, ih, addTo_responses]
    simp only [List.exists_mem_cons_iff]
    exact or_assoc

/-- The keys of a new store identify the resources exactly when no two of them are IPv6 literals
    with the same first group, another address and the same path. -/
theorem keys_identify_iff (g d : Option QuicBackendResponse) (adds : List Addition) :
    KeysIdentify (new g d) adds ↔ ∀ a ∈ adds, ∀ a' ∈ adds, a.Apart a' := by
  constructor
  · intro h a ha a' ha'
    exact (key_identifies_iff a a').mp (h.keys a ha a' ha')
  · intro h
    have hkeys : ∀ a ∈ adds, ∀ a' ∈ adds, a.key = a'.key ↔ a.SameResource a' :=
      fun a ha a' ha' => (key_identifies_iff a a').mpr (h a ha a' ha')
    refine ⟨hkeys, ?_⟩
    rintro before a after rfl hrejected
    rcases (stored_iff (new g d) before a.key).mp hrejected with hnew | ⟨a', ha', heq⟩
    · exact absurd hnew Finmap.notMem_empty
    · have hmem : a' ∈ before ++ a :: after := List.mem_append_left _ ha'
      have hself : a ∈ before ++ a :: after := List.mem_append_right _ List.mem_cons_self
      exact ⟨a', ha', (hkeys a' hmem a hself).mp heq⟩

def ipv6Page (address : Str) (colon : ':' ∈ address) (slash : '/' ∉ address) : Addition where
  authority := ⟨.ipv6 address colon slash, some "443".toList⟩
  path := "/index".toList
  path_start := Or.inr rfl
  responseType := .regularResponse
  responseHeaders := ∅
  responseBody := []
  responseTrailers := ∅
  earlyHints := []

def firstHost : Addition := ipv6Page "2001:db8::1".toList (by decide) (by decide)

def secondHost : Addition := ipv6Page "2001:db8::2".toList (by decide) (by decide)

theorem second_host_rejected :
    firstHost.key = "[2001/index".toList ∧ secondHost.Rejected (firstHost.addTo (new none none)) ∧
      ¬ firstHost.SameResource secondHost ∧
      ¬ KeysIdentify (new none none) [firstHost, secondHost] := by
  have hkey : firstHost.key = secondHost.key := by decide
  have hdiffer : ¬ firstHost.SameResource secondHost := fun hsame => absurd hsame.1 (by decide)
  refine ⟨by decide, ?_, hdiffer, fun h => hdiffer ?_⟩
  · exact (addTo_responses _ _ _).mpr (Or.inr hkey)
  · exact (h.keys firstHost (by simp) secondHost (by simp)).mp hkey

end QuailServer.StoreKeys
