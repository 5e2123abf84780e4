import Mathlib.Data.Finset.Insert
import QuailServer.HeaderBlock
import QuailServer.Library.TextReplace

set_option autoImplicit false

namespace QuailServer.UriTemplates
open HeaderBlock TextReplace

structure BraceFree (s : Str) : Prop where
  opening : '{' ∉ s
  closing : '}' ∉ s

/-- `url::EncodeURIComponent`, which escapes braces. -/
structure UriEncoder where
  encodeURIComponent : Str → Str
  braceFree : ∀ value, BraceFree (encodeURIComponent value)

def nameInput (name : Str) : Str := '{' :: (name ++ ['}'])

def replaceParameter (u : UriEncoder) (s : Finset Str × Str) (pair : Str × Str) : Finset Str × Str :=
  let replaced := replaceAll (nameInput pair.1) (u.encodeURIComponent pair.2) s.2
  (if 0 < replaced.2 then insert pair.1 s.1 else s.1, replaced.1)

def removeVariables (result : Str) : Option Str :=
  match _hstart : result.idxOf? '{' with
  | none => some result
  | some start =>
    match result.idxOf? '}' with
    | none => none
    | some stop =>
      if stop ≤ start then none
      else removeVariables (result.take start ++ result.drop (start + (stop - start + 1)))
termination_by result.length
decreasing_by
  have hlt : start < result.length :=
    (List.findIdx?_eq_some_iff_findIdx_eq.mp _hstart).1
  rw [List.length_append, List.length_take, List.length_drop]
  omega

/-- The parameters are in the order in which the hash map is iterated. Without a result the
    outputs stay as they are. -/
def expandURITemplateImpl (u : UriEncoder) (uriTemplate : Str) (parameters : List (Str × Str)) :
    Option (Str × Finset Str) :=
  let s := parameters.foldl (replaceParameter u) (∅, uriTemplate)
  (removeVariables s.2).map fun target => (target, s.1)

theorem removeVariables_plain {s : Str} (h : '{' ∉ s) : removeVariables s = some s := by
  have hnone : s.idxOf? '{' = none := List.idxOf?_eq_none_iff.mpr h
  rw [removeVariables]
  split
  · rfl
  · next start hstart => exact absurd (hnone.symm.trans hstart) (by simp)

theorem removeVariables_opening {p : Str} (hp : '{' ∉ p) (rest : Str) :
    removeVariables (p ++ '{' :: rest) = ((p ++ '{' :: rest).idxOf? '}').bind fun stop =>
      if stop ≤ p.length then none
      else removeVariables (p ++ (p ++ '{' :: rest).drop (p.length + (stop - p.length + 1))) := by
  have hopening := TextSearch.idxOf?_append_cons hp rest
  conv_lhs => rw [removeVariables]
  split
  · next hstart => exact absurd (hopening.symm.trans hstart) (by simp)
  · next start hstart =>
    obtain rfl : p.length = start := Option.some.inj (hopening.symm.trans hstart)
    rw [List.take_left]
    cases (p ++ '{' :: rest).idxOf? '}' with
    | none => rfl
    | some stop => rfl

theorem removeVariables_variable {p name : Str} (hp : BraceFree p) (hname : '}' ∉ name) (rest : Str) :
    removeVariables (p ++ nameInput name ++ rest) = removeVariables (p ++ rest) := by
  have habsent : '}' ∉ p ++ '{' :: name := by
    simp only [List.mem_append, List.mem_cons, not_or]
    exact ⟨hp.closing, by decide, hname⟩
  have hsplit : p ++ '{' :: (name ++ '}' :: rest) = (p ++ '{' :: name) ++ '}' :: rest := by
    rw [List.append_assoc, List.cons_append]
  have hclosing : (p ++ '{' :: (name ++ '}' :: rest)).idxOf? '}' = some (p.length + (name.length + 1)) := by
    rw [hsplit, TextSearch.idxOf?_append_cons habsent, List.length_append, List.length_cons]
  have hdrop : (p ++ '{' :: (name ++ '}' :: rest)).drop (p.length + (name.length + 1 + 1)) = rest := by
    have hclosed : p ++ '{' :: (name ++ '}' :: rest) = (p ++ nameInput name) ++ rest := by
      simp [nameInput]
    have hlength : (p ++ nameInput name).length = p.length + (name.length + 1 + 1) := by
      simp [nameInput]
    rw [hclosed, ← hlength, List.drop_left]
  have hwhole : p ++ nameInput name ++ rest = p ++ '{' :: (name ++ '}' :: rest) := by simp [nameInput]
  rw [hwhole, removeVariables_opening hp.opening, hclosing, Option.bind_some, if_neg (by omega),
    Nat.add_sub_cancel_left, hdrop]

theorem removeVariables_first {p rest r : Str} (hp : '{' ∉ p)
    (h : removeVariables (p ++ '{' :: rest) = some r) :
    '}' ∉ p ∧ ∃ name rest', rest = name ++ '}' :: rest' ∧ '}' ∉ name := by
  rw [removeVariables_opening hp] at h
  obtain ⟨stop, hstop, hturn⟩ := Option.bind_eq_some_iff.mp h
  have hlate : p.length < stop := by
    by_contra hearly
    rw [if_pos (not_lt.mp hearly)] at hturn
    cases hturn
  have hbefore : '}' ∉ p := by
    intro hmem
    obtain ⟨p₁, p₂, rfl, habsent⟩ := List.eq_append_cons_of_mem hmem
    rw [List.append_assoc, List.cons_append, TextSearch.idxOf?_append_cons habsent] at hstop
    obtain rfl := Option.some.inj hstop
    rw [List.length_append] at hlate
    omega
  have hmem : '}' ∈ p ++ '{' :: rest := by
    by_contra habsent
    rw [List.idxOf?_eq_none_iff.mpr habsent] at hstop
    cases hstop
  have hrest : '}' ∈ rest := by
    simp only [List.mem_append, List.mem_cons] at hmem
    rcases hmem with hmem | hmem | hmem
    · exact absurd hmem hbefore
    · exact absurd hmem (by decide)
    · exact hmem
  obtain ⟨name, rest', heq, hname⟩ := List.eq_append_cons_of_mem hrest
  exact ⟨hbefore, name, rest', heq, hname⟩

theorem BraceFree.append {p q : Str} (hp : BraceFree p) (hq : BraceFree q) : BraceFree (p ++ q) where
  opening := by
    rw [List.mem_append, not_or]
    exact ⟨hp.opening, hq.opening⟩
  closing := by
    rw [List.mem_append, not_or]
    exact ⟨hp.closing, hq.closing⟩

/-- The texts that the loop accepts, with what it leaves of them: plain texts, each followed by a
    variable, and at the end a text without an opening brace. -/
inductive Stripped : Str → Str → Prop where
  | last (s : Str) (opening : '{' ∉ s) : Stripped s s
  | cut (p name rest result : Str) (plain : BraceFree p) (closing : '}' ∉ name)
      (h : Stripped rest result) : Stripped (p ++ nameInput name ++ rest) (p ++ result)

theorem Stripped.insert {p name rest r : Str} (hp : BraceFree p) (hname : '}' ∉ name)
    (h : Stripped (p ++ rest) r) : Stripped (p ++ nameInput name ++ rest) r := by
  generalize htext : p ++ rest = s at h
  cases h with
  | last s opening =>
    subst htext
    have hrest : '{' ∉ rest := fun hmem => opening (List.mem_append_right p hmem)
    exact .cut p name rest rest hp hname (.last rest hrest)
  | cut p' name' rest' r' hp' hname' h =>
    have hafter : ∃ q, p' = p ++ q ∧ rest = q ++ nameInput name' ++ rest' := by
      rw [List.append_assoc] at htext
      rcases List.append_eq_append_iff.mp htext with ⟨q, hq, hrest⟩ | ⟨q, hq, hrest⟩
      · exact ⟨q, hq, by rw [hrest, List.append_assoc]⟩
      · cases q with
        | nil => exact ⟨[], by simp [hq], by simpa using hrest.symm⟩
        | cons c q =>
          -- The opening brace would be in the plain beginning.
          injection hrest with hc
          subst hc
          exact absurd (hq ▸ List.mem_append_right p' List.mem_cons_self) hp.opening
    obtain ⟨q, rfl, rfl⟩ := hafter
    have hq : BraceFree q :=
      ⟨fun hmem => hp'.opening (List.mem_append_right p hmem),
        fun hmem => hp'.closing (List.mem_append_right p hmem)⟩
    have hrest := Stripped.cut q name' rest' r' hq hname' h
    rw [List.append_assoc p q]
    exact .cut p name _ (q ++ r') hp hname hrest

theorem removeVariables_stripped {s r : Str} (h : Stripped s r) :
    ∀ {p : Str}, BraceFree p → removeVariables (p ++ s) = some (p ++ r) := by
  induction h with
  | last s opening =>
    intro p hp
    refine removeVariables_plain ?_
    rw [List.mem_append, not_or]
    exact ⟨hp.opening, opening⟩
  | cut q name rest r hq hname _ ih =>
    intro p hp
    have hturn := removeVariables_variable (hp.append hq) hname rest
    rw [List.append_assoc, List.append_assoc p q] at hturn
    rw [List.append_assoc q, hturn, ← List.append_assoc p q, ih (hp.append hq),
      List.append_assoc]

/-- The loop fails on any other text, and it always ends. -/
theorem removeVariables_iff (s r : Str) : removeVariables s = some r ↔ Stripped s r := by
  refine ⟨fun h => ?_, fun h => removeVariables_stripped h ⟨List.not_mem_nil, List.not_mem_nil⟩⟩
  induction hlen : s.length using Nat.strong_induction_on generalizing s with
  | _ n ih =>
    by_cases hopening : '{' ∈ s
    · obtain ⟨p, rest, rfl, hp⟩ := List.eq_append_cons_of_mem hopening
      obtain ⟨hclosing, name, rest', rfl, hname⟩ := removeVariables_first hp h
      have hwhole : p ++ '{' :: (name ++ '}' :: rest') = p ++ nameInput name ++ rest' := by
        simp [nameInput]
      rw [hwhole] at h hlen ⊢
      rw [removeVariables_variable ⟨hp, hclosing⟩ hname] at h
      have hless : (p ++ rest').length < n := by
        rw [← hlen]
        simp only [List.length_append, nameInput, List.length_cons]
        omega
      exact (ih _ hless _ h rfl).insert ⟨hp, hclosing⟩ hname
    · rw [removeVariables_plain hopening] at h
      obtain rfl := Option.some.inj h
      exact .last s hopening

inductive Segment where
  | text (literal : Str) (plain : BraceFree literal)
  | var (name : Str) (plain : BraceFree name)

def Segment.render : Segment → Str
  | .text literal _ => literal
  | .var name _ => nameInput name

def render (template : List Segment) : Str := template.flatMap Segment.render

/-- The value of each variable, with none for what the parameters do not have. -/
def Segment.value (u : UriEncoder) (parameters : Str → Option Str) : Segment → Str
  | .text literal _ => literal
  | .var name _ => ((parameters name).map u.encodeURIComponent).getD []

def Segment.Names (name : Str) : Segment → Prop
  | .text _ _ => False
  | .var other _ => other = name

def Segment.fill (u : UriEncoder) (pair : Str × Str) : Segment → Segment
  | .text literal plain => .text literal plain
  | .var name plain =>
    if name = pair.1 then .text (u.encodeURIComponent pair.2) (u.braceFree pair.2)
    else .var name plain

variable {u : UriEncoder} {pair : Str × Str}

theorem render_cons (x : Segment) (template : List Segment) :
    render (x :: template) = x.render ++ render template := rfl

/-- A name that cannot close early is found in the variables of this name only. -/
theorem replaceAll_variable (hname : '}' ∉ pair.1) (name : Str) (plain : BraceFree name)
    (new rest : Str) (hne : name ≠ pair.1) :
    replaceAll (nameInput pair.1) new (nameInput name ++ rest) =
      (nameInput name ++ (replaceAll (nameInput pair.1) new rest).1,
        (replaceAll (nameInput pair.1) new rest).2) := by
  have hother : ¬ nameInput pair.1 <+: '{' :: ((name ++ ['}']) ++ rest) := by
    rintro ⟨t, ht⟩
    have hsplit : pair.1 ++ '}' :: t = name ++ '}' :: rest := by
      simpa [nameInput] using ht
    exact hne (TextSearch.append_cons_inj hname plain.closing hsplit).1.symm
  have habsent : '{' ∉ name ++ ['}'] := by
    rw [List.mem_append, not_or]
    exact ⟨plain.opening, by decide⟩
  change replaceAll (nameInput pair.1) new ('{' :: ((name ++ ['}']) ++ rest)) = _
  rw [replaceAll_other hother]
  unfold nameInput
  rw [replaceAll_absent habsent]
  rfl

theorem replaceAll_render (hname : '}' ∉ pair.1) (template : List Segment) :
    (replaceAll (nameInput pair.1) (u.encodeURIComponent pair.2) (render template)).1 =
        render (template.map (Segment.fill u pair)) ∧
      (0 < (replaceAll (nameInput pair.1) (u.encodeURIComponent pair.2) (render template)).2 ↔
        ∃ x ∈ template, x.Names pair.1) := by
  induction template with
  | nil => exact ⟨rfl, by simp [render, replaceAll, replaceFrom]⟩
  | cons x template ih =>
    obtain ⟨htext, hcount⟩ := ih
    rw [render_cons, List.map_cons, render_cons]
    cases x with
    | text literal plain =>
      have hpass := replaceAll_absent plain.opening (pair.1 ++ ['}'])
        (u.encodeURIComponent pair.2) (render template)
      refine ⟨(congrArg Prod.fst hpass).trans (congrArg (literal ++ ·) htext), ?_⟩
      refine (Eq.to_iff (congrArg (fun r => 0 < Prod.snd r) hpass)).trans (hcount.trans ?_)
      simp [Segment.Names]
    | var name plain =>
      by_cases hsame : name = pair.1
      · subst hsame
        have hhere := replaceAll_here '{' (pair.1 ++ ['}']) (u.encodeURIComponent pair.2)
          (render template)
        rw [Segment.fill, if_pos rfl]
        refine ⟨(congrArg Prod.fst hhere).trans (congrArg (u.encodeURIComponent pair.2 ++ ·) htext), ?_⟩
        refine iff_of_true ?_ ⟨_, List.mem_cons_self, rfl⟩
        exact (congrArg Prod.snd hhere).symm ▸ Nat.succ_pos _
      · have hpass := replaceAll_variable hname name plain (u.encodeURIComponent pair.2)
          (render template) hsame
        rw [Segment.fill, if_neg hsame]
        refine ⟨(congrArg Prod.fst hpass).trans (congrArg (nameInput name ++ ·) htext), ?_⟩
        refine (Eq.to_iff (congrArg (fun r => 0 < Prod.snd r) hpass)).trans (hcount.trans ?_)
        simp [Segment.Names, hsame]

/-- The pairs of a hash map, in some order. -/
structure Iterates (parameters : Str → Option Str) (pairs : List (Str × Str)) : Prop where
  distinct : (pairs.map Prod.fst).Nodup
  complete : ∀ name value, (name, value) ∈ pairs ↔ parameters name = some value

theorem Iterates.lookup {parameters : Str → Option Str} {pairs : List (Str × Str)}
    (h : Iterates parameters pairs) : (fun name => pairs.lookup name) = parameters := by
  funext name
  cases hlookup : pairs.lookup name with
  | none =>
    cases hvalue : parameters name with
    | none => rfl
    | some value =>
      have hmem := (h.complete name value).mpr hvalue
      have hne := List.lookup_eq_none_iff.mp hlookup _ hmem
      simp at hne
  | some value =>
    obtain ⟨before, after, heq, -⟩ := List.lookup_eq_some_iff.mp hlookup
    exact ((h.complete name value).mp (heq ▸ List.mem_append_right before List.mem_cons_self)).symm

theorem value_fill (pairs : List (Str × Str)) (x : Segment) :
    x.value u (fun name => (pair :: pairs).lookup name) =
      (x.fill u pair).value u fun name => pairs.lookup name := by
  obtain ⟨key, value⟩ := pair
  cases x with
  | text literal plain => rfl
  | var name plain =>
    by_cases hsame : name = key
    · subst hsame
      rw [Segment.fill, if_pos rfl]
      simp [Segment.value]
    · have hkey : (name == key) = false := beq_false_of_ne hsame
      rw [Segment.fill, if_neg hsame]
      simp [Segment.value, List.lookup_cons, hkey]

theorem names_fill {name : Str} (hne : name ≠ pair.1) (x : Segment) :
    (x.fill u pair).Names name ↔ x.Names name := by
  cases x with
  | text literal plain => rfl
  | var other plain =>
    by_cases hsame : other = pair.1
    · rw [Segment.fill, if_pos hsame]
      exact iff_of_false id fun heq => hne (heq.symm.trans hsame)
    · rw [Segment.fill, if_neg hsame]

theorem replaceParameter_found (hname : '}' ∉ pair.1) (template : List Segment)
    (found : Finset Str) (name : Str) :
    name ∈ (replaceParameter u (found, render template) pair).1 ↔
      name ∈ found ∨ name = pair.1 ∧ ∃ x ∈ template, x.Names pair.1 := by
  obtain ⟨-, hcount⟩ := replaceAll_render (u := u) hname template
  change name ∈ (if 0 < _ then _ else _) ↔ _
  by_cases hreplaced : ∃ x ∈ template, x.Names pair.1
  · rw [if_pos (hcount.mpr hreplaced), Finset.mem_insert, and_iff_left hreplaced, or_comm]
  · rw [if_neg (mt hcount.mp hreplaced), or_iff_left fun h => hreplaced h.2]

theorem replaceParameters (pairs : List (Str × Str)) (distinct : (pairs.map Prod.fst).Nodup)
    (hnames : ∀ pair ∈ pairs, '}' ∉ pair.1) (template : List Segment) (found : Finset Str) :
    ∃ filled found', pairs.foldl (replaceParameter u) (found, render template) = (found', render filled) ∧
      filled.flatMap (Segment.value u fun _ => none) =
        template.flatMap (Segment.value u fun name => pairs.lookup name) ∧
      ∀ name, name ∈ found' ↔
        name ∈ found ∨ name ∈ pairs.map Prod.fst ∧ ∃ x ∈ template, x.Names name := by
  induction pairs generalizing template found with
  | nil => exact ⟨template, found, rfl, rfl, fun name => by simp⟩
  | cons pair pairs ih =>
    obtain ⟨hnew, hdistinct⟩ := List.nodup_cons.mp distinct
    have hname := hnames pair List.mem_cons_self
    obtain ⟨htext, -⟩ := replaceAll_render (u := u) hname template
    obtain ⟨filled, found', hloop, hvalues, hfound⟩ := ih hdistinct
      (fun p hp => hnames p (List.mem_cons_of_mem pair hp)) (template.map (Segment.fill u pair))
      (replaceParameter u (found, render template) pair).1
    refine ⟨filled, found', ?_, ?_, fun name => ?_⟩
    · rw [List.foldl_cons, ← hloop]
      exact congrArg (fun text => pairs.foldl (replaceParameter u) (_, text)) htext
    · rw [hvalues, List.flatMap_map]
      exact congrArg (template.flatMap ·) (funext fun x => (value_fill pairs x).symm)
    · rw [hfound, replaceParameter_found hname, or_assoc, List.map_cons, List.mem_cons, or_and_right]
      refine or_congr_right (or_congr ?_ (and_congr_right fun hmem => ?_))
      · exact and_congr_right fun heq => by rw [heq]
      · have hne : name ≠ pair.1 := fun heq => hnew (heq ▸ hmem)
        simp only [List.mem_map, exists_exists_and_eq_and, names_fill hne]

theorem Stripped.plain_append {p s r : Str} (hp : BraceFree p) (h : Stripped s r) :
    Stripped (p ++ s) (p ++ r) := by
  cases h with
  | last s opening =>
    refine .last _ ?_
    rw [List.mem_append, not_or]
    exact ⟨hp.opening, opening⟩
  | cut q name rest r hq hname h =>
    rw [← List.append_assoc p q r, List.append_assoc q, ← List.append_assoc p q,
      ← List.append_assoc (p ++ q)]
    exact .cut (p ++ q) name rest r (hp.append hq) hname h

theorem render_stripped (u : UriEncoder) (template : List Segment) :
    Stripped (render template) (template.flatMap (Segment.value u fun _ => none)) := by
  induction template with
  | nil => exact .last [] List.not_mem_nil
  | cons x template ih =>
    rw [render_cons, List.flatMap_cons]
    cases x with
    | text literal plain => exact ih.plain_append plain
    | var name plain => exact .cut [] name _ _ ⟨List.not_mem_nil, List.not_mem_nil⟩ plain.closing ih

/-- Every variable becomes the escaped value of its parameter, or nothing, in whatever order the
    parameters come. -/
theorem expand_template (u : UriEncoder) (template : List Segment) {parameters : Str → Option Str}
    {pairs : List (Str × Str)} (hpairs : Iterates parameters pairs)
    (hnames : ∀ name, parameters name ≠ none → '}' ∉ name) :
    ∃ found, expandURITemplateImpl u (render template) pairs =
        some (template.flatMap (Segment.value u parameters), found) ∧
      ∀ name, name ∈ found ↔ parameters name ≠ none ∧ ∃ x ∈ template, x.Names name := by
  have hkeys : ∀ name, name ∈ pairs.map Prod.fst ↔ parameters name ≠ none := by
    intro name
    simp [hpairs.complete, Option.ne_none_iff_exists']
  obtain ⟨filled, found, hloop, hvalues, hfound⟩ := replaceParameters (u := u) pairs hpairs.distinct
    (fun pair hp => hnames pair.1 ((hkeys pair.1).mp (List.mem_map_of_mem hp))) template ∅
  have hremoved := (removeVariables_iff _ _).mpr (render_stripped u filled)
  refine ⟨found, ?_, fun name => ?_⟩
  · unfold expandURITemplateImpl
    rw [hloop]
    dsimp only
    rw [hremoved, hvalues, hpairs.lookup]
    rfl
  · rw [hfound, hkeys, or_iff_right (Finset.notMem_empty name)]

def escape (c : Char) : Str :=
  if c.isAlphanum then [c]
  else '%' :: (Nat.toDigits 16 c.toNat).map fun digit => if digit.isAlphanum then digit else '0'

theorem escape_chars {c d : Char} (h : d ∈ escape c) : d.isAlphanum = true ∨ d = '%' := by
  unfold escape at h
  split at h
  · next halpha => exact Or.inl (List.mem_singleton.mp h ▸ halpha)
  · rcases List.mem_cons.mp h with hpercent | hdigit
    · exact Or.inr hpercent
    · obtain ⟨digit, -, rfl⟩ := List.mem_map.mp hdigit
      left
      split
      · assumption
      · rfl

def plainEncoder : UriEncoder where
  encodeURIComponent value := value.flatMap escape
  braceFree value := by
    have hchars : ∀ d ∈ value.flatMap escape, d.isAlphanum = true ∨ d = '%' := by
      intro d hd
      obtain ⟨c, -, hc⟩ := List.mem_flatMap.mp hd
      exact escape_chars hc
    exact ⟨fun hmem => absurd (hchars _ hmem) (by decide), fun hmem => absurd (hchars _ hmem) (by decide)⟩

theorem expand_template_host :
    ∃ found, expandURITemplateImpl plainEncoder "/{host}{port}/{host}".toList
        [("host".toList, "a b".toList)] = some ("/a%20b/a%20b".toList, found) ∧
      "host".toList ∈ found ∧ "port".toList ∉ found := by
  let host : Segment := .var "host".toList ⟨by decide, by decide⟩
  let slash : Segment := .text "/".toList ⟨by decide, by decide⟩
  let template : List Segment := [slash, host, .var "port".toList ⟨by decide, by decide⟩, slash, host]
  let parameters : Str → Option Str :=
    fun name => if name = "host".toList then some "a b".toList else none
  have hpairs : Iterates parameters [("host".toList, "a b".toList)] := by
    refine ⟨List.nodup_singleton _, fun name value => ?_⟩
    simp only [List.mem_singleton, Prod.mk.injEq, parameters]
    split
    · next heq => simp [heq, eq_comm]
    · next hne => exact iff_of_false (fun h => hne h.1) (by simp)
  have hnames : ∀ name, parameters name ≠ none → '}' ∉ name := by
    intro name hname
    have heq : name = "host".toList := by
      by_contra hne
      exact hname (if_neg hne)
    rw [heq]
    decide
  obtain ⟨found, hexpand, hfound⟩ := expand_template plainEncoder template hpairs hnames
  refine ⟨found, hexpand, (hfound _).mpr ⟨by decide, host, ?_, rfl⟩, fun hmem => ?_⟩
  · exact List.mem_cons_of_mem slash List.mem_cons_self
  · exact absurd ((hfound _).mp hmem).1 (by decide)

end QuailServer.UriTemplates
