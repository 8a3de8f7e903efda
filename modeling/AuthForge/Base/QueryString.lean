import Mathlib.Data.List.Perm.Subperm
import Mathlib.Data.List.TakeWhile

/-!
# Query strings

What the receiver of a location reads out of it, on bytes. The query stands behind the first `?` and
before the first `#`. It is cut at every `&`, and an empty piece is dropped. Name and value of a
parameter are cut at the first `=` and decoded.
-/

namespace AuthForge.QueryString

abbrev Parameter := List UInt8 × List UInt8

def fragmentMark : UInt8 := 35
def percentMark : UInt8 := 37
def separator : UInt8 := 38
def plusMark : UInt8 := 43
def equalsMark : UInt8 := 61
def queryMark : UInt8 := 63

/-! ### Decoding -/

def hexValue (b : UInt8) : Option UInt8 :=
  if 48 ≤ b ∧ b ≤ 57 then some (b - 48)
  else if 65 ≤ b ∧ b ≤ 70 then some (b - 55)
  else if 97 ≤ b ∧ b ≤ 102 then some (b - 87)
  else none

/-- The byte that `%` with two more bytes stands for, if these are hexadecimal digits. -/
def escaped (b high low : UInt8) : Option UInt8 :=
  if b = percentMark then
    match hexValue high, hexValue low with
    | some x, some y => some (16 * x + y)
    | _, _ => none
  else none

def plain (b : UInt8) : UInt8 := if b = plusMark then 32 else b

/-- A `+` is a blank, an escape a byte, and anything else stands for itself. -/
def decode : List UInt8 → List UInt8
  | [] => []
  | [b] => [plain b]
  | [b, c] => [plain b, plain c]
  | b :: high :: low :: rest =>
    match escaped b high low with
    | some c => c :: decode rest
    | none => plain b :: decode (high :: low :: rest)

@[simp] theorem decode_nil : decode [] = [] := rfl

theorem decode_cons_of_ne {b : UInt8} (h : b ≠ percentMark) (s : List UInt8) :
    decode (b :: s) = plain b :: decode s := by
  match s with
  | [] => rfl
  | [c] => rfl
  | high :: low :: rest => rw [decode, escaped, if_neg h]

theorem decode_escape {high low x y : UInt8} (hx : hexValue high = some x)
    (hy : hexValue low = some y) (rest : List UInt8) :
    decode (percentMark :: high :: low :: rest) = (16 * x + y) :: decode rest := by
  rw [decode, escaped, if_pos rfl, hx, hy]

theorem length_decode_le (s : List UInt8) : (decode s).length ≤ s.length := by
  fun_induction decode s with
  | case1 => exact Nat.le_refl 0
  | case2 => exact Nat.le_refl 1
  | case3 => exact Nat.le_refl 2
  | case4 b high low rest c _ ih =>
    simp only [List.length_cons]
    omega
  | case5 b high low rest _ ih =>
    simp only [List.length_cons] at ih ⊢
    omega

section Kept

variable {b : UInt8} (hhex : hexValue b = none) (hpercent : b ≠ percentMark)
  (hplus : b ≠ plusMark) (after : List UInt8)
include hhex hpercent hplus

/-- A byte that can be no part of an escape is in the decoded text. -/
theorem mem_decode : ∀ before : List UInt8, b ∈ decode (before ++ b :: after)
  | [] => by
    rw [List.nil_append, decode_cons_of_ne hpercent, plain, if_neg hplus]
    exact List.mem_cons_self
  | [c] => by
    have ih := mem_decode []
    rw [List.nil_append] at ih
    cases after with
    | nil =>
      change b ∈ [plain c, plain b]
      rw [show plain b = b from if_neg hplus]
      exact List.mem_cons_of_mem _ List.mem_cons_self
    | cons low rest =>
      have hnone : escaped c b low = none := by
        unfold escaped
        rw [hhex]
        split <;> rfl
      change b ∈ decode (c :: b :: low :: rest)
      rw [decode, hnone]
      exact List.mem_cons_of_mem _ ih
  | [c, d] => by
    have ih := mem_decode [d]
    have hnone : escaped c d b = none := by
      unfold escaped
      rw [hhex]
      split
      · split
        · rename_i heq
          cases heq
        · rfl
      · rfl
    change b ∈ decode (c :: d :: b :: after)
    rw [decode, hnone]
    exact List.mem_cons_of_mem _ ih
  | c :: d :: e :: before => by
    change b ∈ decode (c :: d :: e :: (before ++ b :: after))
    rw [decode]
    split
    · exact List.mem_cons_of_mem _ (mem_decode before)
    · exact List.mem_cons_of_mem _ (mem_decode (d :: e :: before))

end Kept

/-- What ends in a query mark and a name is never decoded to that name. -/
theorem decode_append_queryMark_ne (before : List UInt8) {name : List UInt8}
    (h : queryMark ∉ name) : decode (before ++ queryMark :: name) ≠ name := by
  intro heq
  refine h ?_
  rw [← heq]
  exact mem_decode rfl (by decide) (by decide) name before

/-! ### Parameters -/

def withoutFragment (location : List UInt8) : List UInt8 :=
  location.takeWhile (· ≠ fragmentMark)

def query (location : List UInt8) : List UInt8 :=
  ((withoutFragment location).dropWhile (· ≠ queryMark)).tail

def parameter (segment : List UInt8) : Parameter :=
  (decode (segment.takeWhile (· ≠ equalsMark)),
    decode (segment.dropWhile (· ≠ equalsMark)).tail)

def parameters (q : List UInt8) : List Parameter :=
  ((q.splitOn separator).filter (· ≠ [])).map parameter

@[simp] theorem parameters_nil : parameters [] = [] := rfl

theorem parameters_append_separator (p q : List UInt8) :
    parameters (p ++ separator :: q) = parameters p ++ parameters q := by
  simp [parameters, List.splitOn_append_cons_self]

theorem parameters_segment {s : List UInt8} (hne : s ≠ []) (h : separator ∉ s) :
    parameters s = [parameter s] := by
  simp [parameters, List.splitOn_eq_singleton h, hne]

theorem takeWhile_append_of_notMem {a : UInt8} {s : List UInt8} (h : a ∉ s) (t : List UInt8) :
    (s ++ t).takeWhile (· ≠ a) = s ++ t.takeWhile (· ≠ a) := by
  refine List.takeWhile_append_of_pos ?_
  intro b hb
  simpa using ne_of_mem_of_not_mem hb h

theorem dropWhile_append_of_notMem {a : UInt8} {s : List UInt8} (h : a ∉ s) (t : List UInt8) :
    (s ++ t).dropWhile (· ≠ a) = t.dropWhile (· ≠ a) := by
  refine List.dropWhile_append_of_pos ?_
  intro b hb
  simpa using ne_of_mem_of_not_mem hb h

theorem withoutFragment_of_notMem {s : List UInt8} (h : fragmentMark ∉ s) :
    withoutFragment s = s := by
  have hs := takeWhile_append_of_notMem h []
  rwa [List.append_nil, List.takeWhile_nil, List.append_nil] at hs

theorem withoutFragment_append_of_mem {s : List UInt8} (h : fragmentMark ∈ s) (t : List UInt8) :
    withoutFragment (s ++ t) = withoutFragment s := by
  obtain ⟨before, after, rfl, hbefore⟩ := List.eq_append_cons_of_mem h
  have hcut : ∀ x, withoutFragment (before ++ fragmentMark :: x) = before := by
    intro x
    rw [withoutFragment, takeWhile_append_of_notMem hbefore, List.takeWhile_cons_of_neg (by decide),
      List.append_nil]
  rw [List.append_assoc, List.cons_append, hcut, hcut]

theorem withoutFragment_append_of_notMem {s : List UInt8} (h : fragmentMark ∉ s)
    (t : List UInt8) : withoutFragment (s ++ t) = s ++ withoutFragment t :=
  takeWhile_append_of_notMem h t

theorem withoutFragment_cons {b : UInt8} (h : b ≠ fragmentMark) (t : List UInt8) :
    withoutFragment (b :: t) = b :: withoutFragment t :=
  List.takeWhile_cons_of_pos (by simpa using h)

theorem isPrefix_withoutFragment (s : List UInt8) : withoutFragment s <+: s :=
  List.takeWhile_prefix _

theorem fragmentMark_notMem_withoutFragment (s : List UInt8) :
    fragmentMark ∉ withoutFragment s := by
  intro hmem
  simpa using List.mem_takeWhile_imp hmem

theorem parameter_of_equals {name : List UInt8} (h : equalsMark ∉ name) (raw : List UInt8) :
    parameter (name ++ equalsMark :: raw) = (decode name, decode raw) := by
  unfold parameter
  rw [takeWhile_append_of_notMem h, dropWhile_append_of_notMem h]
  simp

/-- Every text is cut at its first separator, again and again. -/
theorem segments_induction {P : List UInt8 → Prop} (hlast : ∀ s, separator ∉ s → P s)
    (hcut : ∀ s rest, separator ∉ s → P rest → P (s ++ separator :: rest)) (q : List UInt8) :
    P q := by
  by_cases hmem : separator ∈ q
  · obtain ⟨s, rest, rfl, hs⟩ := List.eq_append_cons_of_mem hmem
    exact hcut s rest hs (segments_induction hlast hcut rest)
  · exact hlast q hmem
termination_by q.length
decreasing_by
  subst_vars
  simp only [List.length_append, List.length_cons]
  omega

theorem length_value_le_segment (s : List UInt8) : (parameter s).2.length ≤ s.length := by
  have hdrop : (s.dropWhile (· ≠ equalsMark)).tail.length ≤ s.length :=
    (List.tail_sublist _).length_le.trans (List.dropWhile_sublist _).length_le
  exact (length_decode_le _).trans hdrop

theorem length_value_le {p : Parameter} {q : List UInt8} (h : p ∈ parameters q) :
    p.2.length ≤ q.length := by
  have hsegment : ∀ s, separator ∉ s → p ∈ parameters s → p.2.length ≤ s.length := by
    intro s hs hp
    by_cases hne : s = []
    · rw [hne] at hp
      cases hp
    · rw [parameters_segment hne hs, List.mem_singleton] at hp
      rw [hp]
      exact length_value_le_segment s
  induction q using segments_induction with
  | hlast s hs => exact hsegment s hs h
  | hcut s rest hs ih =>
    rw [parameters_append_separator, List.mem_append] at h
    simp only [List.length_append, List.length_cons]
    rcases h with h | h
    · have := hsegment s hs h
      omega
    · have := ih h
      omega

/-! ### Locations written part by part -/

/-- A parameter that is put into a location: its value, and the text that is written for it. -/
structure Part where
  name : List UInt8
  raw : List UInt8
  value : List UInt8

namespace Part

def text (p : Part) : List UInt8 := p.name ++ equalsMark :: p.raw

def pair (p : Part) : Parameter := (p.name, p.value)

structure Faithful (p : Part) : Prop where
  separator : separator ∉ p.raw
  fragment : fragmentMark ∉ p.raw
  decoded : decode p.raw = p.value

end Part

/-- A name that stands for itself in a query. -/
structure IsName (name : List UInt8) : Prop where
  decoded : decode name = name
  separator : separator ∉ name
  fragment : fragmentMark ∉ name
  equals : equalsMark ∉ name
  query : queryMark ∉ name

def textOf : Part → List Part → List UInt8
  | p, [] => p.text
  | p, q :: rest => p.text ++ separator :: textOf q rest

/-- What was put in is read once each, beside everything the URI had. -/
structure Carries (uri location : List UInt8) (put : List Parameter) : Prop where
  once : ∀ p ∈ put, (parameters (query location)).filter (·.1 = p.1) = [p]
  together : (parameters (query uri) ++ put).Subperm (parameters (query location))

variable {p : Part} {rest : List Part} {uri : List UInt8} {put : List Parameter}

theorem parameters_text_append {raw : List UInt8} (hname : IsName p.name)
    (hraw : separator ∉ raw) :
    parameters (p.name ++ equalsMark :: raw) = [(p.name, decode raw)] := by
  rw [parameters_segment, parameter_of_equals hname.equals, hname.decoded]
  · simp
  · simp only [List.mem_append, List.mem_cons, not_or]
    exact ⟨hname.separator, by decide, hraw⟩

theorem parameters_text (hname : IsName p.name) (hp : p.Faithful) :
    parameters p.text = [p.pair] := by
  rw [Part.text, parameters_text_append hname hp.separator, hp.decoded]
  rfl

theorem parameters_textOf (hparts : ∀ q ∈ p :: rest, IsName q.name ∧ q.Faithful) :
    parameters (textOf p rest) = (p :: rest).map Part.pair := by
  obtain ⟨hname, hp⟩ := hparts p List.mem_cons_self
  induction rest generalizing p with
  | nil => exact parameters_text hname hp
  | cons q rest ih =>
    have hq := hparts q (by simp)
    rw [textOf, parameters_append_separator, parameters_text hname hp,
      ih (fun r hr => hparts r (List.mem_cons_of_mem _ hr)) hq.1 hq.2]
    rfl

theorem fragmentMark_notMem_text (hname : IsName p.name) (hp : fragmentMark ∉ p.raw) :
    fragmentMark ∉ p.text := by
  simp only [Part.text, List.mem_append, List.mem_cons, not_or]
  exact ⟨hname.fragment, by decide, hp⟩

theorem fragmentMark_notMem_textOf (hparts : ∀ q ∈ p :: rest, IsName q.name ∧ q.Faithful) :
    fragmentMark ∉ textOf p rest := by
  obtain ⟨hname, hp⟩ := hparts p List.mem_cons_self
  induction rest generalizing p with
  | nil => exact fragmentMark_notMem_text hname hp.fragment
  | cons q rest ih =>
    have hq := hparts q (by simp)
    simp only [textOf, List.mem_append, List.mem_cons, not_or]
    exact ⟨fragmentMark_notMem_text hname hp.fragment, by decide,
      ih (fun r hr => hparts r (List.mem_cons_of_mem _ hr)) hq.1 hq.2⟩

theorem query_of_notMem (h : queryMark ∉ uri) : query uri = [] := by
  unfold query
  have hcut : queryMark ∉ withoutFragment uri := fun hmem =>
    h ((List.takeWhile_sublist _).subset hmem)
  have hs := dropWhile_append_of_notMem hcut []
  rw [List.append_nil, List.dropWhile_nil] at hs
  rw [hs]
  rfl

/-- A location without a query mark and a fragment gets its query from what is appended. -/
theorem query_append (hquery : queryMark ∉ uri) (hfragment : fragmentMark ∉ uri)
    (q : List UInt8) : query (uri ++ queryMark :: q) = withoutFragment q := by
  unfold query
  rw [withoutFragment_append_of_notMem hfragment, withoutFragment_cons (by decide),
    dropWhile_append_of_notMem hquery]
  simp

theorem filter_name_eq {ps : List Parameter} (hnodup : (ps.map Prod.fst).Nodup) {p : Parameter}
    (hp : p ∈ ps) : ps.filter (·.1 = p.1) = [p] := by
  induction ps with
  | nil => cases hp
  | cons q ps ih =>
    rw [List.map_cons, List.nodup_cons] at hnodup
    rcases List.mem_cons.mp hp with rfl | hp
    · rw [List.filter_cons_of_pos (by simp), List.filter_eq_nil_iff.mpr]
      intro r hr
      have hne : r.1 ≠ p.1 := fun heq => hnodup.1 (heq ▸ List.mem_map_of_mem hr)
      simpa using hne
    · have hne : q.1 ≠ p.1 := fun heq => hnodup.1 (heq ▸ List.mem_map_of_mem hp)
      rw [List.filter_cons_of_neg (by simpa using hne), ih hnodup.2 hp]

/-- Behind a URI without query and fragment, faithfully written parts are read as they are. -/
theorem carries_of_faithful (hquery : queryMark ∉ uri) (hfragment : fragmentMark ∉ uri)
    (hparts : ∀ q ∈ p :: rest, IsName q.name ∧ q.Faithful)
    (hnodup : ((p :: rest).map Part.name).Nodup)
    (hput : put.Sublist ((p :: rest).map Part.pair)) :
    Carries uri (uri ++ queryMark :: textOf p rest) put := by
  have hread : parameters (query (uri ++ queryMark :: textOf p rest)) =
      (p :: rest).map Part.pair := by
    rw [query_append hquery hfragment,
      withoutFragment_of_notMem (fragmentMark_notMem_textOf hparts), parameters_textOf hparts]
  constructor
  · intro r hr
    rw [hread]
    refine filter_name_eq ?_ (hput.subset hr)
    rwa [List.map_map]
  · rw [hread, query_of_notMem hquery]
    exact hput.subperm

/-! ### What has to hold where everything is carried -/

namespace Carries

variable {location : List UInt8} {r : Parameter}

theorem mem (h : Carries uri location put) (hr : r ∈ put) : r ∈ parameters (query location) :=
  h.together.subset (List.mem_append_right _ hr)

/-- A name that was put in once is no name of the URI's own parameters. -/
theorem own_ne (h : Carries uri location put) (hr : r ∈ put) {q : Parameter}
    (hq : q ∈ parameters (query uri)) : q.1 ≠ r.1 := by
  intro heq
  have hcount := (h.together.filter (·.1 = r.1)).length_le
  rw [h.once r hr, List.filter_append, List.length_append, List.length_singleton] at hcount
  have hown : 0 < ((parameters (query uri)).filter (·.1 = r.1)).length :=
    List.length_pos_of_mem (List.mem_filter.mpr ⟨hq, by simpa using heq⟩)
  have hput : 0 < (put.filter (·.1 = r.1)).length :=
    List.length_pos_of_mem (List.mem_filter.mpr ⟨hr, by simp⟩)
  omega

/-- With a fragment in the URI everything that is appended falls into it. -/
theorem fragmentMark_notMem {suffix : List UInt8} (h : Carries uri (uri ++ suffix) put)
    (hr : r ∈ put) : fragmentMark ∉ uri := by
  intro hmem
  have hsame : query (uri ++ suffix) = query uri := by
    unfold query
    rw [withoutFragment_append_of_mem hmem]
  exact h.own_ne hr (hsame ▸ h.mem hr) rfl

end Carries

/-- Text that is appended to a query continues its last segment. -/
theorem exists_lastSegment (q : List UInt8) : ∃ own last,
    (∀ x, parameters (q ++ x) = own ++ parameters (last ++ x)) ∧
    (∀ r ∈ own, r ∈ parameters q) ∧ separator ∉ last ∧
    (equalsMark ∈ last → parameter last ∈ parameters q) := by
  induction q using segments_induction with
  | hlast s hs =>
    refine ⟨[], s, fun x => rfl, by simp, hs, ?_⟩
    intro hequals
    rw [parameters_segment (List.ne_nil_of_mem hequals) hs]
    exact List.mem_singleton_self _
  | hcut s rest hs ih =>
    obtain ⟨own, last, happend, hown, hseparator, hlast⟩ := ih
    refine ⟨parameters s ++ own, last, ?_, ?_, hseparator, ?_⟩
    · intro x
      rw [List.append_assoc, List.cons_append, parameters_append_separator, happend,
        List.append_assoc]
    · intro r hr
      rw [parameters_append_separator]
      rcases List.mem_append.mp hr with hr | hr
      · exact List.mem_append_left _ hr
      · exact List.mem_append_right _ (hown r hr)
    · intro hequals
      rw [parameters_append_separator]
      exact List.mem_append_right _ (hlast hequals)

/-- What stands before the appended text in the query of a location: parameters of the URI, then
text that the first appended parameter continues. -/
structure Lead (uri : List UInt8) (own : List Parameter) (last : List UInt8) : Prop where
  read : ∀ q, parameters (query (uri ++ queryMark :: q)) =
    own ++ parameters (last ++ withoutFragment q)
  own : ∀ r ∈ own, r ∈ parameters (query uri)
  separator : separator ∉ last
  last : (last = [] ∧ queryMark ∉ uri) ∨ ∃ cut, last = cut ++ [queryMark] ∧
    (equalsMark ∈ cut → parameter cut ∈ parameters (query uri))

theorem exists_lead (hfragment : fragmentMark ∉ uri) : ∃ own last, Lead uri own last := by
  by_cases hquery : queryMark ∈ uri
  · obtain ⟨base, q, rfl, hbase⟩ := List.eq_append_cons_of_mem hquery
    simp only [List.mem_append, List.mem_cons, not_or] at hfragment
    obtain ⟨own, last, happend, hown, hseparator, hlast⟩ := exists_lastSegment q
    have huri : query (base ++ queryMark :: q) = q := by
      rw [query_append hbase hfragment.1, withoutFragment_of_notMem hfragment.2.2]
    refine ⟨own, last ++ [queryMark], ?_, ?_, ?_, .inr ⟨last, rfl, ?_⟩⟩
    · intro x
      rw [List.append_assoc, List.cons_append, query_append hbase hfragment.1,
        withoutFragment_append_of_notMem hfragment.2.2, withoutFragment_cons (by decide), happend]
      simp
    · rwa [huri]
    · simp only [List.mem_append, List.mem_singleton, not_or]
      exact ⟨hseparator, by decide⟩
    · rwa [huri]
  · refine ⟨[], [], ?_, by simp, by simp, .inl ⟨rfl, hquery⟩⟩
    intro q
    rw [query_append hquery hfragment]
    rfl

/-- The text of a part up to a fragment mark in it. -/
theorem withoutFragment_part (hname : IsName p.name) (t : List UInt8) :
    withoutFragment (p.name ++ equalsMark :: t) = p.name ++ equalsMark :: withoutFragment t := by
  rw [withoutFragment_append_of_notMem hname.fragment, withoutFragment_cons (by decide)]

/-- A text that continues a query mark gives no parameter of the name, unless what stands before
the mark gives one. -/
theorem equalsMark_mem_of_name (hname : IsName p.name) {cut raw : List UInt8}
    (h : (parameter (cut ++ queryMark :: (p.name ++ equalsMark :: raw))).1 = p.name) :
    equalsMark ∈ cut ∧ (parameter cut).1 = p.name := by
  by_cases hequals : equalsMark ∈ cut
  · refine ⟨hequals, ?_⟩
    obtain ⟨s, t, rfl, hs⟩ := List.eq_append_cons_of_mem hequals
    rw [List.append_assoc, List.cons_append, parameter_of_equals hs] at h
    rw [parameter_of_equals hs]
    exact h
  · refine absurd ?_ (decode_append_queryMark_ne cut hname.query)
    have hcut : equalsMark ∉ cut ++ queryMark :: p.name := by
      simp only [List.mem_append, List.mem_cons, not_or]
      exact ⟨hequals, by decide, hname.equals⟩
    have htext : cut ++ queryMark :: (p.name ++ equalsMark :: raw) =
        (cut ++ queryMark :: p.name) ++ equalsMark :: raw := by simp
    rwa [htext, parameter_of_equals hcut] at h

namespace Carries

variable {own : List Parameter} {last raw : List UInt8}

/-- Where the only segment that can give the parameter is the first appended one, the URI has no
query and the value is what the segment decodes to. -/
theorem value_of_segment (hname : IsName p.name) (hlead : Lead uri own last)
    (hown : ∀ r ∈ parameters (query uri), r.1 ≠ p.name) (hraw : separator ∉ raw)
    (hp : p.pair ∈ parameters (last ++ (p.name ++ equalsMark :: raw))) :
    queryMark ∉ uri ∧ decode raw = p.value := by
  have hsegment : separator ∉ last ++ (p.name ++ equalsMark :: raw) := by
    simp only [List.mem_append, List.mem_cons, not_or]
    exact ⟨hlead.separator, hname.separator, by decide, hraw⟩
  rw [parameters_segment (by simp) hsegment, List.mem_singleton] at hp
  obtain ⟨rfl, hquery⟩ | ⟨cut, rfl, hcut⟩ := hlead.last
  · rw [List.nil_append, parameter_of_equals hname.equals] at hp
    exact ⟨hquery, (congrArg Prod.snd hp).symm⟩
  · have htext : cut ++ [queryMark] ++ (p.name ++ equalsMark :: raw) =
        cut ++ queryMark :: (p.name ++ equalsMark :: raw) := by simp
    rw [htext] at hp
    obtain ⟨hequals, hfirst⟩ := equalsMark_mem_of_name hname (congrArg Prod.fst hp).symm
    exact absurd hfirst (hown _ (hcut hequals))

/-- The parameter comes from the first appended segment also where more segments follow that are
too short for its value. -/
theorem value_of_first (hname : IsName p.name) (hlead : Lead uri own last)
    (hown : ∀ r ∈ parameters (query uri), r.1 ≠ p.name)
    (hshort : separator ∈ raw → raw.length ≤ p.value.length)
    (hp : p.pair ∈ own ++ parameters (last ++ (p.name ++ equalsMark :: raw))) :
    queryMark ∉ uri ∧ ∃ first, first <+: raw ∧ separator ∉ first ∧ decode first = p.value := by
  have hfirst : p.pair ∈ parameters (last ++ (p.name ++ equalsMark :: raw)) := by
    rcases List.mem_append.mp hp with hp | hp
    · exact absurd rfl (hown _ (hlead.own _ hp))
    · exact hp
  by_cases hseparator : separator ∈ raw
  · have hlength := hshort hseparator
    obtain ⟨first, after, rfl, hclean⟩ := List.eq_append_cons_of_mem hseparator
    have htext : last ++ (p.name ++ equalsMark :: (first ++ separator :: after)) =
        (last ++ (p.name ++ equalsMark :: first)) ++ separator :: after := by simp
    rw [htext, parameters_append_separator] at hfirst
    rcases List.mem_append.mp hfirst with hfirst | hafter
    · obtain ⟨hquery, hvalue⟩ := value_of_segment hname hlead hown hclean hfirst
      exact ⟨hquery, first, List.prefix_append _ _, hclean, hvalue⟩
    · have hle : p.value.length ≤ after.length := length_value_le hafter
      simp only [List.length_append, List.length_cons] at hlength
      omega
  · obtain ⟨hquery, hvalue⟩ := value_of_segment hname hlead hown hseparator hfirst
    exact ⟨hquery, raw, List.prefix_rfl, hseparator, hvalue⟩

/-- A text at least as long as its value is faithful if a part of it gives the value. -/
theorem faithful_of_prefix {first : List UInt8} (hfirst : first <+: p.raw)
    (hseparator : separator ∉ first) (hfragment : fragmentMark ∉ first)
    (hvalue : decode first = p.value) (hlength : p.raw.length ≤ p.value.length) :
    p.Faithful := by
  have hle : p.raw.length ≤ first.length := by
    rw [← hvalue] at hlength
    exact hlength.trans (length_decode_le first)
  obtain rfl := hfirst.eq_of_length_le hle
  exact ⟨hseparator, hfragment, hvalue⟩

/-- What is read of the first part alone, when the parts behind it have other names or are cut off
by a fragment mark. -/
theorem pair_mem_of_first {own : List Parameter} {last : List UInt8} (hname : IsName p.name)
    (hrest : fragmentMark ∉ p.raw → ∀ q ∈ rest, IsName q.name ∧ q.Faithful ∧ q.name ≠ p.name)
    (hp : p.pair ∈ own ++ parameters (last ++ withoutFragment (textOf p rest))) :
    p.pair ∈ own ++ parameters (last ++ (p.name ++ equalsMark :: withoutFragment p.raw)) := by
  cases rest with
  | nil => rwa [textOf, Part.text, withoutFragment_part hname] at hp
  | cons q rest =>
    have htext : textOf p (q :: rest) =
        p.name ++ equalsMark :: (p.raw ++ separator :: textOf q rest) := by
      simp [textOf, Part.text]
    rw [htext, withoutFragment_part hname] at hp
    by_cases hmem : fragmentMark ∈ p.raw
    · rwa [withoutFragment_append_of_mem hmem] at hp
    have hparts := hrest hmem
    have hclean : fragmentMark ∉ textOf q rest :=
      fragmentMark_notMem_textOf fun r hr => ⟨(hparts r hr).1, (hparts r hr).2.1⟩
    rw [withoutFragment_append_of_notMem hmem, withoutFragment_cons (by decide),
      withoutFragment_of_notMem hclean] at hp
    rw [withoutFragment_of_notMem hmem]
    have hcut : last ++ (p.name ++ equalsMark :: (p.raw ++ separator :: textOf q rest)) =
        (last ++ (p.name ++ equalsMark :: p.raw)) ++ separator :: textOf q rest := by simp
    rw [hcut, parameters_append_separator, ← List.append_assoc] at hp
    rcases List.mem_append.mp hp with hp | hp
    · exact hp
    · rw [parameters_textOf fun r hr => ⟨(hparts r hr).1, (hparts r hr).2.1⟩] at hp
      obtain ⟨r, hr, heq⟩ := List.mem_map.mp hp
      exact absurd (congrArg Prod.fst heq) (hparts r hr).2.2

/-- Everything is carried only behind a URI without query and fragment, and only if the first part
is written faithfully. -/
theorem of_head (hname : IsName p.name)
    (hraw : p.raw.length ≤ p.value.length ∨ p.Faithful)
    (hrest : fragmentMark ∉ p.raw → ∀ q ∈ rest, IsName q.name ∧ q.Faithful ∧ q.name ≠ p.name)
    (hput : p.pair ∈ put) (h : Carries uri (uri ++ queryMark :: textOf p rest) put) :
    queryMark ∉ uri ∧ fragmentMark ∉ uri ∧ p.Faithful := by
  have hfragment := h.fragmentMark_notMem hput
  obtain ⟨own, last, hlead⟩ := exists_lead hfragment
  have hown : ∀ r ∈ parameters (query uri), r.1 ≠ p.name := fun r hr => h.own_ne hput hr
  have hshort : ∀ raw, raw <+: p.raw → separator ∈ raw → raw.length ≤ p.value.length := by
    intro raw hstart hmem
    rcases hraw with hlength | hfaithful
    · exact hstart.length_le.trans hlength
    · exact absurd (hstart.subset hmem) hfaithful.separator
  have hread := h.mem hput
  rw [hlead.read] at hread
  obtain ⟨hquery, first, hstart, hseparator, hvalue⟩ :=
    value_of_first hname hlead hown (hshort _ (isPrefix_withoutFragment _))
      (pair_mem_of_first hname hrest hread)
  refine ⟨hquery, hfragment, ?_⟩
  rcases hraw with hlength | hfaithful
  · exact faithful_of_prefix (hstart.trans (isPrefix_withoutFragment _)) hseparator
      (fun hmem => fragmentMark_notMem_withoutFragment _ (hstart.subset hmem)) hvalue hlength
  · exact hfaithful

/-- A second part is read wherever the first one does not cut it off, so it is faithful too. -/
theorem of_second {q : Part} (hname : IsName p.name) (hq : IsName q.name)
    (hlength : q.raw.length ≤ q.value.length) (hfragment : fragmentMark ∉ p.raw)
    (hput : q.pair ∈ put) (h : Carries uri (uri ++ queryMark :: textOf p [q]) put) :
    q.Faithful := by
  obtain ⟨own, last, hlead⟩ := exists_lead (h.fragmentMark_notMem hput)
  have honce := h.once q.pair hput
  have hread : parameters (query (uri ++ queryMark :: textOf p [q])) =
      (own ++ parameters (last ++ p.text)) ++
        parameters (q.name ++ equalsMark :: withoutFragment q.raw) := by
    have hcut : last ++ (p.text ++ separator :: (q.name ++ equalsMark :: withoutFragment q.raw)) =
        (last ++ p.text) ++ separator :: (q.name ++ equalsMark :: withoutFragment q.raw) := by
      simp
    rw [hlead.read, textOf, textOf,
      withoutFragment_append_of_notMem (fragmentMark_notMem_text hname hfragment),
      withoutFragment_cons (by decide), show q.text = q.name ++ equalsMark :: q.raw from rfl,
      withoutFragment_part hq, hcut,
      parameters_append_separator, List.append_assoc]
  have hvalue : ∀ {first : List UInt8}, (q.name, decode first) ∈
      parameters (q.name ++ equalsMark :: withoutFragment q.raw) → decode first = q.value := by
    intro first hfirst
    have hmem : (q.name, decode first) ∈
        (parameters (query (uri ++ queryMark :: textOf p [q]))).filter (·.1 = q.pair.1) := by
      refine List.mem_filter.mpr ⟨?_, by simp [Part.pair]⟩
      rw [hread]
      exact List.mem_append_right _ hfirst
    rw [honce, List.mem_singleton] at hmem
    exact congrArg Prod.snd hmem
  by_cases hseparator : separator ∈ withoutFragment q.raw
  · obtain ⟨first, after, htext, hclean⟩ := List.eq_append_cons_of_mem hseparator
    have hstart : first <+: withoutFragment q.raw := ⟨_, htext.symm⟩
    refine faithful_of_prefix (hstart.trans (isPrefix_withoutFragment _)) hclean
      (fun hmem => fragmentMark_notMem_withoutFragment _ (hstart.subset hmem)) (hvalue ?_) hlength
    have hcut : q.name ++ equalsMark :: (first ++ separator :: after) =
        (q.name ++ equalsMark :: first) ++ separator :: after := by simp
    rw [htext, hcut, parameters_append_separator, parameters_text_append hq hclean]
    exact List.mem_append_left _ (List.mem_singleton_self _)
  · refine faithful_of_prefix (isPrefix_withoutFragment _) hseparator
      (fragmentMark_notMem_withoutFragment _) (hvalue ?_) hlength
    rw [parameters_text_append hq hseparator]
    exact List.mem_singleton_self _

end Carries

/-! ### An encoder -/

def hexDigit (n : UInt8) : UInt8 := if n < 10 then 48 + n else 55 + n

def unreserved (b : UInt8) : Bool :=
  (48 ≤ b && b ≤ 57) || (65 ≤ b && b ≤ 90) || (97 ≤ b && b ≤ 122) || b ∈ [45, 46, 95, 126]

/-- Letters, digits and `-._~` as they are, a blank as `+`, any other byte as an escape. -/
def encodeByte (b : UInt8) : List UInt8 :=
  if unreserved b then [b]
  else if b = 32 then [plusMark]
  else [percentMark, hexDigit (b >>> 4), hexDigit (b &&& 15)]

def encode (s : List UInt8) : List UInt8 := s.flatMap encodeByte

theorem forall_byte {P : UInt8 → Prop} (h : ∀ n : Fin 256, P (UInt8.ofNat n)) (b : UInt8) :
    P b := by
  have hb := h ⟨b.toNat, b.toNat_lt⟩
  rwa [UInt8.ofNat_toNat] at hb

theorem hexValue_hexDigit (b : UInt8) :
    hexValue (hexDigit (b >>> 4)) = some (b >>> 4) ∧
      hexValue (hexDigit (b &&& 15)) = some (b &&& 15) ∧
      (16 : UInt8) * (b >>> 4) + (b &&& 15) = b := by
  revert b
  exact forall_byte (by decide +kernel)

theorem unreserved_ne (b : UInt8) (h : unreserved b = true) :
    b < 128 ∧ b ≠ percentMark ∧ b ≠ plusMark ∧ b ≠ separator ∧ b ≠ fragmentMark := by
  revert b
  exact forall_byte (by decide +kernel)

theorem decode_encodeByte (b : UInt8) (rest : List UInt8) :
    decode (encodeByte b ++ rest) = b :: decode rest := by
  unfold encodeByte
  split
  · rename_i h
    obtain ⟨-, hpercent, hplus, -⟩ := unreserved_ne b h
    rw [List.singleton_append, decode_cons_of_ne hpercent, plain, if_neg hplus]
  split
  · rename_i h
    subst h
    rw [List.singleton_append, decode_cons_of_ne (by decide)]
    rfl
  · obtain ⟨hhigh, hlow, hsum⟩ := hexValue_hexDigit b
    rw [List.cons_append, List.cons_append, List.singleton_append, decode_escape hhigh hlow, hsum]

theorem decode_encode (s : List UInt8) : decode (encode s) = s := by
  induction s with
  | nil => rfl
  | cons b s ih =>
    rw [encode, List.flatMap_cons, decode_encodeByte]
    exact congrArg _ ih

theorem hexDigit_ne (b : UInt8) :
    (hexDigit (b >>> 4) < 128 ∧ hexDigit (b >>> 4) ≠ separator ∧
      hexDigit (b >>> 4) ≠ fragmentMark) ∧
    hexDigit (b &&& 15) < 128 ∧ hexDigit (b &&& 15) ≠ separator ∧
      hexDigit (b &&& 15) ≠ fragmentMark := by
  revert b
  exact forall_byte (by decide +kernel)

/-- An encoded text has only ASCII characters and none that ends a parameter. -/
theorem mem_encode {s : List UInt8} {b : UInt8} (h : b ∈ encode s) :
    b < 128 ∧ b ≠ separator ∧ b ≠ fragmentMark := by
  obtain ⟨c, -, hb⟩ := List.mem_flatMap.mp h
  unfold encodeByte at hb
  split at hb
  · rename_i hc
    obtain rfl := List.mem_singleton.mp hb
    obtain ⟨hlt, -, -, hseparator, hfragment⟩ := unreserved_ne b hc
    exact ⟨hlt, hseparator, hfragment⟩
  split at hb
  · obtain rfl := List.mem_singleton.mp hb
    decide
  · obtain ⟨hhigh, hlow⟩ := hexDigit_ne c
    rcases List.mem_cons.mp hb with rfl | hb
    · decide
    rcases List.mem_cons.mp hb with rfl | hb
    · exact hhigh
    · rw [List.mem_singleton.mp hb]
      exact hlow

/-! ### Forms -/

/-- Names and values as they are written into a query or a form: encoded, with `=` between them and
`&` between the parameters. -/
def formText : List Parameter → List UInt8
  | [] => []
  | [p] => encode p.1 ++ equalsMark :: encode p.2
  | p :: q :: rest => encode p.1 ++ equalsMark :: encode p.2 ++ separator :: formText (q :: rest)

theorem equalsMark_notMem_encode (s : List UInt8) : equalsMark ∉ encode s := by
  have hbyte : ∀ b : UInt8, equalsMark ∉ encodeByte b := forall_byte (by decide +kernel)
  intro hmem
  obtain ⟨b, -, hb⟩ := List.mem_flatMap.mp hmem
  exact hbyte b hb

theorem separator_notMem_encode (s : List UInt8) : separator ∉ encode s :=
  fun hmem => (mem_encode hmem).2.1 rfl

theorem fragmentMark_notMem_encode (s : List UInt8) : fragmentMark ∉ encode s :=
  fun hmem => (mem_encode hmem).2.2 rfl

theorem parameters_pair (p : Parameter) :
    parameters (encode p.1 ++ equalsMark :: encode p.2) = [p] := by
  rw [parameters_segment, parameter_of_equals (equalsMark_notMem_encode _), decode_encode,
    decode_encode]
  · simp
  · simp only [List.mem_append, List.mem_cons, not_or]
    exact ⟨separator_notMem_encode _, by decide, separator_notMem_encode _⟩

/-- Whatever is written into a form is read out of it, in the same order. -/
theorem parameters_formText (ps : List Parameter) : parameters (formText ps) = ps := by
  fun_induction formText ps with
  | case1 => rfl
  | case2 p => exact parameters_pair p
  | case3 p q rest ih =>
    rw [parameters_append_separator, parameters_pair, ih, List.singleton_append]

theorem fragmentMark_notMem_formText (ps : List Parameter) : fragmentMark ∉ formText ps := by
  have hpair : ∀ p : Parameter, fragmentMark ∉ encode p.1 ++ equalsMark :: encode p.2 := by
    intro p
    simp only [List.mem_append, List.mem_cons, not_or]
    exact ⟨fragmentMark_notMem_encode _, by decide, fragmentMark_notMem_encode _⟩
  fun_induction formText ps with
  | case1 => exact List.not_mem_nil
  | case2 p => exact hpair p
  | case3 p q rest ih =>
    rw [List.mem_append, List.mem_cons, not_or, not_or]
    exact ⟨hpair p, by decide, ih⟩

theorem query_formText (hquery : queryMark ∉ uri) (hfragment : fragmentMark ∉ uri)
    (ps : List Parameter) : parameters (query (uri ++ queryMark :: formText ps)) = ps := by
  rw [query_append hquery hfragment, withoutFragment_of_notMem (fragmentMark_notMem_formText ps),
    parameters_formText]

end AuthForge.QueryString
