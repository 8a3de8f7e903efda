import Mathlib.Algebra.GroupWithZero.Nat
import Mathlib.Data.List.Nodup
import Mathlib.Data.List.Perm.Subperm
import AuthForge.Base.Text

/-!
# Keyword/value connection strings

How libpq reads a connection string that is no URI: keywords and values, with an equals sign
between them that may have blanks around it. A value in quotes ends at the closing quote, another
one at a blank, and a backslash takes the next character as it is.
-/

namespace AuthForge.Conninfo

/-- A value that is not quoted, and what follows the blank that ends it. -/
def unquoted : List Char → List Char × List Char
  | [] => ([], [])
  | c :: cs =>
    if isSpace c then ([], cs)
    else if c = '\\' then
      match cs with
      | [] => ([], [])
      | c' :: cs' => (c' :: (unquoted cs').1, (unquoted cs').2)
    else (c :: (unquoted cs).1, (unquoted cs).2)

/-- A value after its opening quote; `none` if nothing closes it. -/
def quoted : List Char → Option (List Char × List Char)
  | [] => none
  | c :: cs =>
    if c = '\\' then
      match cs with
      | [] => none
      | c' :: cs' => (quoted cs').map fun r => (c' :: r.1, r.2)
    else if c = '\'' then some ([], cs)
    else (quoted cs).map fun r => (c :: r.1, r.2)

def value (cs : List Char) : Option (List Char × List Char) :=
  match cs.dropWhile isSpace with
  | [] => some ([], [])
  | c :: cs => if c = '\'' then quoted cs else some (unquoted (c :: cs))

def isNameChar (c : Char) : Bool := c ≠ '=' && !isSpace c

/-- A keyword, its value and what follows; `none` without an equals sign. -/
def assignment (cs : List Char) : Option ((List Char × List Char) × List Char) :=
  match (cs.dropWhile isNameChar).dropWhile isSpace with
  | [] => none
  | c :: rest =>
    if c = '=' then (value rest).map fun r => ((cs.takeWhile isNameChar, r.1), r.2) else none

/-! ### What is used up -/

/-- The blank that ends a value before more text. -/
def separator (rest : List Char) : Nat := if rest = [] then 0 else 1

/-- A value that is read as it stands. -/
structure Clean (v : List Char) : Prop where
  blank : ∀ c ∈ v, isSpace c = false
  backslash : '\\' ∉ v
  quote : v.head? ≠ some '\''

variable {cs v rest : List Char}

theorem separator_le (rest : List Char) : separator rest + rest.length ≤ rest.length + 1 := by
  rw [separator]
  split <;> omega

theorem length_dropWhile_le (p : Char → Bool) (cs : List Char) :
    (cs.dropWhile p).length ≤ cs.length :=
  (List.dropWhile_suffix p).length_le

/-- An unquoted value takes its length, and more if anything in it is escaped. -/
theorem unquoted_length (cs : List Char) :
    (unquoted cs).1.length + (unquoted cs).2.length + separator (unquoted cs).2 ≤ cs.length ∧
      ((unquoted cs).1.length + (unquoted cs).2.length + separator (unquoted cs).2 = cs.length →
        (∀ c ∈ (unquoted cs).1, isSpace c = false ∧ c ≠ '\\') ∧
        ∀ c, (unquoted cs).1.head? = some c → cs.head? = some c) := by
  fun_induction unquoted cs with
  | case1 => exact ⟨le_refl _, fun _ => ⟨nofun, nofun⟩⟩
  | case2 c cs hblank =>
    refine ⟨?_, fun _ => ⟨nofun, nofun⟩⟩
    rw [separator]
    split <;> simp
  | case3 => exact ⟨by decide, fun h => absurd h (by decide)⟩
  | case4 c cs hblank ih =>
    simp only [List.length_cons]
    exact ⟨by omega, fun h => by omega⟩
  | case5 c cs hblank hescape ih =>
    obtain ⟨hle, hclean⟩ := ih
    simp only [List.length_cons]
    refine ⟨by omega, ?_⟩
    intro h
    refine ⟨?_, fun d hd => hd⟩
    exact List.forall_mem_cons.mpr ⟨⟨Bool.eq_false_iff.mpr hblank, hescape⟩, (hclean (by omega)).1⟩

theorem quoted_length {r : List Char × List Char} (h : quoted cs = some r) :
    r.1.length + r.2.length + 1 ≤ cs.length := by
  fun_induction quoted cs generalizing r with
  | case1 => cases h
  | case2 => cases h
  | case3 c cs ih =>
    obtain ⟨r, hr, rfl⟩ := Option.map_eq_some_iff.mp h
    have hle := ih hr
    simp only [List.length_cons]
    omega
  | case4 c hescape =>
    obtain rfl := Option.some.inj h
    simp
  | case5 c cs hescape hquote ih =>
    obtain ⟨r, hr, rfl⟩ := Option.map_eq_some_iff.mp h
    have hle := ih hr
    simp only [List.length_cons]
    omega

theorem value_length (h : value cs = some (v, rest)) :
    v.length + rest.length + separator rest ≤ cs.length ∧
      (v.length + rest.length + separator rest = cs.length → Clean v) := by
  have hdrop := length_dropWhile_le isSpace cs
  rw [value] at h
  split at h
  · obtain ⟨rfl, rfl⟩ := Prod.mk.inj (Option.some.inj h)
    exact ⟨Nat.zero_le _, fun _ => ⟨nofun, nofun, nofun⟩⟩
  · rename_i c cs' hcs
    rw [hcs] at hdrop
    split at h
    · have hle := quoted_length h
      have hsep := separator_le rest
      simp only [List.length_cons] at hle hdrop
      exact ⟨by omega, fun h => by omega⟩
    · rename_i hquote
      obtain ⟨hle, hclean⟩ := unquoted_length (c :: cs')
      rw [Option.some.inj h] at hle hclean
      dsimp only at hle hclean
      refine ⟨hle.trans hdrop, ?_⟩
      intro heq
      obtain ⟨hall, hhead⟩ := hclean (by omega)
      refine ⟨fun d hd => (hall d hd).1, fun hd => (hall _ hd).2 rfl, ?_⟩
      intro hd
      exact hquote (Option.some.inj (hhead _ hd))

theorem assignment_length {e : List Char × List Char} (h : assignment cs = some (e, rest)) :
    e.1.length + e.2.length + 1 + rest.length + separator rest ≤ cs.length ∧
      (e.1.length + e.2.length + 1 + rest.length + separator rest = cs.length → Clean e.2) := by
  have hname : (cs.takeWhile isNameChar).length + (cs.dropWhile isNameChar).length = cs.length := by
    rw [← List.length_append, List.takeWhile_append_dropWhile]
  have hblank := length_dropWhile_le isSpace (cs.dropWhile isNameChar)
  rw [assignment] at h
  split at h
  · cases h
  rename_i c text htext
  split at h
  · obtain ⟨r, hr, heq⟩ := Option.map_eq_some_iff.mp h
    obtain ⟨rfl, rfl⟩ := Prod.mk.inj heq
    obtain ⟨hle, hclean⟩ := value_length hr
    rw [htext, List.length_cons] at hblank
    dsimp only
    exact ⟨by omega, fun heq => hclean (by omega)⟩
  · cases h

theorem assignment_shorter {e : List Char × List Char} (h : assignment cs = some (e, rest)) :
    rest.length < cs.length := by
  have hle := (assignment_length h).1
  omega

/-- The assignments in a connection string, in order; `none` is an error. -/
def parse (text : List Char) : Option (List (List Char × List Char)) :=
  match _htext : text.dropWhile isSpace with
  | [] => some []
  | c :: cs =>
    match _hassignment : assignment (c :: cs) with
    | none => none
    | some (e, rest) => (parse rest).map (e :: ·)
termination_by text.length
decreasing_by
  have hrest := assignment_shorter _hassignment
  have htext := length_dropWhile_le isSpace text
  rw [_htext] at htext
  omega

theorem parse_of_blank {text : List Char} (h : text.dropWhile isSpace = []) :
    parse text = some [] := by
  rw [parse]
  split
  · rfl
  · rename_i hcons
    rw [h] at hcons
    cases hcons

theorem parse_of_assignment {text : List Char} {e : List Char × List Char}
    (h : assignment (text.dropWhile isSpace) = some (e, rest)) :
    parse text = (parse rest).map (e :: ·) := by
  rw [parse]
  split
  · rename_i hnil
    rw [hnil] at h
    cases h
  · rename_i c cs hcons
    rw [hcons] at h
    split
    · rename_i hnone
      rw [h] at hnone
      cases hnone
    · rename_i e' rest' hsome
      rw [h] at hsome
      obtain ⟨rfl, rfl⟩ := Prod.mk.inj (Option.some.inj hsome)
      rfl

/-- What an assignment takes at least: its two parts, the sign and the blank before the next. -/
def weight (e : List Char × List Char) : Nat := e.1.length + e.2.length + 2

/-- All assignments fit into the text, and if they fill it their values are read as they stand. -/
theorem parse_weight {text : List Char} {es : List (List Char × List Char)}
    (h : parse text = some es) :
    (es.map weight).sum ≤ text.length + 1 ∧
      ((es.map weight).sum = text.length + 1 → ∀ e ∈ es, Clean e.2) := by
  fun_induction parse text generalizing es with
  | case1 text hblank =>
    obtain rfl := Option.some.inj h
    exact ⟨Nat.zero_le _, fun _ => nofun⟩
  | case2 => cases h
  | case3 text c cs htext e rest hassignment ih =>
    obtain ⟨es, hes, rfl⟩ := Option.map_eq_some_iff.mp h
    obtain ⟨hle, hclean⟩ := assignment_length hassignment
    obtain ⟨hrest, hrestClean⟩ := ih hes
    have hdrop := length_dropWhile_le isSpace text
    rw [htext] at hdrop
    rw [List.map_cons, List.sum_cons, weight]
    by_cases hnil : rest = []
    · subst hnil
      rw [parse_of_blank rfl] at hes
      obtain rfl := Option.some.inj hes
      simp only [List.map_nil, List.sum_nil, List.length_nil] at hle hclean ⊢
      refine ⟨by omega, ?_⟩
      intro heq
      exact List.forall_mem_singleton.mpr (hclean (by omega))
    · rw [separator, if_neg hnil] at hle hclean
      refine ⟨by omega, ?_⟩
      intro heq
      exact List.forall_mem_cons.mpr ⟨hclean (by omega), hrestClean (by omega)⟩

/-! ### Reading what is clean -/

theorem unquoted_append (hblank : ∀ c ∈ v, isSpace c = false) (hescape : '\\' ∉ v)
    (tail : List Char) :
    unquoted (v ++ tail) = (v ++ (unquoted tail).1, (unquoted tail).2) := by
  induction v with
  | nil => rfl
  | cons c v ih =>
    obtain ⟨hc, hv⟩ := List.forall_mem_cons.mp hblank
    obtain ⟨hne, hescape⟩ := not_or.mp (mt List.mem_cons.mpr hescape)
    rw [List.cons_append, unquoted.eq_def]
    dsimp only
    rw [if_neg (by rw [hc]; decide), if_neg (Ne.symm hne), ih hv hescape]
    rfl

theorem value_of_first {c : Char} (hblank : isSpace c = false) (hquote : c ≠ '\'')
    (cs : List Char) : value (c :: cs) = some (unquoted (c :: cs)) := by
  rw [value, List.dropWhile_cons_of_neg (by rw [hblank]; decide)]
  exact if_neg hquote

theorem Clean.value_append (hv : Clean v) (hne : v ≠ []) (tail : List Char) :
    value (v ++ tail) = some (v ++ (unquoted tail).1, (unquoted tail).2) := by
  rw [← unquoted_append hv.blank hv.backslash]
  obtain ⟨c, v, rfl⟩ := List.exists_cons_of_ne_nil hne
  refine value_of_first (hv.blank c List.mem_cons_self) ?_ _
  rintro rfl
  exact hv.quote rfl

theorem Clean.value_blank (hv : Clean v) (hne : v ≠ []) (rest : List Char) :
    value (v ++ ' ' :: rest) = some (v, rest) := by
  have hvalue := hv.value_append hne (' ' :: rest)
  have hblank : unquoted (' ' :: rest) = ([], rest) := by
    rw [unquoted.eq_def]
    rfl
  rwa [hblank, List.append_nil] at hvalue

theorem Clean.value_end (hv : Clean v) : value v = some (v, []) := by
  by_cases hne : v = []
  · subst hne
    rfl
  · have hvalue := hv.value_append hne []
    rw [List.append_nil] at hvalue
    rw [hvalue]
    exact congrArg (fun v => some (v, [])) (List.append_nil v)

theorem parse_assign {k : List Char} (hk : ∀ c ∈ k, isNameChar c = true)
    (hvalue : value cs = some (v, rest)) :
    parse (k ++ '=' :: cs) = (parse rest).map ((k, v) :: ·) := by
  have hstart : (k ++ '=' :: cs).dropWhile isSpace = k ++ '=' :: cs := by
    cases k with
    | nil => rfl
    | cons c k =>
      have hc : isSpace c = false := by
        have hname := hk c List.mem_cons_self
        rw [isNameChar, Bool.and_eq_true, Bool.not_eq_true'] at hname
        exact hname.2
      exact List.dropWhile_cons_of_neg (by rw [hc]; decide)
  refine parse_of_assignment ?_
  have hdrop : ((k ++ '=' :: cs).dropWhile isNameChar).dropWhile isSpace = '=' :: cs := by
    rw [List.dropWhile_append_of_pos hk]
    rfl
  have htake : (k ++ '=' :: cs).takeWhile isNameChar = k := by
    rw [List.takeWhile_append_of_pos hk]
    exact List.append_nil k
  rw [hstart, assignment, hdrop, htake]
  dsimp only
  rw [if_pos rfl, hvalue]
  rfl

/-- An empty value takes the next keyword for itself. -/
theorem parse_empty {k : List Char} {c : Char} {es : List (List Char × List Char)}
    (hk : ∀ c ∈ k, isNameChar c = true) (hc : isNameChar c = true) (hquote : c ≠ '\'')
    (hescape : c ≠ '\\') (h : parse (k ++ '=' :: ' ' :: c :: cs) = some es) :
    ∃ v, (k, c :: v) ∈ es := by
  have hblank : isSpace c = false := by
    rw [isNameChar, Bool.and_eq_true, Bool.not_eq_true'] at hc
    exact hc.2
  have hvalue : value (' ' :: c :: cs) = some (c :: (unquoted cs).1, (unquoted cs).2) := by
    have hfirst := value_of_first hblank hquote cs
    have hone := unquoted_append (v := [c]) (by simpa using hblank) (by simpa using Ne.symm hescape)
      cs
    rw [List.singleton_append] at hone
    rw [hone] at hfirst
    exact hfirst
  rw [parse_assign hk hvalue] at h
  obtain ⟨es, -, rfl⟩ := Option.map_eq_some_iff.mp h
  exact ⟨_, List.mem_cons_self⟩

/-! ### Settings -/

/-- The value a keyword ends up with: that of its last assignment. -/
def setting (es : List (List Char × List Char)) (k : List Char) : Option (List Char) :=
  (es.reverse.find? fun e => e.1 = k).map Prod.snd

variable {es fields : List (List Char × List Char)}

theorem key_of_find {l : List (List Char × List Char)} {e : List Char × List Char} {k : List Char}
    (h : l.find? (fun e => e.1 = k) = some e) : e.1 = k := by
  have hkey := List.find?_some h
  simpa using hkey

theorem mem_of_setting {k : List Char} (h : setting es k = some v) : (k, v) ∈ es := by
  obtain ⟨⟨k', v'⟩, hfind, rfl⟩ := Option.map_eq_some_iff.mp h
  obtain rfl : k' = k := key_of_find hfind
  exact List.mem_reverse.mp (List.mem_of_find?_eq_some hfind)

theorem setting_of_mem (hkeys : (fields.map Prod.fst).Nodup) {k : List Char}
    (h : (k, v) ∈ fields) : setting fields k = some v := by
  obtain ⟨e, hfind⟩ : ∃ e, fields.reverse.find? (fun e => e.1 = k) = some e := by
    rw [← Option.isSome_iff_exists, List.find?_isSome]
    exact ⟨_, List.mem_reverse.mpr h, decide_eq_true rfl⟩
  have he : e = (k, v) := by
    have hmem := List.mem_reverse.mp (List.mem_of_find?_eq_some hfind)
    exact List.inj_on_of_nodup_map hkeys hmem h (key_of_find hfind)
  rw [setting, hfind, he]
  rfl

/-- A text that is just long enough for some fields and sets them has no other assignments, and its
values are read as they stand. -/
theorem clean_of_settings {text : List Char} (hparse : parse text = some es)
    (hkeys : (fields.map Prod.fst).Nodup)
    (hlength : text.length + 1 = (fields.map weight).sum)
    (hset : ∀ k, setting es k = setting fields k) :
    es.Perm fields ∧ ∀ e ∈ fields, Clean e.2 := by
  have hsub : fields ⊆ es := by
    rintro ⟨k, v⟩ he
    refine mem_of_setting ?_
    rw [hset, setting_of_mem hkeys he]
  obtain ⟨l, hl, hlsub⟩ := List.subperm_of_subset (List.Nodup.of_map _ hkeys) hsub
  obtain ⟨more, hmore⟩ := hlsub.exists_perm_append
  have hes : es.Perm (fields ++ more) := hmore.trans (hl.append_right more)
  have hsum : (es.map weight).sum = (fields.map weight).sum + (more.map weight).sum := by
    rw [(hes.map weight).sum_nat, List.map_append, List.sum_append]
  obtain ⟨hle, hclean⟩ := parse_weight hparse
  have hnil : more = [] := by
    cases more with
    | nil => rfl
    | cons e more =>
      rw [List.map_cons, List.sum_cons, weight] at hsum
      omega
  subst hnil
  rw [List.append_nil] at hes
  exact ⟨hes, fun e he => hclean (by omega) e (hes.mem_iff.mpr he)⟩

end AuthForge.Conninfo
