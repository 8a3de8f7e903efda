import Mathlib.Data.List.DropRight
import Mathlib.Data.List.Infix
import Mathlib.Order.Basic
import AuthForge.Base.Text

/-!
# Cutting a script into statements, byte by byte

`SchemaManager::splitSqlStatements` over the bytes of a file. Each of the nested loops of the source
is a function that answers what it copied and what it left.
-/

namespace AuthForge.Schema.Splitter

open Ascii

/-- `std::isalpha` and `std::isalnum` in the `C` locale. -/
def isTagStart (c : UInt8) : Bool := isLetter c || c = underscore

def isTagChar (c : UInt8) : Bool := isLetter c || Ascii.isDigit c || c = underscore

theorem isTagChar_of_isTagStart {c : UInt8} (h : isTagStart c = true) : isTagChar c = true := by
  simp only [isTagStart, isTagChar, Bool.or_eq_true] at h ⊢
  tauto

theorem ne_of_isTagChar {c d : UInt8} (h : isTagChar c = true) (hd : isTagChar d = false) :
    c ≠ d := by
  rintro rfl
  rw [h] at hd
  cases hd

/-! ### The nested loops -/

/-- Up to the end of the line. -/
def lineComment : Bytes → Bytes × Bytes
  | [] => ([], [])
  | c :: cs =>
    if c = newline then ([], c :: cs)
    else (c :: (lineComment cs).1, (lineComment cs).2)

/-- Up to the first end of a comment. -/
def blockComment : Bytes → Bytes × Bytes
  | [] => ([], [])
  | c :: cs =>
    if c = asterisk ∧ cs.head? = some slash then ([asterisk, slash], cs.tail)
    else (c :: (blockComment cs).1, (blockComment cs).2)

/-- Up to the closing quote; a doubled quote is content. -/
def quoted : Bytes → Bytes × Bytes
  | [] => ([], [])
  | c :: cs =>
    if c ≠ quote then (c :: (quoted cs).1, (quoted cs).2)
    else
      match cs with
      | [] => ([c], [])
      | c' :: cs' =>
        if c' = quote then (c :: c' :: (quoted cs').1, (quoted cs').2) else ([c], c' :: cs')

/-- Whether the loop over a tag takes the byte after what it has. -/
def accepts (tag : Bytes) (c : UInt8) : Bool := if tag = [] then isTagStart c else isTagChar c

/-- The characters of a tag, `tag` being those read so far, and what follows them. -/
def readTag (tag : Bytes) : Bytes → Bytes × Bytes
  | [] => (tag, [])
  | c :: cs =>
    if c = dollar ∨ c = newline then (tag, c :: cs)
    else if accepts tag c then readTag (tag ++ [c]) cs
    else (tag, c :: cs)

/-- The delimiter that opens a dollar quote, read after its first `$`. -/
def opener (cs : Bytes) : Option Bytes :=
  if (readTag [] cs).2.head? = some dollar then some (dollar :: (readTag [] cs).1 ++ [dollar])
  else none

/-- Up to the next occurrence of the delimiter. -/
def dollarQuoted (delim : Bytes) : Bytes → Bytes × Bytes
  | [] => ([], [])
  | c :: cs =>
    if c = dollar ∧ delim <+: c :: cs then (delim, (c :: cs).drop delim.length)
    else (c :: (dollarQuoted delim cs).1, (dollarQuoted delim cs).2)

/-- What one round of the main loop copies, unless it stands at a semicolon. -/
def chunk (c : UInt8) (cs : Bytes) : Bytes × Bytes :=
  if c = dash ∧ cs.head? = some dash then
    (dash :: dash :: (lineComment cs.tail).1, (lineComment cs.tail).2)
  else if c = slash ∧ cs.head? = some asterisk then
    (slash :: asterisk :: (blockComment cs.tail).1, (blockComment cs.tail).2)
  else if c = quote then (c :: (quoted cs).1, (quoted cs).2)
  else
    match if c = dollar then opener cs else none with
    | some delim =>
      let rest := dollarQuoted delim ((c :: cs).drop delim.length)
      (delim ++ rest.1, rest.2)
    | none => ([c], cs)

/-! ### The main loop -/

def isBlank (c : UInt8) : Bool := c = 32 || c = 9 || c = 13 || c = newline

def trim (s : Bytes) : Bytes := ((s.dropWhile isBlank).reverse.dropWhile isBlank).reverse

/-- The statement that a semicolon ends, unless nothing is left of it but the semicolon. -/
def emit (current : Bytes) : List Bytes :=
  if trim current = [] ∨ trim current = [semicolon] then [] else [trim current]

/-- What is left at the end of the text. -/
def trailing (current : Bytes) : List Bytes := if trim current = [] then [] else [trim current]

/-! ### What trimming leaves -/

def Trimmed (s : Bytes) : Prop :=
  (∀ c, s.head? = some c → isBlank c = false) ∧ ∀ c, s.getLast? = some c → isBlank c = false

theorem trim_eq (s : Bytes) : trim s = (s.dropWhile isBlank).rdropWhile isBlank := rfl

theorem trim_spec (s : Bytes) :
    ∃ lead trail, (∀ c ∈ lead, isBlank c = true) ∧ (∀ c ∈ trail, isBlank c = true) ∧
      s = lead ++ trim s ++ trail := by
  refine ⟨s.takeWhile isBlank, (s.dropWhile isBlank).rtakeWhile isBlank,
    fun c hc => List.mem_takeWhile_imp hc, fun c hc => List.mem_rtakeWhile_imp hc, ?_⟩
  rw [trim_eq, List.append_assoc, List.rdropWhile_append_rtakeWhile,
    List.takeWhile_append_dropWhile]

theorem trimmed_trim (s : Bytes) : Trimmed (trim s) := by
  constructor
  · intro c hc
    have hstart : trim s <+: s.dropWhile isBlank := List.rdropWhile_prefix _ _
    have hdrop := s.head?_dropWhile_not isBlank
    rw [List.singleton_prefix_iff_head?_eq_some.mp
      ((List.singleton_prefix_iff_head?_eq_some.mpr hc).trans hstart)] at hdrop
    exact hdrop
  · intro c hc
    have hdrop := (s.dropWhile isBlank).reverse.head?_dropWhile_not isBlank
    rw [trim, List.getLast?_reverse] at hc
    rw [hc] at hdrop
    exact hdrop

theorem trim_of_trimmed {s : Bytes} (hs : Trimmed s) : trim s = s := by
  have hlead : s.dropWhile isBlank = s := by
    cases s with
    | nil => rfl
    | cons c s => exact List.dropWhile_cons_of_neg (Bool.eq_false_iff.mp (hs.1 c rfl))
  rw [trim_eq, hlead, List.rdropWhile_eq_self_iff]
  intro hne
  exact Bool.eq_false_iff.mp (hs.2 _ (List.getLast?_eq_some_getLast hne))

/-- Before a byte that is no blank, only the leading blanks go. -/
theorem trim_concat {c : UInt8} (hc : isBlank c = false) (s : Bytes) :
    ∃ lead x, (∀ c ∈ lead, isBlank c = true) ∧ s = lead ++ x ∧ trim (s ++ [c]) = x ++ [c] := by
  refine ⟨s.takeWhile isBlank, s.dropWhile isBlank, fun c hc => List.mem_takeWhile_imp hc,
    List.takeWhile_append_dropWhile.symm, ?_⟩
  have hdrop : (s ++ [c]).dropWhile isBlank = s.dropWhile isBlank ++ [c] := by
    rw [List.dropWhile_append, List.dropWhile_cons_of_neg (Bool.eq_false_iff.mp hc)]
    split
    · rename_i hnil
      rw [List.isEmpty_iff.mp hnil]
      rfl
    · rfl
  rw [trim_eq, hdrop, List.rdropWhile_concat_neg _ _ _ (Bool.eq_false_iff.mp hc)]

/-! ### A loop copies what it passes -/

theorem lineComment_append (cs : Bytes) : (lineComment cs).1 ++ (lineComment cs).2 = cs := by
  induction cs with
  | nil => rfl
  | cons c cs ih =>
    rw [lineComment]
    split
    · rfl
    · exact congrArg (c :: ·) ih

theorem blockComment_append (cs : Bytes) : (blockComment cs).1 ++ (blockComment cs).2 = cs := by
  induction cs with
  | nil => rfl
  | cons c cs ih =>
    rw [blockComment]
    split
    · rename_i hend
      obtain ⟨rfl, hslash⟩ := hend
      obtain ⟨cs, rfl⟩ := List.head?_eq_some_iff.mp hslash
      rfl
    · exact congrArg (c :: ·) ih

theorem quoted_append (cs : Bytes) : (quoted cs).1 ++ (quoted cs).2 = cs := by
  fun_induction quoted cs with
  | case1 => rfl
  | case2 c cs _ ih => exact congrArg (c :: ·) ih
  | case3 c => rfl
  | case4 c cs' _ ih => exact congrArg (c :: quote :: ·) ih
  | case5 c c' cs' => rfl

theorem readTag_append (tag cs : Bytes) : (readTag tag cs).1 ++ (readTag tag cs).2 = tag ++ cs := by
  induction cs generalizing tag with
  | nil => rfl
  | cons c cs ih =>
    rw [readTag]
    split
    · rfl
    split
    · rw [ih, List.append_assoc]
      rfl
    · rfl

theorem dollarQuoted_append (delim cs : Bytes) :
    (dollarQuoted delim cs).1 ++ (dollarQuoted delim cs).2 = cs := by
  induction cs with
  | nil => rfl
  | cons c cs ih =>
    rw [dollarQuoted]
    split
    · rename_i hdelim
      exact List.prefix_iff_eq_append.mp hdelim.2
    · exact congrArg (c :: ·) ih

theorem opener_prefix {delim cs : Bytes} (h : opener cs = some delim) :
    delim ≠ [] ∧ delim <+: dollar :: cs := by
  rw [opener] at h
  split at h
  · rename_i hdollar
    obtain rfl := Option.some.inj h
    obtain ⟨rest, hrest⟩ := List.head?_eq_some_iff.mp hdollar
    refine ⟨by simp, rest, ?_⟩
    have hread := readTag_append [] cs
    rw [hrest, List.nil_append] at hread
    rw [List.append_assoc]
    exact congrArg (dollar :: ·) hread
  · cases h

/-- A round of the main loop takes at least one byte. -/
theorem chunk_append (c : UInt8) (cs : Bytes) :
    (chunk c cs).1 ≠ [] ∧ (chunk c cs).1 ++ (chunk c cs).2 = c :: cs := by
  unfold chunk
  split
  · rename_i hline
    obtain ⟨rfl, hdash⟩ := hline
    obtain ⟨cs, rfl⟩ := List.head?_eq_some_iff.mp hdash
    exact ⟨List.cons_ne_nil _ _, congrArg (dash :: dash :: ·) (lineComment_append cs)⟩
  split
  · rename_i hblock
    obtain ⟨rfl, hstar⟩ := hblock
    obtain ⟨cs, rfl⟩ := List.head?_eq_some_iff.mp hstar
    exact ⟨List.cons_ne_nil _ _, congrArg (slash :: asterisk :: ·) (blockComment_append cs)⟩
  split
  · exact ⟨List.cons_ne_nil _ _, congrArg (c :: ·) (quoted_append cs)⟩
  split
  · rename_i delim hdelim
    split at hdelim
    · rename_i hdollar
      subst hdollar
      obtain ⟨hne, hstart⟩ := opener_prefix hdelim
      refine ⟨List.append_ne_nil_of_left_ne_nil hne _, ?_⟩
      rw [List.append_assoc, dollarQuoted_append]
      exact List.prefix_iff_eq_append.mp hstart
    · cases hdelim
  · exact ⟨List.cons_ne_nil _ _, rfl⟩

theorem chunk_length (c : UInt8) (cs : Bytes) : (chunk c cs).2.length ≤ cs.length := by
  obtain ⟨hne, happend⟩ := chunk_append c cs
  have hlength := congrArg List.length happend
  have hpos := List.length_pos_iff.mpr hne
  rw [List.length_append, List.length_cons] at hlength
  omega

def splitFrom (current : Bytes) : Bytes → List Bytes
  | [] => trailing current
  | c :: cs =>
    if c = semicolon then emit (current ++ [c]) ++ splitFrom [] cs
    else splitFrom (current ++ (chunk c cs).1) (chunk c cs).2
termination_by sql => sql.length
decreasing_by
  · simp
  · exact Nat.lt_succ_of_le (chunk_length c cs)

def splitSqlStatements (sql : Bytes) : List Bytes := splitFrom [] sql

/-- For every byte, whether the main loop takes it for the semicolon that ends a statement. -/
def ends : Bytes → List Bool
  | [] => []
  | c :: cs =>
    if c = semicolon then true :: ends cs
    else List.replicate (chunk c cs).1.length false ++ ends (chunk c cs).2
termination_by sql => sql.length
decreasing_by
  · simp
  · exact Nat.lt_succ_of_le (chunk_length c cs)

/-- The statements of a text whose ends are marked. -/
def cut (current : Bytes) : List (UInt8 × Bool) → List Bytes
  | [] => trailing current
  | (c, true) :: cs => emit (current ++ [c]) ++ cut [] cs
  | (c, false) :: cs => cut (current ++ [c]) cs

theorem cut_append (current text cs : Bytes) (marks : List Bool) :
    cut current ((text ++ cs).zip (List.replicate text.length false ++ marks)) =
      cut (current ++ text) (cs.zip marks) := by
  induction text generalizing current with
  | nil => rw [List.append_nil]; rfl
  | cons c text ih =>
    rw [List.append_cons, ← ih]
    rfl

theorem splitFrom_eq_cut (current sql : Bytes) :
    splitFrom current sql = cut current (sql.zip (ends sql)) := by
  fun_induction splitFrom current sql with
  | case1 current => rfl
  | case2 current cs ih =>
    rw [ends, if_pos rfl, ih]
    rfl
  | case3 current c cs hc ih =>
    rw [ih, ends, if_neg hc, ← cut_append, (chunk_append c cs).2]

example : splitSqlStatements (bytes "a; ;\n$$;$$") = [bytes "a;", bytes "$$;$$"] := by
  decide +kernel

end AuthForge.Schema.Splitter
