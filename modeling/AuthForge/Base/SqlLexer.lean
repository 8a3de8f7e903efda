import Mathlib.Data.List.Infix
import Mathlib.Data.List.TakeWhile
import AuthForge.Base.Text

/-!
# The lexemes of PostgreSQL

How PostgreSQL reads a script when `standard_conforming_strings` is on, as far as it decides where
comments, constants and quoted names begin and end. Operators come byte by byte, and what begins
with a digit is one number up to the last letter or digit: whether a number is well formed is not
checked. A constant that nothing closes makes the script invalid.
-/

namespace AuthForge.Sql

open Ascii

inductive Lexeme
  | space (c : UInt8)
  /-- A comment to the end of its line, with the end of the line. -/
  | lineComment (text lineEnd : Bytes)
  | blockComment (body : Bytes)
  | string (body : Bytes)
  /-- A string in which a backslash escapes; a continued one has no letter. -/
  | escapeString (letter body : Bytes)
  | quotedIdentifier (body : Bytes)
  | dollarString (tag body : Bytes)
  | identifier (text : Bytes)
  | number (text : Bytes)
  | semicolon
  | other (c : UInt8)
  deriving DecidableEq

def delimiter (tag : Bytes) : Bytes := dollar :: tag ++ [dollar]

def Lexeme.bytes : Lexeme → Bytes
  | .space c | .other c => [c]
  | .lineComment text lineEnd => dash :: dash :: (text ++ lineEnd)
  | .blockComment body => slash :: asterisk :: (body ++ [asterisk, slash])
  | .string body => quote :: (body ++ [quote])
  | .escapeString letter body => letter ++ quote :: (body ++ [quote])
  | .quotedIdentifier body => doubleQuote :: (body ++ [doubleQuote])
  | .dollarString tag body => delimiter tag ++ (body ++ delimiter tag)
  | .identifier text | .number text => text
  | .semicolon => [Ascii.semicolon]

/-! ### Classes of bytes -/

def isNewline (c : UInt8) : Bool := c = newline || c = carriageReturn

def isSpace (c : UInt8) : Bool := c = 32 || (9 ≤ c && c ≤ 13)

def isIdentStart (c : UInt8) : Bool := isLetter c || c = underscore || 128 ≤ c

def isTagChar (c : UInt8) : Bool := isIdentStart c || isDigit c

def isIdentChar (c : UInt8) : Bool := isTagChar c || c = dollar

/-! ### Readers

A reader answers what it read and what follows, `none` if the text ends before. -/

def consume (text : Bytes) (r : Option (Bytes × Bytes)) : Option (Bytes × Bytes) :=
  r.map fun (body, rest) => (text ++ body, rest)

def lineEnd : Bytes → Bytes × Bytes
  | c :: c' :: cs =>
    if c = carriageReturn ∧ c' = newline then ([c, c'], cs) else ([c], c' :: cs)
  | cs => (cs, [])

/-- The body of a comment that stands in `depth` others, which it closes as well. -/
def commentBody : Nat → Bytes → Option (Bytes × Bytes)
  | depth, c :: c' :: cs =>
    if c = slash ∧ c' = asterisk then consume [c, c'] (commentBody (depth + 1) cs)
    else if c = asterisk ∧ c' = slash then
      if depth = 0 then some ([], cs) else consume [c, c'] (commentBody (depth - 1) cs)
    else consume [c] (commentBody depth (c' :: cs))
  | _, _ => none

/-- Up to the quote `q` that closes: a doubled one does not, nor one after a backslash if that
escapes. -/
def quotedBody (q : UInt8) (escapes : Bool) : Bytes → Option (Bytes × Bytes)
  | [] => none
  | [c] => if c = q then some ([], []) else none
  | c :: c' :: cs =>
    if escapes = true ∧ c = backslash then consume [c, c'] (quotedBody q escapes cs)
    else if c ≠ q then consume [c] (quotedBody q escapes (c' :: cs))
    else if c' = q then consume [c, c'] (quotedBody q escapes cs)
    else some ([], c' :: cs)

/-- What follows a `$` and makes it the start of a dollar quote: a tag, perhaps empty, and a
`$`. -/
def dollarTag (cs : Bytes) : Option (Bytes × Bytes) :=
  let tag := if cs.head?.any isIdentStart then cs.takeWhile isTagChar else []
  match cs.drop tag.length with
  | c :: rest => if c = dollar then some (tag, rest) else none
  | [] => none

def dollarBody (delim : Bytes) : Bytes → Option (Bytes × Bytes)
  | [] => none
  | c :: cs =>
    if delim <+: c :: cs then some ([], (c :: cs).drop delim.length)
    else consume [c] (dollarBody delim cs)

/-- The lexeme at the front. `continues` if a string read before goes on with a quote here, and a
backslash escapes in it. -/
def next (continues : Bool) (c : UInt8) (cs : Bytes) : Option (Lexeme × Bytes) :=
  if isSpace c then some (.space c, cs)
  else if c = dash ∧ cs.head? = some dash then
    let text := cs.tail.takeWhile fun c => !isNewline c
    let r := lineEnd (cs.tail.dropWhile fun c => !isNewline c)
    some (.lineComment text r.1, r.2)
  else if c = slash ∧ cs.head? = some asterisk then
    (commentBody 0 cs.tail).map fun (body, rest) => (.blockComment body, rest)
  else if c = quote then
    (quotedBody quote continues cs).map fun (body, rest) =>
      (if continues then .escapeString [] body else .string body, rest)
  else if c = doubleQuote then
    (quotedBody doubleQuote false cs).map fun (body, rest) => (.quotedIdentifier body, rest)
  else if c = semicolon then some (.semicolon, cs)
  else if c = dollar then
    match dollarTag cs with
    | some (tag, rest) =>
      (dollarBody (delimiter tag) rest).map fun (body, rest) => (.dollarString tag body, rest)
    | none => some (.other c, cs)
  else if isIdentStart c then
    if (c = 69 ∨ c = 101) ∧ cs.head? = some quote then
      (quotedBody quote true cs.tail).map fun (body, rest) => (.escapeString [c] body, rest)
    else some (.identifier (c :: cs.takeWhile isIdentChar), cs.dropWhile isIdentChar)
  else if isDigit c then
    some (.number (c :: cs.takeWhile isTagChar), cs.dropWhile isTagChar)
  else some (.other c, cs)

/-- Whether a backslash escapes a quote in this body. -/
def escapesQuote : Bytes → Bool
  | c :: c' :: cs =>
    if c = backslash then c' = quote || escapesQuote cs else escapesQuote (c' :: cs)
  | _ => false

/-! ### What a reader reads -/

/-- What ends a line, and what follows: a carriage return takes a newline with it. -/
inductive EndsLine : Bytes → Bytes → Prop
  | newline (rest : Bytes) : EndsLine [newline] rest
  | carriageReturn (rest : Bytes) : EndsLine [carriageReturn] rest
  | both (rest : Bytes) : EndsLine [carriageReturn, Ascii.newline] rest
  | endOfText : EndsLine [] []

/-- The ways to read a lexeme: the text it is read from, and what is left. -/
inductive Reads (continues : Bool) : Lexeme → Bytes → Bytes → Prop
  | space {c cs} (hc : isSpace c = true) : Reads continues (.space c) (c :: cs) cs
  | lineComment {text lineEnd rest} (htext : ∀ c ∈ text, isNewline c = false)
      (hend : EndsLine lineEnd rest) :
      Reads continues (.lineComment text lineEnd) (dash :: dash :: (text ++ (lineEnd ++ rest))) rest
  | blockComment {body cs rest} (hbody : commentBody 0 cs = some (body, rest)) :
      Reads continues (.blockComment body) (slash :: asterisk :: cs) rest
  | string {body cs rest} (hcontinues : continues = false)
      (hbody : quotedBody quote false cs = some (body, rest)) :
      Reads continues (.string body) (quote :: cs) rest
  | escapeString {letter body cs rest} (hletter : letter = [] ∨ letter = [69] ∨ letter = [101])
      (hbody : quotedBody quote true cs = some (body, rest)) :
      Reads continues (.escapeString letter body) (letter ++ quote :: cs) rest
  | quotedIdentifier {body cs rest} (hbody : quotedBody doubleQuote false cs = some (body, rest)) :
      Reads continues (.quotedIdentifier body) (doubleQuote :: cs) rest
  | semicolon {cs} : Reads continues .semicolon (Ascii.semicolon :: cs) cs
  | dollarString {tag text body cs rest} (htag : dollarTag cs = some (tag, text))
      (hbody : dollarBody (delimiter tag) text = some (body, rest)) :
      Reads continues (.dollarString tag body) (dollar :: cs) rest
  | identifier {c cs} (hc : isIdentStart c = true) :
      Reads continues (.identifier (c :: cs.takeWhile isIdentChar)) (c :: cs)
        (cs.dropWhile isIdentChar)
  | number {c cs} (hc : isDigit c = true) :
      Reads continues (.number (c :: cs.takeWhile isTagChar)) (c :: cs) (cs.dropWhile isTagChar)
  | other {c : UInt8} {cs : Bytes} (hquote : c ≠ quote) (hsemicolon : c ≠ Ascii.semicolon)
      (hdash : c = dash → cs.head? ≠ some dash) (hslash : c = slash → cs.head? ≠ some asterisk)
      (hdollar : c = dollar → dollarTag cs = none) : Reads continues (.other c) (c :: cs) cs

variable {continues : Bool} {l : Lexeme} {c q : UInt8} {body cs rest tag delim : Bytes}

theorem consume_eq_some {text read : Bytes} {r : Option (Bytes × Bytes)}
    (h : consume text r = some (read, rest)) :
    ∃ body, r = some (body, rest) ∧ read = text ++ body := by
  obtain ⟨⟨body, rest⟩, hr, hread⟩ := Option.map_eq_some_iff.mp h
  obtain ⟨rfl, rfl⟩ := Prod.mk.inj hread
  exact ⟨body, hr, rfl⟩

theorem endsLine_lineEnd (hcs : ∀ c, cs.head? = some c → isNewline c = true) :
    EndsLine (lineEnd cs).1 (lineEnd cs).2 ∧ (lineEnd cs).1 ++ (lineEnd cs).2 = cs := by
  have hfirst : ∀ c, isNewline c = true → c = newline ∨ c = carriageReturn := by
    intro c hc
    rw [isNewline, Bool.or_eq_true, decide_eq_true_iff, decide_eq_true_iff] at hc
    exact hc
  match cs, hcs with
  | [], _ => exact ⟨.endOfText, rfl⟩
  | [c], hcs =>
    rcases hfirst c (hcs c rfl) with rfl | rfl
    · exact ⟨.newline _, rfl⟩
    · exact ⟨.carriageReturn _, rfl⟩
  | c :: c' :: cs, hcs =>
    rw [lineEnd]
    split
    · rename_i hend
      obtain ⟨rfl, rfl⟩ := hend
      exact ⟨.both cs, rfl⟩
    · rcases hfirst c (hcs c rfl) with rfl | rfl
      · exact ⟨.newline _, rfl⟩
      · exact ⟨.carriageReturn _, rfl⟩

theorem commentBody_append {depth : Nat} (h : commentBody depth cs = some (body, rest)) :
    body ++ asterisk :: slash :: rest = cs := by
  fun_induction commentBody depth cs generalizing body with
  | case1 depth c c' cs hopen ih =>
    obtain ⟨body, hbody, rfl⟩ := consume_eq_some h
    exact congrArg (c :: c' :: ·) (ih hbody)
  | case2 c c' cs hopen hclose =>
    obtain ⟨rfl, rfl⟩ := Prod.mk.inj (Option.some.inj h)
    obtain ⟨rfl, rfl⟩ := hclose
    rfl
  | case3 depth c c' cs hopen hclose hdepth ih =>
    obtain ⟨body, hbody, rfl⟩ := consume_eq_some h
    exact congrArg (c :: c' :: ·) (ih hbody)
  | case4 depth c c' cs hopen hclose ih =>
    obtain ⟨body, hbody, rfl⟩ := consume_eq_some h
    exact congrArg (c :: ·) (ih hbody)
  | case5 => cases h

theorem quotedBody_append {escapes : Bool} (h : quotedBody q escapes cs = some (body, rest)) :
    body ++ q :: rest = cs := by
  fun_induction quotedBody q escapes cs generalizing body with
  | case1 => cases h
  | case2 =>
    obtain ⟨rfl, rfl⟩ := Prod.mk.inj (Option.some.inj h)
    rfl
  | case3 => cases h
  | case4 c c' cs hescape ih =>
    obtain ⟨body, hbody, rfl⟩ := consume_eq_some h
    exact congrArg (c :: c' :: ·) (ih hbody)
  | case5 c c' cs hescape hc ih =>
    obtain ⟨body, hbody, rfl⟩ := consume_eq_some h
    exact congrArg (c :: ·) (ih hbody)
  | case6 c cs hescape hc ih =>
    obtain ⟨body, hbody, rfl⟩ := consume_eq_some h
    exact congrArg (c :: q :: ·) (ih hbody)
  | case7 c c' cs hescape hc hc' =>
    obtain ⟨rfl, rfl⟩ := Prod.mk.inj (Option.some.inj h)
    rw [not_not.mp hc]
    rfl

theorem dollarBody_append (h : dollarBody delim cs = some (body, rest)) :
    body ++ delim ++ rest = cs := by
  induction cs generalizing body with
  | nil => cases h
  | cons c cs ih =>
    rw [dollarBody] at h
    split at h
    · rename_i hdelim
      obtain ⟨rfl, rfl⟩ := Prod.mk.inj (Option.some.inj h)
      exact List.prefix_iff_eq_append.mp hdelim
    · obtain ⟨body, hbody, rfl⟩ := consume_eq_some h
      exact congrArg (c :: ·) (ih hbody)

/-- What may stand between the two `$` of a dollar quote. -/
structure IsTag (tag : Bytes) : Prop where
  start : ∀ c, tag.head? = some c → isIdentStart c = true
  chars : ∀ c ∈ tag, isTagChar c = true

theorem isTag_takeWhile (cs : Bytes) :
    IsTag (if cs.head?.any isIdentStart then cs.takeWhile isTagChar else []) := by
  split
  · rename_i hstart
    refine ⟨?_, fun c hc => List.mem_takeWhile_imp hc⟩
    intro c hc
    have hhead := (List.singleton_prefix_iff_head?_eq_some.mpr hc).trans
      (cs.takeWhile_prefix isTagChar)
    rw [List.singleton_prefix_iff_head?_eq_some.mp hhead] at hstart
    exact hstart
  · exact ⟨nofun, nofun⟩

theorem dollarTag_eq_some_iff :
    dollarTag cs = some (tag, rest) ↔ IsTag tag ∧ cs = tag ++ dollar :: rest := by
  constructor
  · intro h
    have hstart : (if cs.head?.any isIdentStart then cs.takeWhile isTagChar else []) <+: cs := by
      split
      · exact List.takeWhile_prefix _
      · exact List.nil_prefix
    rw [dollarTag] at h
    split at h
    · rename_i c rest' hdrop
      split at h
      · rename_i hc
        obtain ⟨rfl, rfl⟩ := Prod.mk.inj (Option.some.inj h)
        rw [hc] at hdrop
        refine ⟨isTag_takeWhile cs, ?_⟩
        rw [← hdrop]
        exact (List.prefix_iff_eq_append.mp hstart).symm
      · cases h
    · cases h
  · rintro ⟨htag, rfl⟩
    have hdollar : isTagChar dollar = false := by decide
    have htake : (if (tag ++ dollar :: rest).head?.any isIdentStart then
        (tag ++ dollar :: rest).takeWhile isTagChar else []) = tag := by
      cases tag with
      | nil => rfl
      | cons c tag =>
        have hc : isIdentStart c = true := htag.start c rfl
        rw [List.cons_append, List.head?_cons, Option.any_some, if_pos hc, ← List.cons_append,
          List.takeWhile_append_of_pos htag.chars, List.takeWhile_cons_of_neg (by simp [hdollar]),
          List.append_nil]
    rw [dollarTag, htake]
    simp

theorem reads_of_next (h : next continues c cs = some (l, rest)) :
    Reads continues l (c :: cs) rest := by
  unfold next at h
  split at h
  · rename_i hspace
    obtain ⟨rfl, rfl⟩ := Prod.mk.inj (Option.some.inj h)
    exact .space hspace
  split at h
  · rename_i hdash
    obtain ⟨rfl, hdash⟩ := hdash
    obtain ⟨cs, rfl⟩ := List.head?_eq_some_iff.mp hdash
    obtain ⟨rfl, rfl⟩ := Prod.mk.inj (Option.some.inj h)
    have htext : ∀ c ∈ cs.takeWhile fun c => !isNewline c, isNewline c = false :=
      fun c hc => by simpa using List.mem_takeWhile_imp hc
    have hstop : ∀ c, (cs.dropWhile fun c => !isNewline c).head? = some c → isNewline c = true := by
      intro c hc
      have hnot := cs.head?_dropWhile_not fun c => !isNewline c
      rw [hc] at hnot
      simpa using hnot
    obtain ⟨hend, happend⟩ := endsLine_lineEnd hstop
    have hline : Reads continues _ _ _ := .lineComment htext hend
    rw [happend, List.takeWhile_append_dropWhile] at hline
    exact hline
  split at h
  · rename_i hslash
    obtain ⟨rfl, hstar⟩ := hslash
    obtain ⟨cs, rfl⟩ := List.head?_eq_some_iff.mp hstar
    obtain ⟨⟨body, rest⟩, hbody, hl⟩ := Option.map_eq_some_iff.mp h
    obtain ⟨rfl, rfl⟩ := Prod.mk.inj hl
    exact .blockComment hbody
  split at h
  · rename_i hquote
    obtain rfl := hquote
    obtain ⟨⟨body, rest⟩, hbody, hl⟩ := Option.map_eq_some_iff.mp h
    cases continues with
    | false =>
      obtain ⟨rfl, rfl⟩ := Prod.mk.inj hl
      exact .string rfl hbody
    | true =>
      obtain ⟨rfl, rfl⟩ := Prod.mk.inj hl
      exact .escapeString (.inl rfl) hbody
  rename_i hdash hslash hquote
  split at h
  · rename_i hdouble
    obtain rfl := hdouble
    obtain ⟨⟨body, rest⟩, hbody, hl⟩ := Option.map_eq_some_iff.mp h
    obtain ⟨rfl, rfl⟩ := Prod.mk.inj hl
    exact .quotedIdentifier hbody
  split at h
  · rename_i hsemicolon
    obtain rfl := hsemicolon
    obtain ⟨rfl, rfl⟩ := Prod.mk.inj (Option.some.inj h)
    exact .semicolon
  rename_i hsemicolon
  -- What is left is a byte of its own unless it starts a longer lexeme.
  have hother : (c = dollar → dollarTag cs = none) → Reads continues (.other c) (c :: cs) cs :=
    .other hquote hsemicolon (fun hc hcs => hdash ⟨hc, hcs⟩) fun hc hcs => hslash ⟨hc, hcs⟩
  split at h
  · rename_i hdollar
    split at h
    · rename_i tag text htag
      obtain ⟨⟨body, rest⟩, hbody, hl⟩ := Option.map_eq_some_iff.mp h
      obtain ⟨rfl, rfl⟩ := Prod.mk.inj hl
      rw [hdollar]
      exact .dollarString htag hbody
    · rename_i htag
      obtain ⟨rfl, rfl⟩ := Prod.mk.inj (Option.some.inj h)
      exact hother fun _ => htag
  rename_i hdollar
  split at h
  · rename_i hstart
    split at h
    · rename_i hletter
      obtain ⟨hletter, hquote⟩ := hletter
      obtain ⟨cs, rfl⟩ := List.head?_eq_some_iff.mp hquote
      obtain ⟨⟨body, rest⟩, hbody, hl⟩ := Option.map_eq_some_iff.mp h
      obtain ⟨rfl, rfl⟩ := Prod.mk.inj hl
      have hone : [c] = [] ∨ [c] = [69] ∨ [c] = [101] := by
        rcases hletter with rfl | rfl
        · exact .inr (.inl rfl)
        · exact .inr (.inr rfl)
      exact Reads.escapeString hone hbody
    · obtain ⟨rfl, rfl⟩ := Prod.mk.inj (Option.some.inj h)
      exact .identifier hstart
  split at h
  · rename_i hdigit
    obtain ⟨rfl, rfl⟩ := Prod.mk.inj (Option.some.inj h)
    exact .number hdigit
  · obtain ⟨rfl, rfl⟩ := Prod.mk.inj (Option.some.inj h)
    exact hother fun hc => absurd hc hdollar

/-- A lexeme is the text it was read from. -/
theorem Reads.bytes_append (h : Reads continues l cs rest) : l.bytes ++ rest = cs := by
  cases h with
  | space | semicolon | other => rfl
  | lineComment =>
    simp [Lexeme.bytes]
  | blockComment hbody =>
    rw [← commentBody_append hbody]
    simp [Lexeme.bytes]
  | string hcontinues hbody =>
    rw [← quotedBody_append hbody]
    simp [Lexeme.bytes]
  | escapeString hletter hbody =>
    rw [← quotedBody_append hbody]
    simp [Lexeme.bytes]
  | quotedIdentifier hbody =>
    rw [← quotedBody_append hbody]
    simp [Lexeme.bytes]
  | dollarString htag hbody =>
    rw [(dollarTag_eq_some_iff.mp htag).2, ← dollarBody_append hbody]
    simp [Lexeme.bytes, delimiter]
  | identifier | number => exact congrArg (_ :: ·) List.takeWhile_append_dropWhile

theorem Reads.bytes_ne_nil (h : Reads continues l cs rest) : l.bytes ≠ [] := by
  cases h <;> simp [Lexeme.bytes, delimiter]

theorem next_length (h : next continues c cs = some (l, rest)) :
    rest.length < (c :: cs).length := by
  have hreads := reads_of_next h
  have hpos := List.length_pos_iff.mpr hreads.bytes_ne_nil
  rw [← hreads.bytes_append, List.length_append]
  omega

/-! ### A whole script -/

/-- Whether a string with escapes has just ended, and a line after it: after that a quote goes on
with the string. -/
inductive Pending
  | none
  | string
  | line
  deriving DecidableEq

def Pending.after : Pending → Lexeme → Pending
  | _, .escapeString _ _ => .string
  | .string, .space c => if isNewline c then .line else .string
  | .string, .lineComment _ _ | .line, .space _ | .line, .lineComment _ _ => .line
  | _, _ => .none

def lexFrom (pending : Pending) : Bytes → Option (List Lexeme)
  | [] => some []
  | c :: cs =>
    match _h : next (pending = .line) c cs with
    | some (l, rest) => (lexFrom (pending.after l) rest).map (l :: ·)
    | none => none
termination_by cs => cs.length
decreasing_by exact next_length _h

def lex (script : Bytes) : Option (List Lexeme) := lexFrom .none script

/-- For every byte, whether it is a semicolon outside comments, constants and quoted names. -/
def Lexeme.ends : Lexeme → List Bool
  | .semicolon => [true]
  | l => List.replicate l.bytes.length false

def ends (lexemes : List Lexeme) : List Bool := lexemes.flatMap Lexeme.ends

/-- A property of lexemes and texts that every lexeme passes on from what follows it holds of every
script. -/
theorem lexFrom_induction {motive : List Lexeme → Bytes → Prop} (nil : motive [] [])
    (cons : ∀ {continues l lexemes cs rest}, Reads continues l cs rest → motive lexemes rest →
      motive (l :: lexemes) cs)
    {pending : Pending} {script : Bytes} {lexemes : List Lexeme}
    (h : lexFrom pending script = some lexemes) : motive lexemes script := by
  fun_induction lexFrom pending script generalizing lexemes with
  | case1 =>
    obtain rfl := Option.some.inj h
    exact nil
  | case2 pending c cs l rest hnext ih =>
    obtain ⟨lexemes, hrest, rfl⟩ := Option.map_eq_some_iff.mp h
    exact cons (reads_of_next hnext) (ih hrest)
  | case3 => cases h

theorem bytes_of_lex {script : Bytes} {lexemes : List Lexeme} (h : lex script = some lexemes) :
    lexemes.flatMap Lexeme.bytes = script := by
  refine lexFrom_induction
    (motive := fun lexemes script => lexemes.flatMap Lexeme.bytes = script) rfl ?_ h
  intro continues l lexemes cs rest hreads ih
  rw [List.flatMap_cons, ih, hreads.bytes_append]

example : lex (bytes "e''\n'\\''") =
    some [.escapeString [101] [], .space newline, .escapeString [] [backslash, quote]] := by
  decide +kernel

end AuthForge.Sql
