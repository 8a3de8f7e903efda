import AuthForge.Base.SqlLexer
import AuthForge.Schema.SqlSplitter

/-!
# Where the splitter ends a statement

The splitter against the lexemes of PostgreSQL. It has no rule for nested comments, for a backslash
in a string, for quoted identifiers, for a `$` inside an identifier, for tags beyond ASCII and for
lines that end in a carriage return. A script in which none of these hides anything is cut exactly
at its semicolons.
-/

namespace AuthForge.StatementEnds

open Ascii Schema.Splitter
open Sql (Lexeme Reads)

variable {c : UInt8} {cs rest text body tag delim : Bytes}

/-! ### Single bytes -/

/-- The main loop copies this byte and nothing more. -/
structure Passes (c : UInt8) (cs : Bytes) : Prop where
  semicolon : c ≠ semicolon
  quote : c ≠ quote
  dash : c = dash → cs.head? ≠ some Ascii.dash
  slash : c = slash → cs.head? ≠ some asterisk
  dollar : c = dollar → opener cs = none

theorem ends_cons (hc : c ≠ semicolon) :
    ends (c :: cs) = List.replicate (chunk c cs).1.length false ++ ends (chunk c cs).2 := by
  rw [ends, if_neg hc]

theorem Passes.ends (h : Passes c cs) : ends (c :: cs) = false :: ends cs := by
  have hopener : (if c = Ascii.dollar then opener cs else none) = none := by
    split
    · rename_i hc
      exact h.dollar hc
    · rfl
  have hchunk : chunk c cs = ([c], cs) := by
    rw [chunk, if_neg fun hd => h.dash hd.1 hd.2, if_neg fun hs => h.slash hs.1 hs.2,
      if_neg h.quote, hopener]
  rw [ends_cons h.semicolon, hchunk]
  rfl

theorem ends_of_passes (h : ∀ c cs, c :: cs <:+ text → Passes c (cs ++ rest)) :
    ends (text ++ rest) = List.replicate text.length false ++ ends rest := by
  induction text with
  | nil => rfl
  | cons c text ih =>
    rw [List.cons_append, (h c text List.suffix_rfl).ends,
      ih fun c cs hcs => h c cs (hcs.trans (List.suffix_cons _ _))]
    rfl

/-- A byte that starts nothing. -/
theorem passes_of_ne (p : UInt8 → Bool) (hc : p c = true) (hquote : p quote = false)
    (hsemicolon : p semicolon = false) (hdash : p dash = false) (hslash : p slash = false)
    (hdollar : c = dollar → opener cs = none) : Passes c cs := by
  have hne : ∀ d, p d = false → c ≠ d := by
    rintro d hd rfl
    rw [hc] at hd
    cases hd
  exact ⟨hne _ hsemicolon, hne _ hquote, fun h => absurd h (hne _ hdash),
    fun h => absurd h (hne _ hslash), hdollar⟩

/-! ### Openers -/

/-- A tag as the splitter reads it: in ASCII. -/
structure IsTag (tag : Bytes) : Prop where
  start : ∀ c, tag.head? = some c → isTagStart c = true
  chars : ∀ c ∈ tag, isTagChar c = true

theorem isTag_nil : IsTag [] where
  start _ h := nomatch h
  chars _ h := nomatch h

theorem IsTag.concat (htag : IsTag tag) (hc : accepts tag c = true) : IsTag (tag ++ [c]) := by
  rw [accepts] at hc
  cases tag with
  | nil =>
    rw [if_pos rfl] at hc
    refine ⟨?_, ?_⟩
    · intro d hd
      obtain rfl := Option.some.inj hd
      exact hc
    · intro d hd
      obtain rfl := List.mem_singleton.mp hd
      exact isTagChar_of_isTagStart hc
  | cons d tag =>
    rw [if_neg (List.cons_ne_nil _ _)] at hc
    refine ⟨htag.start, ?_⟩
    intro e he
    rcases List.mem_append.mp he with he | he
    · exact htag.chars e he
    · obtain rfl := List.mem_singleton.mp he
      exact hc

theorem isTag_readTag (htag : IsTag tag) (cs : Bytes) : IsTag (readTag tag cs).1 := by
  induction cs generalizing tag with
  | nil => exact htag
  | cons c cs ih =>
    rw [readTag]
    split
    · exact htag
    split
    · rename_i hc
      exact ih (htag.concat hc)
    · exact htag

theorem readTag_of_isTag (read : Bytes) (h : IsTag (read ++ tag)) :
    readTag read (tag ++ dollar :: rest) = (read ++ tag, dollar :: rest) := by
  induction tag generalizing read with
  | nil => rw [List.nil_append, readTag, if_pos (.inl rfl), List.append_nil]
  | cons c tag ih =>
    have hchar := h.chars c (by simp)
    have haccepts : accepts read c = true := by
      rw [accepts]
      split
      · rename_i hnil
        rw [hnil] at h
        exact h.start c rfl
      · exact hchar
    rw [List.cons_append, readTag,
      if_neg (not_or.mpr ⟨ne_of_isTagChar hchar (by decide), ne_of_isTagChar hchar (by decide)⟩),
      if_pos haccepts, ih (read ++ [c]) (by rwa [← List.append_cons]), ← List.append_cons]

theorem opener_eq_some_iff :
    opener cs = some delim ↔
      ∃ tag rest, IsTag tag ∧ cs = tag ++ dollar :: rest ∧ delim = Sql.delimiter tag := by
  rw [opener]
  constructor
  · intro h
    split at h
    · rename_i hdollar
      obtain ⟨rest, hrest⟩ := List.head?_eq_some_iff.mp hdollar
      have happend := readTag_append [] cs
      rw [hrest] at happend
      exact ⟨_, rest, isTag_readTag isTag_nil cs, happend.symm, (Option.some.inj h).symm⟩
    · cases h
  · rintro ⟨tag, rest, htag, rfl, rfl⟩
    rw [readTag_of_isTag [] htag]
    rfl

theorem opener_eq_none_iff :
    opener cs = none ↔ ∀ tag rest, IsTag tag → cs ≠ tag ++ dollar :: rest := by
  rw [Option.eq_none_iff_forall_ne_some]
  constructor
  · intro h tag rest htag hcs
    exact h _ (opener_eq_some_iff.mpr ⟨tag, rest, htag, hcs, rfl⟩)
  · intro h delim hdelim
    obtain ⟨tag, rest, htag, hcs, -⟩ := opener_eq_some_iff.mp hdelim
    exact h tag rest htag hcs

/-- A text without an opener has none before a byte that goes on with no tag. -/
theorem opener_append (h : opener cs = none)
    (hrest : ∀ c, rest.head? = some c → c ≠ dollar ∧ isTagChar c = false) :
    opener (cs ++ rest) = none := by
  rw [opener_eq_none_iff] at h ⊢
  intro tag after htag happend
  obtain ⟨more, rfl, hmore⟩ | ⟨more, hmore, hcs⟩ := List.append_eq_append_iff.mp happend
  · cases more with
    | nil =>
      obtain rfl : rest = dollar :: after := hmore
      exact (hrest dollar rfl).1 rfl
    | cons c more =>
      obtain rfl : rest = c :: more ++ dollar :: after := hmore
      have hchar := htag.chars c (by simp)
      rw [(hrest c rfl).2] at hchar
      cases hchar
  · cases more with
    | nil =>
      obtain rfl : dollar :: after = rest := hcs
      exact (hrest dollar rfl).1 rfl
    | cons c more =>
      obtain ⟨rfl, -⟩ := List.cons.inj hcs
      exact h tag more htag hmore

/-! ### What the splitter has rules for -/

/-- Nothing in the text opens anything or ends a statement. -/
structure Bare (text : Bytes) : Prop where
  quote : quote ∉ text
  semicolon : semicolon ∉ text
  line : ¬[dash, dash] <:+: text
  block : ¬[slash, asterisk] <:+: text
  dollar : ∀ tag, IsTag tag → ¬Sql.delimiter tag <:+: text

/-- A lexeme that hides nothing from the splitter. -/
def Recognized : Lexeme → Prop
  | .lineComment _ lineEnd => lineEnd ≠ [carriageReturn]
  | .blockComment body => ¬[slash, asterisk] <:+: body
  | .escapeString _ body => Sql.escapesQuote body = false
  | .quotedIdentifier body => Bare body
  | .dollarString tag _ => ∀ c ∈ tag, c < 128
  | .identifier text => Bare text
  | _ => True

theorem Bare.opener (h : Bare text) (hcs : Ascii.dollar :: cs <:+ text)
    (hrest : ∀ c, rest.head? = some c → c ≠ Ascii.dollar ∧ isTagChar c = false) :
    opener (cs ++ rest) = none := by
  refine opener_append (opener_eq_none_iff.mpr ?_) hrest
  rintro tag after htag rfl
  refine h.dollar tag htag (List.IsInfix.trans ?_ hcs.isInfix)
  exact ⟨[], after, by simp [Sql.delimiter]⟩

/-! ### Comments -/

theorem lineComment_of_not_mem (h : newline ∉ text) (rest : Bytes) :
    lineComment (text ++ newline :: rest) = (text, newline :: rest) := by
  induction text with
  | nil => rw [List.nil_append, lineComment, if_pos rfl]
  | cons c text ih =>
    obtain ⟨hc, htext⟩ := not_or.mp (mt List.mem_cons.mpr h)
    rw [List.cons_append, lineComment, if_neg (Ne.symm hc), ih htext]

theorem lineComment_of_not_mem_of_end (h : newline ∉ text) : lineComment text = (text, []) := by
  induction text with
  | nil => rfl
  | cons c text ih =>
    obtain ⟨hc, htext⟩ := not_or.mp (mt List.mem_cons.mpr h)
    rw [lineComment, if_neg (Ne.symm hc), ih htext]

theorem ends_line (cs : Bytes) :
    ends (dash :: dash :: cs) =
      List.replicate ((lineComment cs).1.length + 2) false ++ ends (lineComment cs).2 :=
  ends_cons (by decide)

theorem ends_newline (rest : Bytes) : ends (newline :: rest) = false :: ends rest :=
  (passes_of_ne isBlank (by decide) (by decide) (by decide) (by decide) (by decide)
    (fun h => absurd h (by decide))).ends

theorem ends_lineComment (h : newline ∉ text) (rest : Bytes) :
    ends (dash :: dash :: (text ++ newline :: rest)) =
      List.replicate (text.length + 3) false ++ ends rest := by
  rw [ends_line, lineComment_of_not_mem h, ends_newline, List.append_cons, ← List.replicate_succ']

theorem blockComment_of_commentBody (h : Sql.commentBody 0 cs = some (body, rest))
    (hnested : ¬[slash, asterisk] <:+: body) :
    blockComment cs = (body ++ [asterisk, slash], rest) := by
  generalize hdepth : 0 = depth at h
  fun_induction Sql.commentBody depth cs generalizing body with
  | case1 depth c c' cs hopen ih =>
    obtain ⟨body, -, rfl⟩ := Sql.consume_eq_some h
    obtain ⟨rfl, rfl⟩ := hopen
    exact absurd (List.prefix_append _ _).isInfix hnested
  | case2 c c' cs hopen hclose =>
    obtain ⟨rfl, rfl⟩ := Prod.mk.inj (Option.some.inj h)
    obtain ⟨rfl, rfl⟩ := hclose
    rw [blockComment, if_pos ⟨rfl, rfl⟩]
    rfl
  | case3 depth c c' cs hopen hclose hne ih => exact absurd hdepth.symm hne
  | case4 depth c c' cs hopen hclose ih =>
    obtain ⟨body, hbody, rfl⟩ := Sql.consume_eq_some h
    have hrest := ih (fun hin => hnested (hin.trans (List.suffix_cons c body).isInfix)) hdepth hbody
    rw [blockComment, if_neg fun hc => hclose ⟨hc.1, Option.some.inj hc.2⟩, hrest]
    rfl
  | case5 => cases h

theorem ends_blockComment (h : Sql.commentBody 0 cs = some (body, rest))
    (hnested : ¬[slash, asterisk] <:+: body) :
    ends (slash :: asterisk :: cs) = List.replicate (body.length + 4) false ++ ends rest := by
  have hchunk : chunk slash (asterisk :: cs) = (slash :: asterisk :: (blockComment cs).1,
      (blockComment cs).2) := rfl
  rw [ends_cons (by decide), hchunk, blockComment_of_commentBody h hnested]
  simp [List.replicate_succ]

/-! ### Strings -/

theorem escapesQuote_cons (hc : c ≠ backslash) (body : Bytes) :
    Sql.escapesQuote (c :: body) = Sql.escapesQuote body := by
  cases body with
  | nil => rfl
  | cons c' body => rw [Sql.escapesQuote, if_neg hc]

theorem quoted_cons (hc : c ≠ quote) (cs : Bytes) :
    quoted (c :: cs) = (c :: (quoted cs).1, (quoted cs).2) := by
  cases cs with
  | nil => exact if_pos hc
  | cons => exact if_pos hc

theorem quoted_doubled (cs : Bytes) :
    quoted (quote :: quote :: cs) = (quote :: quote :: (quoted cs).1, (quoted cs).2) := rfl

theorem quoted_closed (hc : c ≠ quote) (cs : Bytes) :
    quoted (quote :: c :: cs) = ([quote], c :: cs) := by
  have hclosed : quoted (quote :: c :: cs) =
      if c = quote then (quote :: c :: (quoted cs).1, (quoted cs).2) else ([quote], c :: cs) := rfl
  rw [hclosed, if_neg hc]

theorem quoted_of_quotedBody {escapes : Bool}
    (h : Sql.quotedBody quote escapes cs = some (body, rest))
    (hescapes : escapes = true → Sql.escapesQuote body = false) :
    quoted cs = (body ++ [quote], rest) := by
  fun_induction Sql.quotedBody quote escapes cs generalizing body with
  | case1 => cases h
  | case2 =>
    obtain ⟨rfl, rfl⟩ := Prod.mk.inj (Option.some.inj h)
    rfl
  | case3 => cases h
  | case4 c c' cs hescape ih =>
    obtain ⟨body, hbody, rfl⟩ := Sql.consume_eq_some h
    obtain ⟨htrue, rfl⟩ := hescape
    have hnone := hescapes htrue
    rw [List.cons_append, List.cons_append, Sql.escapesQuote, if_pos rfl, Bool.or_eq_false_iff,
      decide_eq_false_iff_not] at hnone
    rw [quoted_cons (by decide), quoted_cons hnone.1, ih hbody fun _ => hnone.2]
    rfl
  | case5 c c' cs hescape hc ih =>
    obtain ⟨body, hbody, rfl⟩ := Sql.consume_eq_some h
    have hrest : escapes = true → Sql.escapesQuote body = false := by
      intro htrue
      rw [← escapesQuote_cons fun hc => hescape ⟨htrue, hc⟩]
      exact hescapes htrue
    rw [quoted_cons hc, ih hbody hrest]
    rfl
  | case6 c cs hescape hc ih =>
    obtain ⟨body, hbody, rfl⟩ := Sql.consume_eq_some h
    obtain rfl := not_not.mp hc
    have hrest : escapes = true → Sql.escapesQuote body = false := by
      intro htrue
      have hplain : quote ≠ backslash := by decide
      rw [← escapesQuote_cons hplain, ← escapesQuote_cons hplain]
      exact hescapes htrue
    rw [quoted_doubled, ih hbody hrest]
    rfl
  | case7 c c' cs hescape hc hc' =>
    obtain ⟨rfl, rfl⟩ := Prod.mk.inj (Option.some.inj h)
    obtain rfl := not_not.mp hc
    exact quoted_closed hc' cs

theorem ends_string {escapes : Bool} (h : Sql.quotedBody quote escapes cs = some (body, rest))
    (hescapes : escapes = true → Sql.escapesQuote body = false) :
    ends (quote :: cs) = List.replicate (body.length + 2) false ++ ends rest := by
  have hchunk : chunk quote cs = (quote :: (quoted cs).1, (quoted cs).2) := rfl
  rw [ends_cons (by decide), hchunk, quoted_of_quotedBody h hescapes]
  simp [List.replicate_succ]

/-! ### Dollar quotes -/

theorem dollarQuoted_of_dollarBody {delim : Bytes} (hdelim : delim.head? = some dollar)
    (h : Sql.dollarBody delim cs = some (body, rest)) :
    dollarQuoted delim cs = (body ++ delim, rest) := by
  induction cs generalizing body with
  | nil => cases h
  | cons c cs ih =>
    rw [Sql.dollarBody] at h
    rw [dollarQuoted]
    split at h
    · rename_i hstart
      obtain ⟨rfl, rfl⟩ := Prod.mk.inj (Option.some.inj h)
      have hc : c = dollar := by
        obtain ⟨delim, rfl⟩ := List.head?_eq_some_iff.mp hdelim
        exact (List.cons_prefix_cons.mp hstart).1.symm
      rw [if_pos ⟨hc, hstart⟩, List.nil_append]
    · rename_i hstart
      obtain ⟨body, hbody, rfl⟩ := Sql.consume_eq_some h
      rw [if_neg fun hd => hstart hd.2, ih hbody]
      rfl

theorem isLetter_or_of_isIdentStart (hc : Sql.isIdentStart c = true) (hlt : c < 128) :
    isTagStart c = true := by
  rw [Sql.isIdentStart, Bool.or_eq_true, decide_eq_true_iff] at hc
  exact hc.resolve_right (UInt8.not_le.mpr hlt)

theorem isTag_of_ascii (htag : Sql.IsTag tag) (hascii : ∀ c ∈ tag, c < 128) : IsTag tag where
  start c hc := isLetter_or_of_isIdentStart (htag.start c hc) (hascii c (List.mem_of_mem_head? hc))
  chars c hc := by
    have hchar := htag.chars c hc
    rw [Sql.isTagChar, Bool.or_eq_true] at hchar
    rw [isTagChar, Bool.or_assoc, Bool.or_comm (isDigit c), ← Bool.or_assoc, Bool.or_eq_true]
    exact hchar.imp_left fun hstart => isLetter_or_of_isIdentStart hstart (hascii c hc)

theorem isTag_of_isTag (htag : IsTag tag) : Sql.IsTag tag where
  start c hc := by
    rw [Sql.isIdentStart, Bool.or_eq_true]
    exact .inl (htag.start c hc)
  chars c hc := by
    have hchar := htag.chars c hc
    simp only [isTagChar, Sql.isTagChar, Sql.isIdentStart, Bool.or_eq_true] at hchar ⊢
    tauto

theorem opener_of_dollarTag (h : Sql.dollarTag cs = none) : opener cs = none := by
  rw [opener_eq_none_iff]
  intro tag rest htag hcs
  have hsome := Sql.dollarTag_eq_some_iff.mpr ⟨isTag_of_isTag htag, hcs⟩
  rw [h] at hsome
  cases hsome

theorem ends_dollarString (htag : Sql.dollarTag cs = some (tag, text)) (hascii : ∀ c ∈ tag, c < 128)
    (hbody : Sql.dollarBody (Sql.delimiter tag) text = some (body, rest)) :
    ends (dollar :: cs) =
      List.replicate (Sql.delimiter tag ++ (body ++ Sql.delimiter tag)).length false ++
        ends rest := by
  obtain ⟨hpg, hcs⟩ := Sql.dollarTag_eq_some_iff.mp htag
  have hopener : opener cs = some (Sql.delimiter tag) :=
    opener_eq_some_iff.mpr ⟨tag, text, isTag_of_ascii hpg hascii, hcs, rfl⟩
  have hdrop : (dollar :: cs).drop (Sql.delimiter tag).length = text := by
    have hsplit : dollar :: cs = Sql.delimiter tag ++ text := by
      rw [hcs, Sql.delimiter]
      simp
    rw [hsplit, List.drop_left]
  have hchunk : chunk dollar cs = (Sql.delimiter tag ++ (body ++ Sql.delimiter tag), rest) := by
    rw [chunk, if_neg (fun h => absurd h.1 (by decide)), if_neg (fun h => absurd h.1 (by decide)),
      if_neg (by decide), if_pos rfl, hopener]
    dsimp only
    rw [hdrop, dollarQuoted_of_dollarBody rfl hbody]
  rw [ends_cons (by decide), hchunk]

/-! ### Identifiers -/

theorem mem_of_suffix (h : c :: cs <:+ text) : c ∈ text := h.subset (List.mem_cons_self)

/-- A word of bytes that start nothing, unless a `$` does. -/
theorem ends_word (p : UInt8 → Bool) (hquote : p quote = false) (hsemicolon : p semicolon = false)
    (hdash : p dash = false) (hslash : p slash = false) (htext : ∀ c ∈ text, p c = true)
    (hopener : ∀ cs, dollar :: cs <:+ text → opener (cs ++ rest) = none) :
    ends (text ++ rest) = List.replicate text.length false ++ ends rest := by
  refine ends_of_passes ?_
  intro c cs hcs
  refine passes_of_ne p (htext c (mem_of_suffix hcs)) hquote hsemicolon hdash hslash ?_
  rintro rfl
  exact hopener cs hcs

theorem ends_identifier (hbare : Bare text) (htext : ∀ c ∈ text, Sql.isIdentChar c = true)
    (hrest : ∀ c, rest.head? = some c → Sql.isIdentChar c = false) :
    ends (text ++ rest) = List.replicate text.length false ++ ends rest := by
  refine ends_word Sql.isIdentChar (by decide) (by decide) (by decide) (by decide) htext ?_
  intro cs hcs
  refine hbare.opener hcs ?_
  intro c hc
  have hnot := hrest c hc
  rw [Sql.isIdentChar, Bool.or_eq_false_iff, decide_eq_false_iff_not] at hnot
  refine ⟨hnot.2, ?_⟩
  rw [Bool.eq_false_iff]
  intro htag
  have hone : IsTag [underscore, c] := by
    refine ⟨?_, ?_⟩
    · intro d hd
      obtain rfl := Option.some.inj hd
      decide
    · intro d hd
      rcases List.mem_cons.mp hd with rfl | hd
      · decide
      · obtain rfl := List.mem_singleton.mp hd
        exact htag
  rw [(isTag_of_isTag hone).chars c (by simp)] at hnot
  cases hnot.1

theorem ends_quotedIdentifier (hbare : Bare body) (rest : Bytes) :
    ends (doubleQuote :: (body ++ doubleQuote :: rest)) =
      List.replicate (body.length + 2) false ++ ends rest := by
  have hquotes : ∀ cs, ends (doubleQuote :: cs) = false :: ends cs := fun cs =>
    (passes_of_ne (· = doubleQuote) (by decide) (by decide) (by decide) (by decide) (by decide)
      fun h => absurd h (by decide)).ends
  have hbody : ends (body ++ doubleQuote :: rest) =
      List.replicate body.length false ++ ends (doubleQuote :: rest) := by
    refine ends_of_passes ?_
    intro c cs hcs
    -- The quotation mark that closes starts nothing with the byte before it.
    have hnext : ∀ d, d ≠ doubleQuote → (cs ++ doubleQuote :: rest).head? = some d →
        [c, d] <:+: body := by
      intro d hd hhead
      cases cs with
      | nil => exact absurd (Option.some.inj hhead).symm hd
      | cons e cs =>
        obtain rfl := Option.some.inj hhead
        exact (List.prefix_append [c, e] cs).isInfix.trans hcs.isInfix
    constructor
    · rintro rfl
      exact hbare.semicolon (mem_of_suffix hcs)
    · rintro rfl
      exact hbare.quote (mem_of_suffix hcs)
    · rintro rfl hhead
      exact hbare.line (hnext dash (by decide) hhead)
    · rintro rfl hhead
      exact hbare.block (hnext asterisk (by decide) hhead)
    · rintro rfl
      refine hbare.opener hcs ?_
      intro d hd
      obtain rfl := Option.some.inj hd
      exact ⟨by decide, by decide⟩
  rw [hquotes, hbody, hquotes, List.append_cons, ← List.replicate_succ']
  rfl

/-! ### Every lexeme -/

theorem ends_reads {continues : Bool} {l : Lexeme} (h : Reads continues l cs rest)
    (hl : Recognized l) : ends cs = l.ends ++ ends rest := by
  cases h with
  | @space c _ hc =>
    exact (passes_of_ne Sql.isSpace hc (by decide) (by decide) (by decide) (by decide)
      fun h => absurd (h ▸ hc) (by decide)).ends
  | @lineComment text lineEnd _ htext hend =>
    have hnewline : newline ∉ text := by
      intro hmem
      have hfalse := htext newline hmem
      cases hfalse
    cases hend with
    | newline => simpa [Lexeme.ends, Lexeme.bytes] using ends_lineComment hnewline rest
    | carriageReturn => exact absurd rfl hl
    | both =>
      have hreturn : newline ∉ text ++ [carriageReturn] := by
        simp only [List.mem_append, List.mem_singleton, not_or]
        exact ⟨hnewline, by decide⟩
      simpa [Lexeme.ends, Lexeme.bytes] using ends_lineComment hreturn rest
    | endOfText =>
      rw [List.append_nil, List.append_nil, ends_line, lineComment_of_not_mem_of_end hnewline]
      simp [Lexeme.ends, Lexeme.bytes]
  | blockComment hbody =>
    rw [ends_blockComment hbody hl]
    simp [Lexeme.ends, Lexeme.bytes]
  | string _ hbody =>
    rw [ends_string hbody fun h => absurd h Bool.false_ne_true]
    simp [Lexeme.ends, Lexeme.bytes]
  | escapeString hletter hbody =>
    have hstring := ends_string hbody fun _ => hl
    have hletters : ∀ c cs, (c = 69 ∨ c = 101) → ends (c :: cs) = false :: ends cs := by
      intro c cs hc
      have hletter : isLetter c = true := by
        rcases hc with rfl | rfl <;> decide
      exact (passes_of_ne isLetter hletter (by decide) (by decide) (by decide) (by decide)
        fun h => absurd (h ▸ hletter) (by decide)).ends
    rcases hletter with rfl | rfl | rfl
    · rw [List.nil_append, hstring]
      simp [Lexeme.ends, Lexeme.bytes]
    · rw [List.cons_append, hletters _ _ (.inl rfl), List.nil_append, hstring]
      simp [Lexeme.ends, Lexeme.bytes, List.replicate_succ]
    · rw [List.cons_append, hletters _ _ (.inr rfl), List.nil_append, hstring]
      simp [Lexeme.ends, Lexeme.bytes, List.replicate_succ]
  | quotedIdentifier hbody =>
    rw [← Sql.quotedBody_append hbody, ends_quotedIdentifier hl]
    simp [Lexeme.ends, Lexeme.bytes]
  | semicolon =>
    rw [ends, if_pos rfl]
    rfl
  | dollarString htag hbody => exact ends_dollarString htag hl hbody
  | @identifier c cs hc =>
    have htext : ∀ d ∈ c :: cs.takeWhile Sql.isIdentChar, Sql.isIdentChar d = true := by
      refine List.forall_mem_cons.mpr ⟨?_, fun d hd => List.mem_takeWhile_imp hd⟩
      rw [Sql.isIdentChar, Sql.isTagChar, hc]
      rfl
    have hrest : ∀ d, (cs.dropWhile Sql.isIdentChar).head? = some d →
        Sql.isIdentChar d = false := by
      intro d hd
      have hnot := cs.head?_dropWhile_not Sql.isIdentChar
      rw [hd] at hnot
      exact hnot
    have hends := ends_identifier hl htext hrest
    rwa [List.cons_append, List.takeWhile_append_dropWhile] at hends
  | @number c cs hc =>
    have htext : ∀ d ∈ c :: cs.takeWhile Sql.isTagChar, Sql.isTagChar d = true := by
      refine List.forall_mem_cons.mpr ⟨?_, fun d hd => List.mem_takeWhile_imp hd⟩
      rw [Sql.isTagChar, hc, Bool.or_true]
    have hopener : ∀ v, dollar :: v <:+ c :: cs.takeWhile Sql.isTagChar →
        opener (v ++ cs.dropWhile Sql.isTagChar) = none := by
      intro v hv
      have hdollar := htext _ (mem_of_suffix hv)
      cases hdollar
    have hends := ends_word Sql.isTagChar (by decide) (by decide) (by decide) (by decide) htext
      hopener
    rwa [List.cons_append, List.takeWhile_append_dropWhile] at hends
  | other hquote hsemicolon hdash hslash hdollar =>
    exact Passes.ends ⟨hsemicolon, hquote, hdash, hslash, fun h => opener_of_dollarTag (hdollar h)⟩

/-- Whatever PostgreSQL can read, if the splitter knows its lexemes, is cut where PostgreSQL sees a
semicolon. -/
theorem ends_where_recognized (script : Bytes) (lexemes : List Lexeme)
    (hlex : Sql.lex script = some lexemes) (hrecognized : ∀ l ∈ lexemes, Recognized l) :
    ends script = Sql.ends lexemes ∧
      splitSqlStatements script = cut [] (script.zip (Sql.ends lexemes)) := by
  have hends : ends script = Sql.ends lexemes := by
    refine Sql.lexFrom_induction
      (motive := fun lexemes script =>
        (∀ l ∈ lexemes, Recognized l) → ends script = Sql.ends lexemes)
      ?_ ?_ hlex hrecognized
    · intro _
      rw [ends]
      rfl
    intro continues l lexemes cs rest hreads ih hrecognized
    obtain ⟨hl, hrest⟩ := List.forall_mem_cons.mp hrecognized
    rw [ends_reads hreads hl, ih hrest]
    rfl
  refine ⟨hends, ?_⟩
  rw [splitSqlStatements, splitFrom_eq_cut, hends]

theorem ends_where_recognized_quotes :
    ends (bytes "/*;*/';'$a$;$a$;") =
        Sql.ends [.blockComment [semicolon], .string [semicolon], .dollarString [97] [semicolon],
          .semicolon] ∧
      splitSqlStatements (bytes "/*;*/';'$a$;$a$;") =
        cut [] ((bytes "/*;*/';'$a$;$a$;").zip (Sql.ends [.blockComment [semicolon],
          .string [semicolon], .dollarString [97] [semicolon], .semicolon])) := by
  refine ends_where_recognized _ _ (by decide +kernel) ?_
  have hcomment : Recognized (.blockComment [semicolon]) := by
    have hplain : ¬[slash, asterisk] <:+: [semicolon] := by decide
    exact hplain
  have htag : Recognized (.dollarString [97] [semicolon]) := by
    have hascii : ∀ c ∈ ([97] : Bytes), c < 128 := by
      intro c hc
      rw [List.mem_singleton] at hc
      rw [hc]
      decide
    exact hascii
  simp only [List.forall_mem_cons]
  exact ⟨hcomment, trivial, htag, trivial, List.forall_mem_nil _⟩

/-- A backslash escapes the quote, but not for the splitter. -/
theorem escapedQuote_cuts :
    ∃ lexemes, Sql.lex (bytes "SELECT E'\\';';") = some lexemes ∧
      ends (bytes "SELECT E'\\';';") ≠ Sql.ends lexemes := by
  refine ⟨[.identifier (bytes "SELECT"), .space 32,
    .escapeString [69] [backslash, quote, semicolon], .semicolon], ?_⟩
  decide +kernel

/-- What the splitter misreads may still be harmless. -/
example : (Sql.lex (bytes "\"''\";")).map Sql.ends = some (ends (bytes "\"''\";")) := by
  decide +kernel

end AuthForge.StatementEnds
