import AuthForge.Schema.SqlSplitter

/-!
# The splitter as a scanner without lookahead

The loops of the splitter look at the next byte, or at a whole delimiter, before they copy. Here the
same decisions are taken one byte at a time: the state remembers what may still become the start or
the end of a construct. What the scanner does with a text depends on the state and on nothing before
it, and on no byte after it.
-/

namespace AuthForge.Schema.Splitter

open Ascii

inductive Scan
  | code
  /-- One dash, one slash, or a `$` with a tag, in code. -/
  | dash
  | slash
  | tag (read : Bytes)
  | line
  | block
  | blockStar
  | quoted
  /-- A quote inside a string: it closes the string, or is the first of two. -/
  | quoteSeen
  | dollarQuoted (delim : Bytes)
  /-- The first bytes of the delimiter have been read. -/
  | closing (delim read : Bytes)
  deriving DecidableEq

/-- The states in which a semicolon ends the statement. -/
def Scan.isCode : Scan → Bool
  | .code | .dash | .slash | .tag _ | .quoteSeen => true
  | _ => false

def delimiter (tag : Bytes) : Bytes := dollar :: tag ++ [dollar]

def stepCode (c : UInt8) : Scan :=
  if c = dash then .dash
  else if c = slash then .slash
  else if c = quote then .quoted
  else if c = dollar then .tag []
  else .code

def Scan.step : Scan → UInt8 → Scan
  | .code, c => stepCode c
  | .dash, c => if c = Ascii.dash then .line else stepCode c
  | .slash, c => if c = asterisk then .block else stepCode c
  | .tag read, c =>
    if c = dollar then .dollarQuoted (delimiter read)
    else if accepts read c then .tag (read ++ [c])
    else stepCode c
  | .line, c => if c = newline then .code else .line
  | .block, c => if c = asterisk then .blockStar else .block
  | .blockStar, c =>
    if c = Ascii.slash then .code else if c = asterisk then .blockStar else .block
  | .quoted, c => if c = quote then .quoteSeen else .quoted
  | .quoteSeen, c => if c = quote then .quoted else stepCode c
  | .dollarQuoted delim, c => if c = dollar then .closing delim [dollar] else .dollarQuoted delim
  | .closing delim read, c =>
    if read ++ [c] = delim then .code
    else if read ++ [c] <+: delim then .closing delim (read ++ [c])
    else if c = dollar then .closing delim [dollar]
    else .dollarQuoted delim

/-- For every byte, whether it is a semicolon that ends a statement. -/
def marks (q : Scan) : Bytes → List Bool
  | [] => []
  | c :: cs => (c = semicolon && q.isCode) :: marks (q.step c) cs

/-- The statements, cut while the scanner runs. -/
def scan (q : Scan) (current : Bytes) : Bytes → List Bytes
  | [] => trailing current
  | c :: cs =>
    if c = semicolon ∧ q.isCode = true then emit (current ++ [c]) ++ scan .code [] cs
    else scan (q.step c) (current ++ [c]) cs

variable {q q' : Scan} {current cs : Bytes} {c : UInt8}

/-- Two states that agree on the next byte agree. -/
theorem marks_congr (hcode : q.isCode = q'.isCode)
    (hstep : ∀ c, cs.head? = some c → q.step c = q'.step c) : marks q cs = marks q' cs := by
  cases cs with
  | nil => rfl
  | cons c cs => rw [marks, marks, hcode, hstep c rfl]

theorem marks_of_closed (hcode : q.isCode = false) :
    marks q (c :: cs) = false :: marks (q.step c) cs := by
  rw [marks, hcode, Bool.and_false]

theorem marks_of_ne (hc : c ≠ semicolon) : marks q (c :: cs) = false :: marks (q.step c) cs := by
  rw [marks, decide_eq_false hc, Bool.false_and]

theorem step_semicolon (hcode : q.isCode = true) : q.step semicolon = .code := by
  cases q with
  | tag read =>
    have hread : accepts read semicolon = false := by
      rw [accepts]
      split <;> decide
    rw [Scan.step, if_neg (by decide), hread]
    rfl
  | code | dash | slash | quoteSeen => rfl
  | _ => cases hcode

theorem scan_eq_cut (q : Scan) (current cs : Bytes) :
    scan q current cs = cut current (cs.zip (marks q cs)) := by
  induction cs generalizing q current with
  | nil => rfl
  | cons c cs ih =>
    rw [scan, marks, List.zip_cons_cons]
    split
    · rename_i hc
      obtain ⟨rfl, hcode⟩ := hc
      rw [hcode, step_semicolon hcode, ih]
      rfl
    · rename_i hc
      have hmark : (decide (c = semicolon) && q.isCode) = false := by
        rw [Bool.and_eq_false_iff, decide_eq_false_iff_not]
        by_cases hsemicolon : c = semicolon
        · exact .inr (Bool.eq_false_iff.mpr fun hcode => hc ⟨hsemicolon, hcode⟩)
        · exact .inl hsemicolon
      rw [hmark, ih]
      rfl

/-- No semicolon of the text ends a statement. -/
def Scan.Quiet : Scan → Bytes → Prop
  | _, [] => True
  | q, c :: cs => ¬(c = semicolon ∧ q.isCode = true) ∧ (q.step c).Quiet cs

def Scan.run (q : Scan) (text : Bytes) : Scan := text.foldl Scan.step q

theorem Scan.run_append (q : Scan) (text cs : Bytes) : q.run (text ++ cs) = (q.run text).run cs :=
  List.foldl_append

theorem Scan.quiet_append {q : Scan} {text : Bytes} :
    q.Quiet (text ++ cs) ↔ q.Quiet text ∧ (q.run text).Quiet cs := by
  induction text generalizing q with
  | nil => exact ⟨fun h => ⟨trivial, h⟩, And.right⟩
  | cons c text ih => exact (and_congr_right fun _ => ih).trans and_assoc.symm

theorem scan_append {text : Bytes} (hquiet : q.Quiet text) :
    scan q current (text ++ cs) = scan (q.run text) (current ++ text) cs := by
  induction text generalizing q current with
  | nil => rw [List.append_nil]; rfl
  | cons c text ih =>
    rw [List.cons_append, scan, if_neg hquiet.1, ih hquiet.2, List.append_assoc]
    rfl

theorem step_blank (hblank : isBlank c = true) : Scan.code.step c = .code ∧ c ≠ semicolon := by
  have hne : ∀ d : UInt8, isBlank d = false → c ≠ d := by
    rintro d hd rfl
    rw [hblank] at hd
    cases hd
  refine ⟨?_, hne _ (by decide)⟩
  rw [Scan.step, stepCode, if_neg (hne _ (by decide)), if_neg (hne _ (by decide)),
    if_neg (hne _ (by decide)), if_neg (hne _ (by decide))]

theorem run_blanks {lead : Bytes} (hlead : ∀ c ∈ lead, isBlank c = true) :
    Scan.code.run lead = .code ∧ Scan.code.Quiet lead := by
  induction lead with
  | nil => exact ⟨rfl, trivial⟩
  | cons c lead ih =>
    obtain ⟨hc, hlead⟩ := List.forall_mem_cons.mp hlead
    obtain ⟨hstep, hne⟩ := step_blank hc
    obtain ⟨hrun, hquiet⟩ := ih hlead
    refine ⟨?_, fun h => hne h.1, ?_⟩
    · rw [Scan.run, List.foldl_cons, hstep]
      exact hrun
    · rw [hstep]
      exact hquiet

/-- What blanks in front change: nothing. -/
theorem run_lead {lead : Bytes} (hlead : ∀ c ∈ lead, isBlank c = true) (text : Bytes) :
    Scan.code.run (lead ++ text) = Scan.code.run text ∧
      (Scan.code.Quiet (lead ++ text) ↔ Scan.code.Quiet text) := by
  obtain ⟨hrun, hquiet⟩ := run_blanks hlead
  rw [Scan.run_append, Scan.quiet_append, hrun]
  exact ⟨rfl, fun h => h.2, fun h => ⟨hquiet, h⟩⟩

/-! ### The loops of the splitter -/

/-- What is marked after a loop: it has copied its part and is back in code. -/
def resume (r : Bytes × Bytes) : List Bool :=
  List.replicate r.1.length false ++ marks .code r.2

theorem resume_cons {r : Bytes × Bytes} : resume (c :: r.1, r.2) = false :: resume r := rfl

theorem resume_append {text : Bytes} {r : Bytes × Bytes} :
    resume (text ++ r.1, r.2) = List.replicate text.length false ++ resume r := by
  rw [resume, resume, List.length_append, List.replicate_add, List.append_assoc]

theorem marks_line (cs : Bytes) : marks .line cs = resume (lineComment cs) := by
  induction cs with
  | nil => rfl
  | cons c cs ih =>
    rw [lineComment, marks_of_closed rfl]
    split
    · rename_i hc
      rw [hc, resume, marks_of_ne (by decide)]
      rfl
    · rename_i hc
      rw [resume_cons, ← ih, Scan.step, if_neg hc]

theorem marks_block (cs : Bytes) : marks .block cs = resume (blockComment cs) := by
  induction cs with
  | nil => rfl
  | cons c cs ih =>
    rw [marks_of_closed rfl, blockComment]
    by_cases hc : c = asterisk
    swap
    · rw [if_neg fun h => hc h.1, resume_cons, ← ih, Scan.step, if_neg hc]
    subst hc
    by_cases hslash : cs.head? = some slash
    · obtain ⟨cs', rfl⟩ := List.head?_eq_some_iff.mp hslash
      rw [if_pos ⟨rfl, rfl⟩, Scan.step, if_pos rfl, marks_of_closed rfl]
      rfl
    · rw [if_neg fun h => hslash h.2, resume_cons, ← ih, Scan.step, if_pos rfl]
      congr 1
      refine marks_congr rfl ?_
      intro c hc
      have hne : c ≠ slash := by
        rintro rfl
        exact hslash hc
      simp only [Scan.step, if_neg hne]

theorem marks_quoted (cs : Bytes) : marks .quoted cs = resume (quoted cs) := by
  fun_induction quoted cs with
  | case1 => rfl
  | case2 c cs hc ih => rw [marks_of_closed rfl, resume_cons, ← ih, Scan.step, if_neg hc]
  | case3 c hc =>
    rw [marks_of_closed rfl]
    rfl
  | case4 c hc cs ih =>
    obtain rfl := not_not.mp hc
    rw [marks_of_closed rfl, Scan.step, if_pos rfl, marks_of_ne (by decide), Scan.step, if_pos rfl,
      ih]
    rfl
  | case5 c hc c' cs hc' =>
    obtain rfl := not_not.mp hc
    rw [marks_of_closed rfl, Scan.step, if_pos rfl]
    congr 1
    refine marks_congr rfl ?_
    intro d hd
    obtain rfl := Option.some.inj hd
    simp only [Scan.step, if_neg hc']

/-! ### Dollar quotes -/

theorem stepCode_of_isTagChar (h : isTagChar c = true) : stepCode c = .code := by
  rw [stepCode, if_neg (ne_of_isTagChar h (by decide)), if_neg (ne_of_isTagChar h (by decide)),
    if_neg (ne_of_isTagChar h (by decide)), if_neg (ne_of_isTagChar h (by decide))]

/-- What the loop over the tag accepts next. -/
theorem isTagChar_of_accepts {read : Bytes} (h : accepts read c = true) : isTagChar c = true := by
  unfold accepts at h
  split at h
  · exact isTagChar_of_isTagStart h
  · exact h

theorem marks_tag_of_no_opener {read : Bytes} (h : (readTag read cs).2.head? ≠ some dollar) :
    marks (.tag read) cs = marks .code cs := by
  induction cs generalizing read with
  | nil => rfl
  | cons c cs ih =>
    rw [readTag] at h
    by_cases hdollar : c = dollar
    · rw [if_pos (.inl hdollar), hdollar] at h
      exact absurd rfl h
    by_cases hread : accepts read c = true
    · have hchar := isTagChar_of_accepts hread
      have hnewline : c ≠ newline := ne_of_isTagChar hchar (by decide)
      have hsemicolon : c ≠ semicolon := ne_of_isTagChar hchar (by decide)
      rw [if_neg (not_or.mpr ⟨hdollar, hnewline⟩), if_pos hread] at h
      have hstep : (Scan.tag read).step c = .tag (read ++ [c]) := by
        rw [Scan.step, if_neg hdollar, if_pos hread]
      have hcode : Scan.code.step c = .code := stepCode_of_isTagChar hchar
      rw [marks_of_ne hsemicolon, marks_of_ne hsemicolon, hstep, hcode, ih h]
    · refine marks_congr rfl ?_
      intro d hd
      obtain rfl := Option.some.inj hd
      have hstep : (Scan.tag read).step c = stepCode c := by
        rw [Scan.step, if_neg hdollar, if_neg hread]
      exact hstep

theorem marks_tag_of_opener {read tag rest : Bytes} (h : readTag read cs = (tag, dollar :: rest)) :
    ∃ more, tag = read ++ more ∧ cs = more ++ dollar :: rest ∧
      (dollar ∉ read → dollar ∉ tag) ∧
      marks (.tag read) cs =
        List.replicate (more.length + 1) false ++ marks (.dollarQuoted (delimiter tag)) rest := by
  induction cs generalizing read with
  | nil => cases h
  | cons c cs ih =>
    rw [readTag] at h
    split at h
    · obtain ⟨rfl, hcs⟩ := Prod.mk.inj h
      obtain ⟨rfl, rfl⟩ := List.cons.inj hcs
      refine ⟨[], by simp, rfl, id, ?_⟩
      rw [marks_of_ne (by decide), Scan.step, if_pos rfl]
      rfl
    rename_i hc
    split at h
    · rename_i hread
      have hchar := isTagChar_of_accepts hread
      obtain ⟨more, rfl, rfl, hdollar, hmarks⟩ := ih h
      refine ⟨c :: more, by simp, rfl, ?_, ?_⟩
      · intro hold
        refine hdollar ?_
        simp only [List.mem_append, List.mem_singleton, not_or]
        exact ⟨hold, (ne_of_isTagChar hchar (by decide)).symm⟩
      · rw [marks_of_ne (ne_of_isTagChar hchar (by decide)), Scan.step,
          if_neg fun h => hc (.inl h), if_pos hread, hmarks]
        rfl
    · obtain ⟨rfl, hcs⟩ := Prod.mk.inj h
      obtain ⟨rfl, rfl⟩ := List.cons.inj hcs
      exact absurd (.inl rfl) hc

theorem dollarQuoted_of_not_mem {delim text : Bytes} (h : dollar ∉ text) :
    dollarQuoted delim (text ++ cs) =
      (text ++ (dollarQuoted delim cs).1, (dollarQuoted delim cs).2) := by
  induction text with
  | nil => rfl
  | cons c text ih =>
    obtain ⟨hc, htext⟩ := not_or.mp (mt List.mem_cons.mpr h)
    rw [List.cons_append, dollarQuoted, if_neg fun h => hc h.1.symm, ih htext]
    rfl

/-- A part of the delimiter that does not complete it is content. -/
theorem dollarQuoted_of_part {delim more : Bytes} (hmore : dollar ∉ more)
    (h : ¬delim <+: dollar :: more ++ cs) :
    dollarQuoted delim (dollar :: more ++ cs) =
      (dollar :: more ++ (dollarQuoted delim cs).1, (dollarQuoted delim cs).2) := by
  rw [List.cons_append, dollarQuoted, if_neg fun hd => h hd.2, dollarQuoted_of_not_mem hmore]
  rfl

theorem delimiter_part {tag read : Bytes} (htag : dollar ∉ tag) (hpart : read <+: delimiter tag)
    (hnil : read ≠ []) (hne : read ≠ delimiter tag) :
    ∃ more, read = dollar :: more ∧ dollar ∉ more := by
  obtain ⟨c, more, rfl⟩ := List.exists_cons_of_ne_nil hnil
  obtain ⟨rfl, hmore⟩ := List.cons_prefix_cons.mp hpart
  refine ⟨more, rfl, ?_⟩
  rcases List.prefix_concat_iff.mp hmore with rfl | hmore
  · exact absurd rfl hne
  · exact fun hmem => htag (hmore.subset hmem)

theorem dollarQuoted_delimiter (tag cs : Bytes) :
    dollarQuoted (delimiter tag) (delimiter tag ++ cs) = (delimiter tag, cs) := by
  have hcons : delimiter tag ++ cs = dollar :: (tag ++ [dollar] ++ cs) := rfl
  rw [hcons, dollarQuoted, if_pos ⟨rfl, ⟨cs, rfl⟩⟩, ← hcons, List.drop_left]

theorem marks_dollarQuoted_aux {tag : Bytes} (htag : dollar ∉ tag) (cs : Bytes) :
    marks (.dollarQuoted (delimiter tag)) cs = resume (dollarQuoted (delimiter tag) cs) ∧
    ∀ read, read <+: delimiter tag → read ≠ [] → read ≠ delimiter tag →
      List.replicate read.length false ++ marks (.closing (delimiter tag) read) cs =
        resume (dollarQuoted (delimiter tag) (read ++ cs)) := by
  have hfirst : [dollar] <+: delimiter tag := List.cons_prefix_cons.mpr ⟨rfl, List.nil_prefix⟩
  have hlong : [dollar] ≠ delimiter tag := by simp [delimiter]
  induction cs with
  | nil =>
    refine ⟨rfl, ?_⟩
    intro read hpart hnil hne
    obtain ⟨more, rfl, hmore⟩ := delimiter_part htag hpart hnil hne
    rw [dollarQuoted_of_part hmore, resume_append]
    · rfl
    · rw [List.append_nil]
      intro hpart'
      exact hne (hpart.eq_of_length_le hpart'.length_le)
  | cons c cs ih =>
    obtain ⟨hquoted, hclosing⟩ := ih
    have houter : marks (.dollarQuoted (delimiter tag)) (c :: cs) =
        resume (dollarQuoted (delimiter tag) (c :: cs)) := by
      rw [marks_of_closed rfl, Scan.step]
      by_cases hc : c = dollar
      · subst hc
        rw [if_pos rfl]
        exact hclosing [dollar] hfirst (by simp) hlong
      · rw [if_neg hc, dollarQuoted, if_neg fun h => hc h.1, resume_cons, hquoted]
    refine ⟨houter, ?_⟩
    intro read hpart hnil hne
    obtain ⟨more, rfl, hmore⟩ := delimiter_part htag hpart hnil hne
    rw [marks_of_closed rfl, Scan.step]
    -- The byte read now joins what was read of the delimiter.
    have hjoin : ∀ marks : List Bool,
        List.replicate (dollar :: more).length false ++ false :: marks =
          List.replicate (dollar :: more ++ [c]).length false ++ marks := by
      intro marks
      rw [List.length_append, List.length_singleton, List.replicate_succ', List.append_assoc]
      rfl
    by_cases hfull : dollar :: more ++ [c] = delimiter tag
    · have hsplit : dollar :: more ++ c :: cs = delimiter tag ++ cs := by rw [← hfull]; simp
      rw [if_pos hfull, hsplit, dollarQuoted_delimiter, resume, hjoin, hfull]
    rw [if_neg hfull]
    by_cases hnext : dollar :: more ++ [c] <+: delimiter tag
    · rw [if_pos hnext, hjoin, hclosing _ hnext (by simp) hfull]
      simp
    rw [if_neg hnext, dollarQuoted_of_part hmore, resume_append]
    swap
    · intro hdelim
      have hread : dollar :: more ++ [c] <+: dollar :: more ++ c :: cs := ⟨cs, by simp⟩
      refine hnext (List.prefix_of_prefix_length_le hread hdelim ?_)
      have hlt := lt_of_le_of_ne hpart.length_le fun heq => hne (hpart.eq_of_length heq)
      have hlength : (dollar :: more ++ [c]).length = (dollar :: more).length + 1 := by simp
      omega
    congr 1
    by_cases hc : c = dollar
    · subst hc
      rw [if_pos rfl]
      exact hclosing [dollar] hfirst (by simp) hlong
    · rw [if_neg hc, hquoted, dollarQuoted, if_neg fun h => hc h.1, resume_cons]

theorem marks_dollarQuoted {tag : Bytes} (htag : dollar ∉ tag) (cs : Bytes) :
    marks (.dollarQuoted (delimiter tag)) cs = resume (dollarQuoted (delimiter tag) cs) :=
  (marks_dollarQuoted_aux htag cs).1

/-! ### The main loop -/

theorem marks_chunk (hc : c ≠ semicolon) (cs : Bytes) :
    marks .code (c :: cs) = resume (chunk c cs) := by
  rw [marks_of_ne hc, chunk]
  by_cases hdash : c = dash
  · subst hdash
    by_cases hnext : cs.head? = some dash
    · obtain ⟨cs, rfl⟩ := List.head?_eq_some_iff.mp hnext
      have hstep : (Scan.code.step dash).step dash = .line := rfl
      rw [if_pos ⟨rfl, rfl⟩, marks_of_ne (by decide), hstep, marks_line]
      rfl
    · rw [if_neg fun h => hnext h.2, if_neg fun h => absurd h.1 (by decide), if_neg (by decide)]
      refine congrArg (false :: ·) (marks_congr rfl ?_)
      intro d hd
      have hne : d ≠ dash := by
        rintro rfl
        exact hnext hd
      have hstep : (Scan.code.step dash).step d = stepCode d := if_neg hne
      exact hstep
  rw [if_neg fun h => hdash h.1]
  by_cases hslash : c = slash
  · subst hslash
    by_cases hnext : cs.head? = some asterisk
    · obtain ⟨cs, rfl⟩ := List.head?_eq_some_iff.mp hnext
      have hstep : (Scan.code.step slash).step asterisk = .block := rfl
      rw [if_pos ⟨rfl, rfl⟩, marks_of_ne (by decide), hstep, marks_block]
      rfl
    · rw [if_neg fun h => hnext h.2, if_neg (by decide)]
      refine congrArg (false :: ·) (marks_congr rfl ?_)
      intro d hd
      have hne : d ≠ asterisk := by
        rintro rfl
        exact hnext hd
      have hstep : (Scan.code.step slash).step d = stepCode d := if_neg hne
      exact hstep
  rw [if_neg fun h => hslash h.1]
  by_cases hquote : c = quote
  · subst hquote
    have hstep : Scan.code.step quote = .quoted := rfl
    rw [if_pos rfl, hstep, marks_quoted, ← resume_cons]
  rw [if_neg hquote]
  by_cases hdollar : c = dollar
  swap
  · have hstep : Scan.code.step c = .code := by
      rw [Scan.step, stepCode, if_neg hdash, if_neg hslash, if_neg hquote, if_neg hdollar]
    rw [if_neg hdollar, hstep]
    rfl
  subst hdollar
  have hstep : Scan.code.step dollar = .tag [] := rfl
  rw [if_pos rfl, hstep, opener]
  by_cases hopener : (readTag [] cs).2.head? = some dollar
  · obtain ⟨rest, hrest⟩ := List.head?_eq_some_iff.mp hopener
    have hread : readTag [] cs = ((readTag [] cs).1, dollar :: rest) := by rw [← hrest]
    obtain ⟨more, hmore, hcs, htag, hmarks⟩ := marks_tag_of_opener hread
    rw [List.nil_append] at hmore
    have hsplit : dollar :: cs = delimiter more ++ rest := by
      rw [hcs, delimiter]
      simp
    have hdelim : dollar :: (readTag [] cs).1 ++ [dollar] = delimiter more := by
      rw [hmore, delimiter]
    rw [hmarks, if_pos hopener, hdelim]
    dsimp only
    rw [hsplit, List.drop_left, hmore, marks_dollarQuoted (hmore ▸ htag List.not_mem_nil),
      resume_append, delimiter]
    simp [List.replicate_succ]
  · rw [if_neg hopener, marks_tag_of_no_opener hopener]
    rfl

/-- The splitter marks what the scanner marks. -/
theorem ends_eq_marks (sql : Bytes) : ends sql = marks .code sql := by
  fun_induction ends sql with
  | case1 => rfl
  | case2 cs ih =>
    rw [marks, ih]
    rfl
  | case3 c cs hc ih => rw [marks_chunk hc, ih, resume]
/-- The splitter is the scanner. -/
theorem splitFrom_eq_scan (current sql : Bytes) :
    splitFrom current sql = scan .code current sql := by
  rw [splitFrom_eq_cut, scan_eq_cut, ends_eq_marks]

end AuthForge.Schema.Splitter
