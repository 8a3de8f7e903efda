import AuthForge.Schema.SqlScanner

/-!
# Nothing lost in splitting

The statements of a script, in order, with the blanks and the lone semicolons between them, are the
script. Every statement is trimmed, and splitting it again gives it back. Both are inductions over
the scanner: what it has read of the current statement ends no statement, and brings it from the
start into the state it is in.
-/

namespace AuthForge.LosslessSplit

open Ascii Schema.Splitter

variable {q : Scan} {current cs statement : Bytes}

/-- The text is these statements in order, with nothing but blanks and lone semicolons around
them. -/
inductive Interleaves : List Bytes → Bytes → Prop
  | blank {gap : Bytes} (hgap : ∀ c ∈ gap, isBlank c = true) : Interleaves [] gap
  | last {lead statement trail : Bytes} (hlead : ∀ c ∈ lead, isBlank c = true)
      (htrail : ∀ c ∈ trail, isBlank c = true) :
      Interleaves [statement] (lead ++ statement ++ trail)
  | lone {lead rest : Bytes} {statements : List Bytes} (hlead : ∀ c ∈ lead, isBlank c = true)
      (hrest : Interleaves statements rest) : Interleaves statements (lead ++ [semicolon] ++ rest)
  | ended {lead text rest : Bytes} {statements : List Bytes}
      (hlead : ∀ c ∈ lead, isBlank c = true) (hrest : Interleaves statements rest) :
      Interleaves ((text ++ [semicolon]) :: statements) (lead ++ (text ++ [semicolon]) ++ rest)

theorem interleaves_trailing (current : Bytes) : Interleaves (trailing current) current := by
  obtain ⟨lead, trail, hlead, htrail, hcurrent⟩ := trim_spec current
  rw [trailing]
  split
  · rename_i hnil
    refine .blank ?_
    rw [hnil, List.append_nil] at hcurrent
    rw [hcurrent]
    exact List.forall_mem_append.mpr ⟨hlead, htrail⟩
  · generalize trim current = statement at hcurrent
    rw [hcurrent]
    exact .last hlead htrail

theorem interleaves_emit {statements : List Bytes} {rest : Bytes} (current : Bytes)
    (hrest : Interleaves statements rest) :
    Interleaves (emit (current ++ [semicolon]) ++ statements) (current ++ [semicolon] ++ rest) := by
  obtain ⟨lead, text, hlead, rfl, htrim⟩ :=
    trim_concat (by decide : isBlank semicolon = false) current
  rw [emit, htrim]
  split
  · rename_i hlone
    have htext : text = [] := by
      rcases hlone with hlone | hlone
      · exact absurd hlone (by simp)
      · exact List.append_left_eq_self.mp hlone
    rw [htext, List.append_nil]
    exact .lone hlead hrest
  · rw [List.append_assoc lead]
    exact .ended hlead hrest

theorem interleaves_scan (q : Scan) (current cs : Bytes) :
    Interleaves (scan q current cs) (current ++ cs) := by
  induction cs generalizing q current with
  | nil =>
    rw [List.append_nil]
    exact interleaves_trailing current
  | cons c cs ih =>
    rw [List.append_cons, scan]
    split
    · rename_i hc
      rw [hc.1]
      exact interleaves_emit current (ih .code [])
    · exact ih _ _

/-! ### Statements are stable -/

/-- What is trimmed and splits into itself. -/
structure Stable (statement : Bytes) : Prop where
  ne_nil : statement ≠ []
  trimmed : Trimmed statement
  scan : scan .code [] statement = [statement]

theorem stable_of_mem_trailing (hquiet : Scan.code.Quiet current)
    (hmem : statement ∈ trailing current) : Stable statement := by
  rw [trailing] at hmem
  split at hmem
  · cases hmem
  rename_i hne
  obtain rfl := List.mem_singleton.mp hmem
  obtain ⟨lead, trail, hlead, -, hcurrent⟩ := trim_spec current
  have hstatement : Scan.code.Quiet (trim current) := by
    rw [hcurrent, List.append_assoc, (run_lead hlead _).2] at hquiet
    exact (Scan.quiet_append.mp hquiet).1
  refine ⟨hne, trimmed_trim current, ?_⟩
  have hscan : scan .code [] (trim current ++ []) = scan _ ([] ++ trim current) [] :=
    scan_append hstatement
  rw [List.append_nil] at hscan
  rw [hscan, scan, trailing, List.nil_append, trim_of_trimmed (trimmed_trim current), if_neg hne]

theorem stable_of_mem_emit (hquiet : Scan.code.Quiet current)
    (hcode : (Scan.code.run current).isCode = true)
    (hmem : statement ∈ emit (current ++ [semicolon])) : Stable statement := by
  obtain ⟨lead, text, hlead, rfl, htrim⟩ :=
    trim_concat (by decide : isBlank semicolon = false) current
  have htrimmed : Trimmed (text ++ [semicolon]) := htrim ▸ trimmed_trim _
  obtain ⟨hrun, htext⟩ := run_lead hlead text
  rw [hrun] at hcode
  rw [emit, htrim] at hmem
  split at hmem
  · cases hmem
  rename_i hne
  obtain rfl := List.mem_singleton.mp hmem
  refine ⟨fun h => hne (.inl h), htrimmed, ?_⟩
  rw [scan_append (htext.mp hquiet), scan, if_pos ⟨rfl, hcode⟩, List.nil_append, emit,
    trim_of_trimmed htrimmed, if_neg hne]
  rfl

theorem stable_of_mem_scan (hquiet : Scan.code.Quiet current)
    (hmem : statement ∈ scan (Scan.code.run current) current cs) : Stable statement := by
  induction cs generalizing current with
  | nil => exact stable_of_mem_trailing hquiet hmem
  | cons c cs ih =>
    rw [scan] at hmem
    split at hmem
    · rename_i hc
      rw [hc.1] at hmem
      rcases List.mem_append.mp hmem with hmem | hmem
      · exact stable_of_mem_emit hquiet hc.2 hmem
      · have hnil : Scan.code.Quiet [] := trivial
        exact ih hnil hmem
    · rename_i hc
      have hrun : (Scan.code.run current).step c = Scan.code.run (current ++ [c]) :=
        (Scan.run_append .code current [c]).symm
      have hnext : (Scan.code.run current).Quiet [c] := ⟨hc, trivial⟩
      rw [hrun] at hmem
      exact ih (Scan.quiet_append.mpr ⟨hquiet, hnext⟩) hmem

theorem splits_without_loss (s : Bytes) :
    Interleaves (splitSqlStatements s) s ∧
      ∀ statement ∈ splitSqlStatements s,
        statement ≠ [] ∧ (∀ c, statement.head? = some c → isBlank c = false) ∧
        (∀ c, statement.getLast? = some c → isBlank c = false) ∧
        splitSqlStatements statement = [statement] := by
  simp only [splitSqlStatements, splitFrom_eq_scan]
  refine ⟨interleaves_scan .code [] s, ?_⟩
  intro statement hmem
  have hnil : Scan.code.Quiet [] := trivial
  have hstable : Stable statement := stable_of_mem_scan hnil hmem
  exact ⟨hstable.ne_nil, hstable.trimmed.1, hstable.trimmed.2, hstable.scan⟩

end AuthForge.LosslessSplit
