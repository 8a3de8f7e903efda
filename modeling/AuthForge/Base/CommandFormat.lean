import Mathlib.Data.List.TakeWhile

/-!
# Redis commands from a format

A command is a list of arguments. The client library builds it from a format in one pass over a C
string: a blank ends an argument, a percent sign that is not the last character starts a conversion,
and everything else is copied. A conversion other than `%%` takes one of the further parameters of
the call; where there is none, no command is defined.
-/

namespace AuthForge.CommandFormat

abbrev Bytes := List UInt8

def blank : UInt8 := 32

def percent : UInt8 := 37

/-- What follows the percent sign, and the parameter: the bytes printed and how many bytes of the
format the conversion takes. A malformed conversion is `none`. -/
abbrev Conversion (A : Type) := Bytes → A → Option (Bytes × Nat)

section Format

variable {A : Type} (conversion : Conversion A)

/-- The pass over the format: `touched` when the current argument has been written to. It goes round
at most once for each byte. -/
def formatLoop : Nat → Bool → Bytes → List A → Bytes → Option (List Bytes)
  | 0, touched, curarg, _, _ => some (if touched then [curarg] else [])
  | _ + 1, touched, curarg, _, [] => some (if touched then [curarg] else [])
  | n + 1, touched, curarg, ap, c :: rest =>
    if c ≠ percent ∨ rest = [] then
      if c = blank then
        if touched then (formatLoop n false [] ap rest).map (curarg :: ·)
        else formatLoop n false curarg ap rest
      else formatLoop n true (curarg ++ [c]) ap rest
    else if rest.head? = some percent then
      formatLoop n true (curarg ++ [percent]) ap (rest.drop 1)
    else
      match ap with
      | [] => none
      | arg :: ap =>
        match conversion rest arg with
        | none => none
        | some (printed, taken) => formatLoop n true (curarg ++ printed) ap (rest.drop taken)

def cString (text : Bytes) : Bytes := text.takeWhile (· ≠ 0)

/-- The arguments of the command for a format and its further parameters. -/
def formatCommand (format : Bytes) (ap : List A) : Option (List Bytes) :=
  formatLoop conversion (cString format).length false [] ap (cString format)

variable {conversion} {n : Nat} {touched : Bool} {curarg word rest format : Bytes} {ap : List A}
  {argv : List Bytes}

/-! ### Words are copied -/

/-- Bytes that a format copies. -/
def Plain (word : Bytes) : Prop := blank ∉ word ∧ percent ∉ word

instance (word : Bytes) : Decidable (Plain word) := inferInstanceAs (Decidable (_ ∧ _))

theorem formatLoop_nil : formatLoop conversion n touched curarg ap [] =
    some (if touched then [curarg] else []) := by
  cases n <;> rfl

theorem formatLoop_cons {c : UInt8} : formatLoop conversion (n + 1) touched curarg ap (c :: rest) =
    if c ≠ percent ∨ rest = [] then
      if c = blank then
        if touched then (formatLoop conversion n false [] ap rest).map (curarg :: ·)
        else formatLoop conversion n false curarg ap rest
      else formatLoop conversion n true (curarg ++ [c]) ap rest
    else if rest.head? = some percent then
      formatLoop conversion n true (curarg ++ [percent]) ap (rest.drop 1)
    else
      match ap with
      | [] => none
      | arg :: ap =>
        match conversion rest arg with
        | none => none
        | some (printed, taken) =>
          formatLoop conversion n true (curarg ++ printed) ap (rest.drop taken) := rfl

theorem formatLoop_word (hplain : Plain word) (hne : word ≠ []) :
    formatLoop conversion (word.length + n) touched curarg ap (word ++ rest) =
      formatLoop conversion n true (curarg ++ word) ap rest := by
  induction word generalizing touched curarg with
  | nil => exact absurd rfl hne
  | cons c word ih =>
    have hblank : c ≠ blank := fun h => hplain.1 (h ▸ List.mem_cons_self ..)
    have hpercent : c ≠ percent := fun h => hplain.2 (h ▸ List.mem_cons_self ..)
    have hword : Plain word := ⟨fun h => hplain.1 (List.mem_cons_of_mem _ h),
      fun h => hplain.2 (List.mem_cons_of_mem _ h)⟩
    rw [List.length_cons, Nat.add_right_comm, List.cons_append, formatLoop_cons,
      if_pos (.inl hpercent), if_neg hblank]
    by_cases hnil : word = []
    · subst hnil
      rw [List.length_nil, Nat.zero_add, List.nil_append]
    · rw [ih hword hnil, List.append_assoc, List.singleton_append]

theorem formatLoop_blank :
    formatLoop conversion (n + 1) true curarg ap (blank :: rest) =
      (formatLoop conversion n false [] ap rest).map (curarg :: ·) := by
  rw [formatLoop_cons, if_pos (.inl (by decide)), if_pos rfl, if_pos rfl]

/-- Words between single blanks are the arguments. -/
theorem formatLoop_words {words : List Bytes} (hwords : ∀ w ∈ words, Plain w ∧ w ≠ []) :
    formatLoop conversion ([blank].intercalate words).length false [] ap
      ([blank].intercalate words) = some words := by
  induction words with
  | nil => rfl
  | cons w words ih =>
    obtain ⟨hplain, hne⟩ := hwords w (List.mem_cons_self ..)
    cases words with
    | nil =>
      have hloop : formatLoop conversion (w.length + 0) false [] ap (w ++ []) = some [w] := by
        rw [formatLoop_word hplain hne, formatLoop_nil]
        rfl
      rw [List.append_nil, Nat.add_zero] at hloop
      rw [List.intercalate_singleton, hloop]
    | cons w' words =>
      rw [List.intercalate_cons_cons, List.append_assoc, List.length_append,
        formatLoop_word hplain hne, List.singleton_append, List.length_cons, formatLoop_blank,
        ih fun v hv => hwords v (List.mem_cons_of_mem _ hv)]
      rfl

/-- The last word is copied even if it ends in a percent sign. -/
theorem formatLoop_lastWord (hblank : blank ∉ word) (hpercent : percent ∉ word.dropLast)
    (hne : word ≠ []) :
    formatLoop conversion word.length touched curarg ap word = some [curarg ++ word] := by
  induction word generalizing touched curarg with
  | nil => exact absurd rfl hne
  | cons c word ih =>
    have hc : c ≠ blank := fun h => hblank (h ▸ List.mem_cons_self ..)
    rw [List.length_cons, formatLoop_cons]
    by_cases hnil : word = []
    · subst hnil
      rw [if_pos (.inr rfl), if_neg hc, formatLoop_nil]
      rfl
    · rw [List.dropLast_cons_of_ne_nil hnil] at hpercent
      have hcopied : c ≠ percent := fun h => hpercent (h ▸ List.mem_cons_self ..)
      rw [if_pos (.inl hcopied), if_neg hc,
        ih (fun h => hblank (List.mem_cons_of_mem _ h))
          (fun h => hpercent (List.mem_cons_of_mem _ h)) hnil,
        List.append_assoc, List.singleton_append]

/-- A percent sign between a word and a blank asks for a parameter. -/
theorem formatLoop_percentBlank :
    formatLoop conversion (n + 1) touched curarg [] (percent :: blank :: rest) = none := by
  rw [formatLoop_cons, if_neg (by simp), if_neg (by simp only [List.head?_cons]; decide)]

/-! ### What can become an argument when there are no parameters -/

/-- One round without parameters. -/
inductive Round (conversion : Conversion A) (m : Nat) (touched : Bool) (curarg : Bytes) :
    UInt8 → Bytes → List Bytes → Prop
  | ended {rest : Bytes} {argv : List Bytes} (htouched : touched = true)
      (h : formatLoop conversion m false [] [] rest = some argv) :
      Round conversion m touched curarg blank rest (curarg :: argv)
  | skipped {rest : Bytes} {argv : List Bytes} (htouched : touched = false)
      (h : formatLoop conversion m false curarg [] rest = some argv) :
      Round conversion m touched curarg blank rest argv
  | copied {c : UInt8} {rest : Bytes} {argv : List Bytes} (hblank : c ≠ blank)
      (hcopied : c ≠ percent ∨ rest = [])
      (h : formatLoop conversion m true (curarg ++ [c]) [] rest = some argv) :
      Round conversion m touched curarg c rest argv
  | percent {rest : Bytes} {argv : List Bytes}
      (h : formatLoop conversion m true (curarg ++ [percent]) [] rest = some argv) :
      Round conversion m touched curarg percent (CommandFormat.percent :: rest) argv

theorem round_of_formatLoop {m : Nat} {c : UInt8}
    (h : formatLoop conversion (m + 1) touched curarg [] (c :: rest) = some argv) :
    Round conversion m touched curarg c rest argv := by
  rw [formatLoop_cons] at h
  split at h
  · rename_i hcopied
    by_cases hblank : c = blank
    · subst hblank
      rw [if_pos rfl] at h
      cases touched with
      | false => exact .skipped rfl h
      | true =>
        obtain ⟨argv', hloop, rfl⟩ := Option.map_eq_some_iff.mp h
        exact .ended rfl hloop
    · rw [if_neg hblank] at h
      exact .copied hblank hcopied h
  · rename_i hconverts
    obtain ⟨hc, hrest⟩ := not_or.mp hconverts
    obtain rfl := not_not.mp hc
    obtain ⟨d, rest, rfl⟩ := List.exists_cons_of_ne_nil hrest
    by_cases hd : d = percent
    · subst hd
      exact .percent h
    · rw [if_neg (by simpa using hd)] at h
      cases h

/-- Every byte of an argument was in the format, and no blank gets into one. -/
theorem mem_of_formatLoop (h : formatLoop conversion n touched curarg [] format = some argv)
    {arg : Bytes} (harg : arg ∈ argv) {b : UInt8} (hb : b ∈ arg) :
    b ∈ curarg ∨ b ∈ format ∧ b ≠ blank := by
  induction n generalizing touched curarg format argv with
  | zero =>
    cases h
    split at harg
    · obtain rfl := List.mem_singleton.mp harg
      exact .inl hb
    · cases harg
  | succ m ih =>
    cases format with
    | nil =>
      cases h
      split at harg
      · obtain rfl := List.mem_singleton.mp harg
        exact .inl hb
      · cases harg
    | cons c rest =>
      have hlater : ∀ {b : UInt8}, b ∈ rest ∧ b ≠ blank → b ∈ c :: rest ∧ b ≠ blank :=
        fun h => ⟨List.mem_cons_of_mem c h.1, h.2⟩
      cases round_of_formatLoop h with
      | ended _ hloop =>
        rcases List.mem_cons.mp harg with rfl | harg
        · exact .inl hb
        · exact (ih hloop harg).elim (fun h => absurd h List.not_mem_nil) fun h => .inr (hlater h)
      | skipped _ hloop => exact (ih hloop harg).imp_right hlater
      | copied hblank _ hloop =>
        rcases ih hloop harg with h | h
        · rcases List.mem_append.mp h with h | h
          · exact .inl h
          · obtain rfl := List.mem_singleton.mp h
            exact .inr ⟨List.mem_cons_self .., hblank⟩
        · exact .inr (hlater h)
      | percent hloop =>
        rcases ih hloop harg with h | h
        · rcases List.mem_append.mp h with h | h
          · exact .inl h
          · obtain rfl := List.mem_singleton.mp h
            exact .inr ⟨List.mem_cons_self .., by decide⟩
        · exact .inr (hlater ⟨List.mem_cons_of_mem _ h.1, h.2⟩)

theorem getLast?_ne_of_cons {α : Type} {a b : α} {l : List α} (h : (a :: l).getLast? ≠ some b) :
    l.getLast? ≠ some b := by
  cases l with
  | nil => exact fun h => by cases h
  | cons c l => rwa [List.getLast?_cons_cons] at h

/-- Without parameters every percent sign of an argument stands for two of the format; only the last
byte of the format can be one that stands for itself. -/
theorem count_of_formatLoop (h : formatLoop conversion n touched curarg [] format = some argv)
    (hn : format.length ≤ n) (huntouched : touched = false → curarg = []) :
    ∃ copies, 2 * argv.flatten.count percent =
        2 * curarg.count percent + format.count percent + copies ∧
      copies ≤ 1 ∧ (format.getLast? ≠ some percent → copies = 0) := by
  have hended : ∀ {touched : Bool} {curarg : Bytes}, (touched = false → curarg = []) →
      2 * (if touched then [curarg] else []).flatten.count percent =
        2 * curarg.count percent + 0 + 0 := by
    intro touched curarg huntouched
    cases touched with
    | false => simp [huntouched rfl]
    | true => simp
  induction n generalizing touched curarg format argv with
  | zero =>
    obtain rfl := List.length_eq_zero_iff.mp (Nat.le_zero.mp hn)
    cases h
    exact ⟨0, hended huntouched, Nat.zero_le _, fun _ => rfl⟩
  | succ m ih =>
    cases format with
    | nil =>
      cases h
      exact ⟨0, hended huntouched, Nat.zero_le _, fun _ => rfl⟩
    | cons c rest =>
      have hlen : rest.length ≤ m := Nat.le_of_succ_le_succ hn
      cases round_of_formatLoop h with
      | ended _ hloop =>
        obtain ⟨copies, hcount, hle, hlast⟩ := ih hloop hlen fun _ => rfl
        refine ⟨copies, ?_, hle, fun h => hlast (getLast?_ne_of_cons h)⟩
        rw [List.flatten_cons, List.count_append, List.count_cons_of_ne (by decide)]
        simp only [List.count_nil] at hcount
        omega
      | skipped htouched hloop =>
        obtain ⟨copies, hcount, hle, hlast⟩ := ih hloop hlen fun _ => huntouched htouched
        refine ⟨copies, ?_, hle, fun h => hlast (getLast?_ne_of_cons h)⟩
        rw [hcount, List.count_cons_of_ne (by decide)]
      | copied _ hcopied hloop =>
        by_cases hc : c = percent
        · subst hc
          -- the pass is over, and the sign is the last byte
          obtain rfl := hcopied.resolve_left (not_not_intro rfl)
          rw [formatLoop_nil] at hloop
          cases hloop
          refine ⟨1, ?_, Nat.le_refl _, fun hlast => absurd rfl hlast⟩
          simp
          omega
        · obtain ⟨copies, hcount, hle, hlast⟩ := ih hloop hlen fun h => nomatch h
          refine ⟨copies, ?_, hle, fun h => hlast (getLast?_ne_of_cons h)⟩
          rw [List.count_append, List.count_cons_of_ne hc, List.count_nil] at hcount
          rw [hcount, List.count_cons_of_ne hc]
          omega
      | percent hloop =>
        rw [List.length_cons] at hlen
        obtain ⟨copies, hcount, hle, hlast⟩ := ih hloop (by omega) fun h => nomatch h
        refine ⟨copies, ?_, hle, fun h => hlast (getLast?_ne_of_cons (getLast?_ne_of_cons h))⟩
        rw [List.count_append, List.count_cons_self, List.count_nil] at hcount
        rw [hcount, List.count_cons_self, List.count_cons_self]
        omega

/-! ### Whole formats -/

theorem zero_notMem_cString (text : Bytes) : 0 ∉ cString text := fun h => by
  simpa using List.mem_takeWhile_imp h

theorem cString_of_notMem (h : 0 ∉ format) : cString format = format :=
  List.takeWhile_eq_self_iff.mpr fun b hb => by
    have hne : b ≠ 0 := fun heq => h (heq ▸ hb)
    simpa using hne

theorem formatCommand_words {words : List Bytes} (hwords : ∀ w ∈ words, Plain w ∧ w ≠ [])
    (hzero : 0 ∉ [blank].intercalate words) :
    formatCommand conversion ([blank].intercalate words) ap = some words := by
  rw [formatCommand, cString_of_notMem hzero]
  exact formatLoop_words hwords

/-- A word and one more, which may end in a percent sign. -/
theorem formatCommand_pair {name : Bytes} (hname : Plain name ∧ name ≠ [])
    (hblank : blank ∉ word) (hpercent : percent ∉ word.dropLast) (hne : word ≠ [])
    (hzero : 0 ∉ name ++ blank :: word) :
    formatCommand conversion (name ++ blank :: word) ap = some [name, word] := by
  rw [formatCommand, cString_of_notMem hzero, List.length_append, List.length_cons,
    formatLoop_word hname.1 hname.2, formatLoop_blank,
    formatLoop_lastWord hblank hpercent hne]
  rfl

/-- The first word is the name of the command. -/
theorem formatCommand_name {name : Bytes} (hname : Plain name ∧ name ≠ []) (hzero : 0 ∉ name)
    (h : formatCommand conversion (name ++ blank :: rest) ap = some argv) :
    ∃ args, argv = name :: args := by
  have hstring : cString (name ++ blank :: rest) = name ++ blank :: cString rest := by
    unfold cString
    rw [List.takeWhile_append_of_pos, List.takeWhile_cons_of_pos (by decide)]
    intro b hb
    have hne : b ≠ 0 := fun heq => hzero (heq ▸ hb)
    simpa using hne
  rw [formatCommand, hstring, List.length_append, List.length_cons,
    formatLoop_word hname.1 hname.2, formatLoop_blank] at h
  obtain ⟨args, -, rfl⟩ := Option.map_eq_some_iff.mp h
  exact ⟨args, List.nil_append name ▸ rfl⟩

theorem mem_of_formatCommand (h : formatCommand conversion format [] = some argv) {arg : Bytes}
    (harg : arg ∈ argv) {b : UInt8} (hb : b ∈ arg) : b ≠ blank ∧ b ≠ 0 := by
  rcases mem_of_formatLoop h harg hb with hnil | ⟨hmem, hblank⟩
  · cases hnil
  · exact ⟨hblank, fun heq => zero_notMem_cString format (heq ▸ hmem)⟩

theorem count_of_formatCommand (h : formatCommand conversion format [] = some argv)
    (hzero : 0 ∉ format) :
    ∃ copies, 2 * argv.flatten.count percent = format.count percent + copies ∧ copies ≤ 1 ∧
      (format.getLast? ≠ some percent → copies = 0) := by
  rw [formatCommand, cString_of_notMem hzero] at h
  have hcount := count_of_formatLoop h (Nat.le_refl _) fun _ => rfl
  rwa [List.count_nil, Nat.mul_zero, Nat.zero_add] at hcount

end Format

end AuthForge.CommandFormat
