import Mathlib.Algebra.Group.Int.Defs
import Mathlib.Data.String.Basic

/-!
# Text as C and C++ library functions see it

Strings are sequences of characters here. Where the source hands a string to a C interface, it is
read up to the first NUL; where it counts or matches `char`s, it does so on the UTF-8 bytes.
-/

namespace AuthForge

/-- The string a C function sees in `s.c_str()`. -/
def cStr (s : String) : String := String.ofList (s.toList.takeWhile (· ≠ '\x00'))

def bytes (s : String) : List UInt8 := s.toList.flatMap String.utf8EncodeChar

namespace Ascii

abbrev Bytes := List UInt8

def newline : UInt8 := 10
def carriageReturn : UInt8 := 13
def doubleQuote : UInt8 := 34
def dollar : UInt8 := 36
def quote : UInt8 := 39
def asterisk : UInt8 := 42
def dash : UInt8 := 45
def slash : UInt8 := 47
def semicolon : UInt8 := 59
def backslash : UInt8 := 92
def underscore : UInt8 := 95

def isLetter (c : UInt8) : Bool := (65 ≤ c && c ≤ 90) || (97 ≤ c && c ≤ 122)

def isDigit (c : UInt8) : Bool := 48 ≤ c && c ≤ 57

end Ascii

def byteLength (s : String) : Nat := s.utf8ByteSize

def isSpace (c : Char) : Bool := c = ' ' || ('\t' ≤ c && c ≤ '\r')

/-- The non-empty parts between separators: a `getline` loop that drops empty items. -/
def splitNonEmpty (sep : Char) (s : String) : List String :=
  ((s.toList.splitOn sep).filter (· ≠ [])).map String.ofList

def cutFirst (sep : Char) (s : String) : Option (String × String) :=
  if sep ∈ s.toList then
    some (String.ofList (s.toList.takeWhile (· ≠ sep)),
      String.ofList ((s.toList.dropWhile (· ≠ sep)).drop 1))
  else none

section Separators

variable {α : Type} [DecidableEq α] {sep : α} {front : List α}

theorem decide_ne_of_notMem (h : sep ∉ front) : ∀ c ∈ front, decide (c ≠ sep) = true := by
  intro c hc
  refine decide_eq_true ?_
  rintro rfl
  exact h hc

theorem takeWhile_ne_append (h : sep ∉ front) (rest : List α) :
    (front ++ sep :: rest).takeWhile (· ≠ sep) = front := by
  rw [List.takeWhile_append_of_pos (decide_ne_of_notMem h)]
  simp

theorem dropWhile_ne_append (h : sep ∉ front) (rest : List α) :
    (front ++ sep :: rest).dropWhile (· ≠ sep) = sep :: rest := by
  rw [List.dropWhile_append_of_pos (decide_ne_of_notMem h)]
  simp

/-- What stands before the first separator and what stands behind it are recovered from the whole. -/
theorem append_cons_inj {front' rest rest' : List α} (h : sep ∉ front) (h' : sep ∉ front')
    (heq : front ++ sep :: rest = front' ++ sep :: rest') : front = front' ∧ rest = rest' := by
  have hfront : front = front' := by
    rw [← takeWhile_ne_append h rest, heq, takeWhile_ne_append h']
  rw [hfront] at heq
  exact ⟨hfront, (List.cons.inj (List.append_cancel_left heq)).2⟩

end Separators

theorem cutFirst_ofList {sep : Char} {front : List Char} (h : sep ∉ front) (rest : List Char) :
    cutFirst sep (String.ofList (front ++ sep :: rest)) =
      some (String.ofList front, String.ofList rest) := by
  unfold cutFirst
  rw [String.toList_ofList, if_pos (List.mem_append_right _ List.mem_cons_self),
    takeWhile_ne_append h, dropWhile_ne_append h, List.drop_one, List.tail_cons]

/-! ### Numbers -/

def digitsValue (digits : List Char) : Nat :=
  digits.foldl (fun n c => 10 * n + (c.toNat - '0'.toNat)) 0

/-- The leading integer of a string as `strtol` reads it: blanks, a sign, at least one digit; with
the characters left over. -/
def leadingInt (s : String) : Option (Int × List Char) :=
  let cs := s.toList.dropWhile isSpace
  let signed := match cs with
    | '-' :: rest => (-1, rest)
    | '+' :: rest => (1, rest)
    | rest => ((1 : Int), rest)
  let digits := signed.2.takeWhile Char.isDigit
  if digits = [] then none
  else some (signed.1 * digitsValue digits, signed.2.dropWhile Char.isDigit)

/-- `std::stoi`; an exception is `none`. -/
def stoi (s : String) : Option Int :=
  match leadingInt s with
  | none => none
  | some (n, _) => if -2 ^ 31 ≤ n ∧ n < 2 ^ 31 then some n else none

def stoll (s : String) : Option Int :=
  match leadingInt s with
  | none => none
  | some (n, _) => if -2 ^ 63 ≤ n ∧ n < 2 ^ 63 then some n else none

theorem byteLength_eq_length_bytes (s : String) : byteLength s = (bytes s).length := by
  unfold byteLength bytes
  rw [← String.size_toByteArray, ← String.utf8Encode_toList, List.utf8Encode,
    List.size_toByteArray]

theorem bytes_append (s t : String) : bytes (s ++ t) = bytes s ++ bytes t := by
  unfold bytes
  rw [String.toList_append, List.flatMap_append]

theorem bytes_eq_nil_iff (s : String) : bytes s = [] ↔ s = "" := by
  rw [← List.length_eq_zero_iff, ← byteLength_eq_length_bytes, byteLength,
    String.utf8ByteSize_eq_zero_iff]

theorem bytes_injective : Function.Injective bytes := by
  intro s t h
  have hencoded : s.toList.utf8Encode = t.toList.utf8Encode := by
    unfold List.utf8Encode
    exact congrArg List.toByteArray h
  rw [String.utf8Encode_toList, String.utf8Encode_toList] at hencoded
  exact String.toByteArray_inj.mp hencoded

/-! ### ASCII -/

theorem isDigit_iff_toNat {c : Char} : c.isDigit = true ↔ 48 ≤ c.toNat ∧ c.toNat ≤ 57 := by
  unfold Char.isDigit
  rw [Bool.and_eq_true, decide_eq_true_eq, decide_eq_true_eq]
  exact and_congr UInt32.le_iff_toNat_le UInt32.le_iff_toNat_le

theorem utf8EncodeChar_cases (c : Char) :
    (c.toNat < 128 ∧ String.utf8EncodeChar c = [UInt8.ofNat c.toNat]) ∨
      ∃ b rest, String.utf8EncodeChar c = b :: rest ∧ 128 ≤ b.toNat := by
  fun_cases String.utf8EncodeChar c with
  | case1 v h => exact .inl ⟨Nat.lt_succ_of_le h, rfl⟩
  | case2 v h h' =>
    refine .inr ⟨_, _, rfl, ?_⟩
    simp
    omega
  | case3 v h h' h'' =>
    refine .inr ⟨_, _, rfl, ?_⟩
    simp
    omega
  | case4 v h h' h'' =>
    refine .inr ⟨_, _, rfl, ?_⟩
    simp
    omega

def asciiChar (b : UInt8) : Char := Char.ofNat b.toNat

theorem asciiChar_ofNat_toNat {c : Char} (h : c.toNat < 128) :
    asciiChar (UInt8.ofNat c.toNat) = c := by
  unfold asciiChar
  rw [UInt8.toNat_ofNat_of_lt' (Nat.lt_trans h (by decide)), Char.ofNat_toNat]

theorem toNat_asciiChar {b : UInt8} (h : b.toNat < 128) : (asciiChar b).toNat = b.toNat := by
  have hvalid : b.toNat.isValidChar := .inl (Nat.lt_trans h (by decide))
  unfold asciiChar Char.ofNat
  rw [dif_pos hvalid]
  rfl

def asciiByte (c : Char) : UInt8 := UInt8.ofNat c.toNat

theorem asciiByte_asciiChar {b : UInt8} (h : b.toNat < 128) : asciiByte (asciiChar b) = b := by
  rw [asciiByte, toNat_asciiChar h, UInt8.ofNat_toNat]

theorem toNat_asciiByte {c : Char} (h : c.toNat < 128) : (asciiByte c).toNat = c.toNat :=
  UInt8.toNat_ofNat_of_lt' (Nat.lt_trans h (by decide))

theorem utf8EncodeChar_of_ascii {c : Char} (h : c.toNat < 128) :
    String.utf8EncodeChar c = [asciiByte c] := by
  have hle : c.val.toNat ≤ 127 := Nat.le_of_lt_succ h
  unfold String.utf8EncodeChar
  exact if_pos hle

theorem flatMap_of_ascii {cs : List Char} (h : ∀ c ∈ cs, c.toNat < 128) :
    cs.flatMap String.utf8EncodeChar = cs.map asciiByte := by
  induction cs with
  | nil => rfl
  | cons c cs ih =>
    obtain ⟨hc, hcs⟩ := List.forall_mem_cons.mp h
    rw [List.flatMap_cons, List.map_cons, ih hcs, utf8EncodeChar_of_ascii hc]
    rfl

/-- What holds of the characters up to 127 holds of every ASCII character. -/
theorem forall_ascii {P : Char → Prop} (h : ∀ n < 128, P (Char.ofNat n)) {c : Char}
    (hc : c.toNat < 128) : P c := by
  have hchar := h c.toNat hc
  rwa [Char.ofNat_toNat] at hchar

/-- Where the bytes of a text begin with ASCII, the text begins with these characters. -/
theorem exists_of_flatMap_eq_append {cs : List Char} {a b : List UInt8}
    (h : cs.flatMap String.utf8EncodeChar = a ++ b) (hascii : ∀ x ∈ a, x.toNat < 128) :
    ∃ rest, cs = a.map asciiChar ++ rest ∧ rest.flatMap String.utf8EncodeChar = b := by
  induction a generalizing cs with
  | nil => exact ⟨cs, rfl, h⟩
  | cons x a ih =>
    cases cs with
    | nil => cases h
    | cons c cs =>
      rw [List.flatMap_cons] at h
      rcases utf8EncodeChar_cases c with ⟨hc, hbyte⟩ | ⟨y, ys, hbytes, hy⟩
      · rw [hbyte, List.singleton_append, List.cons_append] at h
        obtain ⟨rfl, hrest⟩ := List.cons.inj h
        obtain ⟨rest, rfl, hbytes⟩ := ih hrest fun y hy => hascii y (List.mem_cons_of_mem _ hy)
        refine ⟨rest, ?_, hbytes⟩
        rw [List.map_cons, asciiChar_ofNat_toNat hc, List.cons_append]
      · rw [hbytes, List.cons_append, List.cons_append] at h
        obtain ⟨rfl, -⟩ := List.cons.inj h
        have hlt := hascii y List.mem_cons_self
        omega

theorem eq_map_asciiChar {cs : List Char} {a : List UInt8}
    (h : cs.flatMap String.utf8EncodeChar = a) (hascii : ∀ x ∈ a, x.toNat < 128) :
    cs = a.map asciiChar := by
  have hbytes : cs.flatMap String.utf8EncodeChar = a ++ [] := by rw [h, List.append_nil]
  obtain ⟨rest, rfl, hrest⟩ := exists_of_flatMap_eq_append hbytes hascii
  cases rest with
  | nil => rw [List.append_nil]
  | cons c rest =>
    rw [List.flatMap_cons, List.append_eq_nil_iff] at hrest
    exact absurd hrest.1 String.utf8EncodeChar_ne_nil

theorem map_asciiByte_map_asciiChar {a : List UInt8} (h : ∀ x ∈ a, x.toNat < 128) :
    (a.map asciiChar).map asciiByte = a := by
  rw [List.map_map]
  exact (List.map_congr_left fun x hx => asciiByte_asciiChar (h x hx)).trans (List.map_id a)

/-! ### Splitting -/

theorem notMem_of_mem_splitOn {sep : Char} {cs part : List Char} (h : part ∈ cs.splitOn sep) :
    sep ∉ part := by
  induction cs generalizing part with
  | nil =>
    rw [List.splitOn_nil, List.mem_singleton] at h
    rw [h]
    exact List.not_mem_nil
  | cons c cs ih =>
    rw [List.splitOn_cons_eq_if_modifyHead] at h
    split at h
    · rcases List.mem_cons.mp h with rfl | h
      · exact List.not_mem_nil
      · exact ih h
    · rename_i hne
      -- the character joins the first part of the rest
      cases hrest : cs.splitOn sep with
      | nil => exact absurd hrest (List.splitOn_ne_nil sep cs)
      | cons first rest =>
        rw [hrest] at h ih
        rcases List.mem_cons.mp h with rfl | h
        · intro hmem
          rcases List.mem_cons.mp hmem with heq | hmem
          · simp [heq] at hne
          · exact ih List.mem_cons_self hmem
        · exact ih (List.mem_cons_of_mem first h)

/-! ### Decimal numerals -/

theorem isDigit_of_mem_natToString {n : Nat} {c : Char} (hc : c ∈ (toString n).toList) :
    c.isDigit = true := by
  rw [Nat.toString_eq_repr, Nat.toList_repr] at hc
  exact Nat.isDigit_of_mem_toDigits (by decide) (by decide) hc

theorem natToString_injective {m n : Nat} (h : toString m = toString n) : m = n := by
  rw [Nat.toString_eq_repr, Nat.toString_eq_repr] at h
  have hdigits := congrArg String.toList h
  rw [Nat.toList_repr, Nat.toList_repr] at hdigits
  rw [← Nat.ofDigitChars_ten_toDigits (n := m), hdigits, Nat.ofDigitChars_ten_toDigits]

theorem intToString_cases (n : Int) :
    (∃ m : Nat, n = m ∧ toString n = toString m) ∨
      ∃ m : Nat, n = -(m + 1 : Nat) ∧ (toString n).toList = '-' :: (toString (m + 1)).toList := by
  cases n with
  | ofNat m => exact .inl ⟨m, rfl, rfl⟩
  | negSucc m =>
    refine .inr ⟨m, rfl, ?_⟩
    change ("-" ++ (m + 1).repr).toList = '-' :: (toString (m + 1)).toList
    rw [String.toList_append, Nat.toString_eq_repr]
    rfl

theorem isDigit_or_eq_minus_of_mem_intToString {n : Int} {c : Char} (hc : c ∈ (toString n).toList) :
    c.isDigit = true ∨ c = '-' := by
  rcases intToString_cases n with ⟨m, rfl, hm⟩ | ⟨m, rfl, hm⟩
  · rw [hm] at hc
    exact .inl (isDigit_of_mem_natToString hc)
  · rw [hm, List.mem_cons] at hc
    exact hc.symm.imp_left isDigit_of_mem_natToString

theorem natToString_ne_minus {n : Nat} {cs : List Char} : (toString n).toList ≠ '-' :: cs := by
  intro h
  have hdigit := isDigit_of_mem_natToString (n := n) (c := '-') (by rw [h]; exact List.mem_cons_self)
  cases hdigit

theorem intToString_injective {m n : Int} (h : toString m = toString n) : m = n := by
  rcases intToString_cases m with ⟨a, rfl, ha⟩ | ⟨a, rfl, ha⟩ <;>
    rcases intToString_cases n with ⟨b, rfl, hb⟩ | ⟨b, rfl, hb⟩
  · rw [ha, hb] at h
    rw [natToString_injective h]
  · rw [← h, ha] at hb
    exact absurd hb natToString_ne_minus
  · rw [h, hb] at ha
    exact absurd ha natToString_ne_minus
  · rw [h, hb] at ha
    have htail := String.toList_injective (List.cons.inj ha).2
    rw [natToString_injective htail]

/-! ### Names under a prefix -/

/-- Two prefixes that differ among their first characters never start the same string. -/
theorem append_ne_append_of_take {p q : String} (n : Nat) (hp : n ≤ p.toList.length)
    (hq : n ≤ q.toList.length) (h : p.toList.take n ≠ q.toList.take n) (s t : String) :
    p ++ s ≠ q ++ t := by
  intro heq
  have hlist : p.toList ++ s.toList = q.toList ++ t.toList := by
    rw [← String.toList_append, ← String.toList_append, heq]
  have htake := congrArg (List.take n) hlist
  rw [List.take_append_of_le_length hp, List.take_append_of_le_length hq] at htake
  exact h htake

end AuthForge
