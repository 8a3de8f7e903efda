import Mathlib.Data.List.TakeWhile
import AuthForge.Base.Text

/-!
# URIs with an authority

The components of a URI that has an authority: the scheme, the authority with its user information,
host and port, and what follows. A host in brackets keeps them.

A host can be the text of an internet address. An IPv4 address is written as four decimal octets,
and an IPv6 address as eight groups of up to four hexadecimal digits, where two colons may stand for
groups of zeros and an IPv4 address for the last two groups. So an IPv6 address has many texts.
-/

namespace AuthForge

structure Authority where
  userinfo : Option (List Char) := none
  host : List Char
  port : Option (List Char) := none
  deriving DecidableEq

structure Uri where
  scheme : List Char
  authority : Authority
  /-- Path, query and fragment. -/
  tail : List Char
  deriving DecidableEq

namespace Authority

/-- What follows the host: nothing, or a colon and digits. -/
def parsePort : List Char → Option (Option (List Char))
  | [] => some none
  | ':' :: digits => if digits.all Char.isDigit then some (some digits) else none
  | _ => none

/-- A host and what follows it; one in brackets goes to the first closing one. -/
def cutHost (text : List Char) : Option (List Char × List Char) :=
  match text with
  | '[' :: literal =>
    match literal.dropWhile (· ≠ ']') with
    | [] => none
    | close :: rest => some ('[' :: literal.takeWhile (· ≠ ']') ++ [close], rest)
  | _ => some (text.takeWhile (· ≠ ':'), text.dropWhile (· ≠ ':'))

def parse (text : List Char) : Option Authority :=
  let userinfo := if '@' ∈ text then some (text.takeWhile (· ≠ '@')) else none
  (cutHost (if '@' ∈ text then (text.dropWhile (· ≠ '@')).drop 1 else text)).bind fun cut =>
    (parsePort cut.2).map fun port => { userinfo, host := cut.1, port }

end Authority

namespace Uri

def isSchemeChar (c : Char) : Bool := c.isAlphanum || c = '+' || c = '-' || c = '.'

def isScheme : List Char → Bool
  | [] => false
  | c :: cs => c.isAlpha && cs.all isSchemeChar

/-- A character that ends the authority. -/
def endsAuthority (c : Char) : Bool := c = '/' || c = '?' || c = '#'

def parse (text : List Char) : Option Uri :=
  match text.dropWhile (· ≠ ':') with
  | ':' :: '/' :: '/' :: rest =>
    if isScheme (text.takeWhile (· ≠ ':')) then
      (Authority.parse (rest.takeWhile fun c => !endsAuthority c)).map fun authority =>
        { scheme := text.takeWhile (· ≠ ':'), authority,
          tail := rest.dropWhile fun c => !endsAuthority c }
    else none
  | _ => none

/-! ### Where a component ends -/

/-- The text is at its end, or at a character that is not `p`. -/
def Stops (p : Char → Bool) (text : List Char) : Prop := ∀ c ∈ text.head?, p c = false

theorem takeWhile_append_of_stops {p : Char → Bool} {a b : List Char} (ha : ∀ c ∈ a, p c = true)
    (hb : Stops p b) : (a ++ b).takeWhile p = a ∧ (a ++ b).dropWhile p = b := by
  rw [List.takeWhile_append_of_pos ha, List.dropWhile_append_of_pos ha]
  cases b with
  | nil => exact ⟨List.append_nil a, rfl⟩
  | cons c b =>
    have hc : ¬p c = true := Bool.eq_false_iff.mp (hb c rfl)
    rw [List.takeWhile_cons_of_neg hc, List.dropWhile_cons_of_neg hc]
    exact ⟨List.append_nil a, rfl⟩

theorem parse_append {scheme rest : List Char} (hscheme : isScheme scheme = true)
    (hcolon : ':' ∉ scheme) :
    parse (scheme ++ ':' :: '/' :: '/' :: rest) =
      (Authority.parse (rest.takeWhile fun c => !endsAuthority c)).map fun authority =>
        { scheme, authority, tail := rest.dropWhile fun c => !endsAuthority c } := by
  have hall : ∀ c ∈ scheme, decide (c ≠ ':') = true := by
    intro c hc
    rw [decide_eq_true_eq]
    rintro rfl
    exact hcolon hc
  obtain ⟨htake, hdrop⟩ := takeWhile_append_of_stops (b := ':' :: '/' :: '/' :: rest) hall
    (fun c hc => by rw [← Option.some.inj hc]; rfl)
  unfold parse
  rw [htake, hdrop]
  exact if_pos hscheme

end Uri

/-! ### Texts of internet addresses -/

structure Ipv4 where
  a : Nat
  b : Nat
  c : Nat
  d : Nat
  deriving DecidableEq

namespace Ipv4

def octet? (field : List Char) : Option Nat :=
  if field ≠ [] ∧ field.length ≤ 3 ∧ field.all Char.isDigit = true ∧ digitsValue field ≤ 255 then
    some (digitsValue field)
  else none

def parse (text : List Char) : Option Ipv4 :=
  match text.splitOn '.' with
  | [a, b, c, d] =>
    match octet? a, octet? b, octet? c, octet? d with
    | some a, some b, some c, some d => some ⟨a, b, c, d⟩
    | _, _, _, _ => none
  | _ => none

/-- The address in two groups of sixteen bits. -/
def ofGroups (hi lo : Nat) : Ipv4 := ⟨hi / 256, hi % 256, lo / 256, lo % 256⟩

def groups (q : Ipv4) : List Nat := [q.a * 256 + q.b, q.c * 256 + q.d]

/-- Loopback, unspecified, private or link-local. -/
def Internal (q : Ipv4) : Prop :=
  q.a = 127 ∨ q = ⟨0, 0, 0, 0⟩ ∨ q.a = 10 ∨ (q.a = 172 ∧ 16 ≤ q.b ∧ q.b ≤ 31) ∨
    (q.a = 192 ∧ q.b = 168) ∨ (q.a = 169 ∧ q.b = 254)

/-! ### Its text -/

variable {field text : List Char} {n : Nat} {q : Ipv4}

theorem octet?_eq_some_iff : octet? field = some n ↔
    field ≠ [] ∧ field.length ≤ 3 ∧ field.all Char.isDigit = true ∧ digitsValue field = n ∧
      n ≤ 255 := by
  unfold octet?
  split
  · rename_i h
    rw [Option.some.injEq]
    constructor
    · rintro rfl
      exact ⟨h.1, h.2.1, h.2.2.1, rfl, h.2.2.2⟩
    · exact fun h' => h'.2.2.2.1
  · rename_i h
    refine iff_of_false nofun ?_
    rintro ⟨hne, hlength, hdigits, rfl, hle⟩
    exact h ⟨hne, hlength, hdigits, hle⟩

theorem parse_eq_some_iff : parse text = some q ↔
    ∃ a b c d, text.splitOn '.' = [a, b, c, d] ∧ octet? a = some q.a ∧ octet? b = some q.b ∧
      octet? c = some q.c ∧ octet? d = some q.d := by
  unfold parse
  constructor
  · intro h
    split at h
    · rename_i a b c d hsplit
      split at h
      · rename_i ha hb hc hd
        obtain rfl := Option.some.inj h
        exact ⟨a, b, c, d, hsplit, ha, hb, hc, hd⟩
      · cases h
    · cases h
  · rintro ⟨a, b, c, d, hsplit, ha, hb, hc, hd⟩
    rw [hsplit]
    dsimp only
    rw [ha, hb, hc, hd]

theorem text_of_parse (h : parse text = some q) :
    ∃ c rest, text = c :: rest ∧ c.isDigit = true ∧ '.' ∈ text ∧
      ∀ c ∈ text, c.isDigit = true ∨ c = '.' := by
  obtain ⟨a, b, c, d, hsplit, ha, hb, hc, hd⟩ := parse_eq_some_iff.mp h
  obtain ⟨hne, -, hda, -⟩ := octet?_eq_some_iff.mp ha
  obtain ⟨-, -, hdb, -⟩ := octet?_eq_some_iff.mp hb
  obtain ⟨-, -, hdc, -⟩ := octet?_eq_some_iff.mp hc
  obtain ⟨-, -, hdd, -⟩ := octet?_eq_some_iff.mp hd
  have hjoin : ['.'].intercalate (text.splitOn '.') = text := List.intercalate_splitOn '.'
  have htext : text = a ++ '.' :: (b ++ '.' :: (c ++ '.' :: d)) := by
    rw [← hjoin, hsplit]
    simp [List.intercalate]
  obtain ⟨x, a, rfl⟩ := List.exists_cons_of_ne_nil hne
  refine ⟨x, _, htext, ?_, ?_, ?_⟩
  · exact List.all_eq_true.mp hda x List.mem_cons_self
  · rw [htext]
    simp
  · intro y hy
    rw [htext] at hy
    simp only [List.mem_append, List.mem_cons] at hy
    rw [List.all_eq_true] at hda hdb hdc hdd
    rcases hy with hy | rfl | hy | rfl | hy | rfl | hy
    · exact .inl (hda y (List.mem_cons.mpr hy))
    · exact .inr rfl
    · exact .inl (hdb y hy)
    · exact .inr rfl
    · exact .inl (hdc y hy)
    · exact .inr rfl
    · exact .inl (hdd y hy)

theorem isDigit_of_parse {c : Char} (h : parse (c :: text) = some q) : c.isDigit = true := by
  obtain ⟨c', rest, heq, hdigit, -⟩ := text_of_parse h
  rwa [(List.cons.inj heq).1]

theorem colon_notMem_of_parse (h : parse text = some q) : ':' ∉ text := by
  obtain ⟨-, -, -, -, -, hall⟩ := text_of_parse h
  exact fun hmem => (hall ':' hmem).elim (by decide) (by decide)

theorem map_toLower_of_parse (h : parse text = some q) : text.map Char.toLower = text := by
  obtain ⟨-, -, -, -, -, hall⟩ := text_of_parse h
  have hsame : ∀ c ∈ text, c.toLower = id c := by
    intro c hc
    rcases hall c hc with hdigit | rfl
    · obtain ⟨-, hle⟩ := isDigit_iff_toNat.mp hdigit
      refine dif_neg fun hupper => ?_
      have hge : 65 ≤ c.toNat := hupper.1
      omega
    · rfl
  exact (List.map_congr_left hsame).trans (List.map_id text)

theorem halves (x : Nat) {y : Nat} (h : y ≤ 255) :
    (x * 256 + y) / 256 = x ∧ (x * 256 + y) % 256 = y := by
  omega

theorem ofGroups_of_parse (h : parse text = some q) :
    ofGroups (q.a * 256 + q.b) (q.c * 256 + q.d) = q := by
  obtain ⟨a, b, c, d, -, -, hb, -, hd⟩ := parse_eq_some_iff.mp h
  obtain ⟨-, -, -, -, hb⟩ := octet?_eq_some_iff.mp hb
  obtain ⟨-, -, -, -, hd⟩ := octet?_eq_some_iff.mp hd
  obtain ⟨h₁, h₂⟩ := halves q.a hb
  obtain ⟨h₃, h₄⟩ := halves q.c hd
  unfold ofGroups
  rw [h₁, h₂, h₃, h₄]

end Ipv4

namespace Ipv6

def hexDigit? (c : Char) : Option Nat :=
  if 48 ≤ c.toNat ∧ c.toNat ≤ 57 then some (c.toNat - 48)
  else if 97 ≤ c.toNat ∧ c.toNat ≤ 102 then some (c.toNat - 87)
  else if 65 ≤ c.toNat ∧ c.toNat ≤ 70 then some (c.toNat - 55)
  else none

def hexValue : Nat → List Char → Option Nat
  | n, [] => some n
  | n, c :: cs => (hexDigit? c).bind fun d => hexValue (16 * n + d) cs

def field? (text : List Char) : Option Nat :=
  if text ≠ [] ∧ text.length ≤ 4 then hexValue 0 text else none

/-- Groups between single colons; an IPv4 address may be the last two of them. -/
inductive Groups (dotted : Bool) : List Char → List Nat → Prop
  | field {text : List Char} {g : Nat} (h : field? text = some g) : Groups dotted text [g]
  | ipv4 {text : List Char} {q : Ipv4} (hdotted : dotted = true) (h : Ipv4.parse text = some q) :
      Groups dotted text q.groups
  | cons {field text : List Char} {g : Nat} {gs : List Nat} (h : field? field = some g)
      (hrest : Groups dotted text gs) : Groups dotted (field ++ ':' :: text) (g :: gs)

/-- One side of two colons. -/
inductive Side (dotted : Bool) : List Char → List Nat → Prop
  | empty : Side dotted [] []
  | groups {text : List Char} {gs : List Nat} (h : Groups dotted text gs) : Side dotted text gs

/-- The text stands for the eight groups. -/
inductive Text : List Char → List Nat → Prop
  | full {text : List Char} {gs : List Nat} (h : Groups true text gs) (hlength : gs.length = 8) :
      Text text gs
  | compressed {left right : List Char} {gl gr : List Nat} (hleft : Side false left gl)
      (hright : Side true right gr) (hlength : gl.length + gr.length ≤ 7) :
      Text (left ++ ':' :: ':' :: right)
        (gl ++ List.replicate (8 - (gl.length + gr.length)) 0 ++ gr)

def UniqueLocal (gs : List Nat) : Prop := ∃ g, gs.head? = some g ∧ 0xfc00 ≤ g ∧ g ≤ 0xfdff

def LinkLocal (gs : List Nat) : Prop := ∃ g, gs.head? = some g ∧ 0xfe80 ≤ g ∧ g ≤ 0xfebf

/-- Loopback, unspecified, unique-local, link-local, or mapped from an internal IPv4 address. -/
def Internal (gs : List Nat) : Prop :=
  gs = [0, 0, 0, 0, 0, 0, 0, 1] ∨ gs = [0, 0, 0, 0, 0, 0, 0, 0] ∨ UniqueLocal gs ∨ LinkLocal gs ∨
    ∃ hi lo, gs = [0, 0, 0, 0, 0, 0xffff, hi, lo] ∧ (Ipv4.ofGroups hi lo).Internal

/-! ### Hexadecimal digits -/

variable {c : Char} {d n g : Nat} {field text : List Char} {gs : List Nat} {dotted : Bool}

theorem toNat_of_hexDigit? (h : hexDigit? c = some d) : c.toNat < 103 := by
  unfold hexDigit? at h
  split at h
  · omega
  · split at h
    · omega
    · split at h
      · omega
      · cases h

/-- The digit in lower case. -/
theorem toLower_of_hexDigit? (h : hexDigit? c = some d) :
    d < 16 ∧ c.toLower = Nat.digitChar d := by
  have hc : Char.ofNat c.toNat = c := Char.ofNat_toNat c
  rw [← hc] at h ⊢
  have hall : ∀ n < 103, ∀ d ∈ hexDigit? (Char.ofNat n),
      d < 16 ∧ (Char.ofNat n).toLower = Nat.digitChar d := by decide
  exact hall c.toNat (hc ▸ toNat_of_hexDigit? h) d h

theorem hexDigit?_digitChar (h : d < 16) : hexDigit? (Nat.digitChar d) = some d := by
  have hall : ∀ d < 16, hexDigit? (Nat.digitChar d) = some d := by decide
  exact hall d h

theorem hexValue_cons (h : hexValue n (c :: text) = some g) :
    ∃ d, hexDigit? c = some d ∧ hexValue (16 * n + d) text = some g :=
  Option.bind_eq_some_iff.mp h

theorem hexValue_append (a : List Char) :
    hexValue n (a ++ text) = (hexValue n a).bind fun n => hexValue n text := by
  induction a generalizing n with
  | nil => rfl
  | cons c a ih =>
    show (hexDigit? c).bind (fun d => hexValue (16 * n + d) (a ++ text)) =
      ((hexDigit? c).bind fun d => hexValue (16 * n + d) a).bind fun n => hexValue n text
    cases hexDigit? c with
    | none => rfl
    | some d => exact ih

theorem mem_hexValue (h : hexValue n text = some g) : ∀ c ∈ text, ∃ d, hexDigit? c = some d := by
  induction text generalizing n with
  | nil => nofun
  | cons c text ih =>
    obtain ⟨d, hd, hrest⟩ := hexValue_cons h
    intro x hx
    rcases List.mem_cons.mp hx with rfl | hx
    · exact ⟨d, hd⟩
    · exact ih hrest x hx

theorem hexValue_map_toLower (h : hexValue n text = some g) :
    hexValue n (text.map Char.toLower) = some g := by
  induction text generalizing n with
  | nil => exact h
  | cons c text ih =>
    obtain ⟨d, hd, hrest⟩ := hexValue_cons h
    obtain ⟨hlt, hlower⟩ := toLower_of_hexDigit? hd
    rw [List.map_cons, hlower]
    unfold hexValue
    rw [hexDigit?_digitChar hlt]
    exact ih hrest

theorem hexValue_bounds (h : hexValue n text = some g) :
    n * 16 ^ text.length ≤ g ∧ g < (n + 1) * 16 ^ text.length := by
  induction text generalizing n with
  | nil =>
    obtain rfl := Option.some.inj h
    simp
  | cons c text ih =>
    obtain ⟨d, hd, hrest⟩ := hexValue_cons h
    obtain ⟨hlt, -⟩ := toLower_of_hexDigit? hd
    obtain ⟨hlow, hhigh⟩ := ih hrest
    have hpow : 16 ^ (c :: text).length = 16 * 16 ^ text.length := by
      rw [List.length_cons, Nat.pow_succ, Nat.mul_comm]
    rw [hpow, ← Nat.mul_assoc, ← Nat.mul_assoc]
    constructor
    · exact le_trans (Nat.mul_le_mul_right _ (by omega)) hlow
    · exact lt_of_lt_of_le hhigh (Nat.mul_le_mul_right _ (by omega))

/-! ### Fields -/

theorem field?_eq_some_iff : field? text = some g ↔
    text ≠ [] ∧ text.length ≤ 4 ∧ hexValue 0 text = some g := by
  unfold field?
  split
  · rename_i h
    exact ⟨fun h' => ⟨h.1, h.2, h'⟩, fun h' => h'.2.2⟩
  · rename_i h
    exact iff_of_false nofun fun h' => h ⟨h'.1, h'.2.1⟩

theorem notMem_field? (h : field? text = some g) (hc : hexDigit? c = none) : c ∉ text := by
  intro hmem
  obtain ⟨d, hd⟩ := mem_hexValue (field?_eq_some_iff.mp h).2.2 c hmem
  rw [hc] at hd
  cases hd

theorem field?_map_toLower (h : field? text = some g) :
    field? (text.map Char.toLower) = some g := by
  obtain ⟨hne, hlength, hvalue⟩ := field?_eq_some_iff.mp h
  refine field?_eq_some_iff.mpr ⟨?_, ?_, hexValue_map_toLower hvalue⟩
  · exact fun h => hne (List.map_eq_nil_iff.mp h)
  · rwa [List.length_map]

/-! ### Letter case -/

theorem Groups.map_toLower (h : Groups dotted text gs) :
    Groups dotted (text.map Char.toLower) gs := by
  induction h with
  | field h => exact .field (field?_map_toLower h)
  | ipv4 hdotted h =>
    rw [Ipv4.map_toLower_of_parse h]
    exact .ipv4 hdotted h
  | cons h hrest ih =>
    rw [List.map_append, List.map_cons]
    exact .cons (field?_map_toLower h) ih

theorem Side.map_toLower (h : Side dotted text gs) : Side dotted (text.map Char.toLower) gs := by
  cases h with
  | empty => exact .empty
  | groups h => exact .groups h.map_toLower

theorem Text.map_toLower (h : Text text gs) : Text (text.map Char.toLower) gs := by
  cases h with
  | full h hlength => exact .full h.map_toLower hlength
  | compressed hleft hright hlength =>
    rw [List.map_append, List.map_cons, List.map_cons]
    exact .compressed hleft.map_toLower hright.map_toLower hlength

/-! ### The first group -/

theorem Groups.first (h : Groups dotted text gs) :
    (dotted = true ∧ ∃ q, Ipv4.parse text = some q ∧ gs = q.groups) ∨
      ∃ field rest g gs', text = field ++ rest ∧ field? field = some g ∧ gs = g :: gs' ∧
        ((rest = [] ∧ gs' = []) ∨
          ∃ text', rest = ':' :: text' ∧ Groups dotted text' gs') := by
  cases h with
  | field h => exact .inr ⟨text, [], _, [], (List.append_nil text).symm, h, rfl, .inl ⟨rfl, rfl⟩⟩
  | ipv4 hdotted h => exact .inl ⟨hdotted, _, h, rfl⟩
  | cons h hrest => exact .inr ⟨_, _, _, _, rfl, h, rfl, .inr ⟨_, rfl, hrest⟩⟩

theorem ne_colon_of_field? (h : field? field = some g) {rest text : List Char} :
    field ++ rest ≠ ':' :: text := by
  obtain ⟨hne, -, -⟩ := field?_eq_some_iff.mp h
  obtain ⟨c, field, rfl⟩ := List.exists_cons_of_ne_nil hne
  intro heq
  obtain rfl : c = ':' := (List.cons.inj heq).1
  exact notMem_field? h (by decide) List.mem_cons_self

/-- A text starts with two colons, or with a group and one. -/
theorem Text.start (h : Text text gs) :
    (∃ right gr, text = ':' :: ':' :: right ∧ Side true right gr ∧
        gs = List.replicate (8 - gr.length) 0 ++ gr ∧ gr.length ≤ 7) ∨
      ∃ field rest g gs', text = field ++ ':' :: rest ∧ field? field = some g ∧ gs = g :: gs' := by
  cases h with
  | full h hlength =>
    rcases h.first with ⟨-, q, -, rfl⟩ | ⟨field, rest, g, gs', rfl, hg, rfl, hrest⟩
    · cases hlength
    · rcases hrest with ⟨-, rfl⟩ | ⟨rest, rfl, -⟩
      · cases hlength
      · exact .inr ⟨field, rest, g, gs', rfl, hg, rfl⟩
  | @compressed left right gl gr hleft hright hlength =>
    cases hleft with
    | empty =>
      rw [List.length_nil, Nat.zero_add] at hlength
      refine .inl ⟨right, gr, rfl, hright, ?_, hlength⟩
      rw [List.length_nil, Nat.zero_add, List.nil_append]
    | groups h =>
      rcases h.first with ⟨hdotted, -⟩ | ⟨field, rest, g, gs', rfl, hg, rfl, hrest⟩
      · cases hdotted
      · rcases hrest with ⟨rfl, rfl⟩ | ⟨rest, rfl, -⟩
        · refine .inr ⟨field, ':' :: right, g, _, ?_, hg, List.cons_append⟩
          rw [List.append_nil]
        · refine .inr ⟨field, rest ++ ':' :: ':' :: right, g, _, ?_, hg, List.cons_append⟩
          rw [List.append_assoc, List.cons_append]

theorem cut_field? (h : field? field = some g) {rest : List Char}
    (hrest : rest = [] ∨ ∃ text, rest = ':' :: text) :
    (field ++ rest).takeWhile (· ≠ ':') = field ∧ (field ++ rest).dropWhile (· ≠ ':') = rest := by
  apply Uri.takeWhile_append_of_stops
  · intro c hc
    rw [decide_eq_true_eq]
    rintro rfl
    exact notMem_field? h (by decide) hc
  · rcases hrest with rfl | ⟨text, rfl⟩
    · nofun
    · intro c hc
      rw [← Option.some.inj hc]
      rfl

theorem Groups.rest (h : Groups dotted (field ++ ':' :: text) gs) (hg : field? field = some g) :
    ∃ gs', gs = g :: gs' ∧ Groups dotted text gs' := by
  rcases h.first with ⟨-, q, hq, -⟩ | ⟨field', rest', g', gs', heq, hg', rfl, hrest⟩
  · have hmem : ':' ∈ field ++ ':' :: text := List.mem_append_right field List.mem_cons_self
    exact absurd hmem (Ipv4.colon_notMem_of_parse hq)
  · obtain ⟨htake, hdrop⟩ := cut_field? hg (.inr ⟨text, rfl⟩)
    obtain ⟨htake', hdrop'⟩ := cut_field? hg'
      (hrest.imp And.left fun ⟨text, htext, _⟩ => ⟨text, htext⟩)
    rw [← heq, htake] at htake'
    rw [← heq, hdrop] at hdrop'
    subst htake' hdrop'
    obtain rfl := Option.some.inj (hg.symm.trans hg')
    rcases hrest with ⟨hnil, -⟩ | ⟨text', htext, hgroups⟩
    · cases hnil
    · obtain rfl := (List.cons.inj htext).2
      exact ⟨gs', rfl, hgroups⟩

theorem Groups.of_parse (h : Groups dotted text gs) {q : Ipv4} (hq : Ipv4.parse text = some q) :
    gs = q.groups := by
  obtain ⟨-, -, -, -, hdot, -⟩ := Ipv4.text_of_parse hq
  rcases h.first with ⟨-, q', hq', rfl⟩ | ⟨field, rest, g, gs', rfl, hg, -, hrest⟩
  · rw [Option.some.inj (hq.symm.trans hq')]
  · rcases hrest with ⟨rfl, -⟩ | ⟨text', rfl, -⟩
    · rw [List.append_nil] at hdot
      exact absurd hdot (notMem_field? hg (by decide))
    · exact absurd (List.mem_append_right field List.mem_cons_self)
        (Ipv4.colon_notMem_of_parse hq)

theorem Text.right (h : Text (':' :: ':' :: text) gs) :
    ∃ gr, Side true text gr ∧ gs = List.replicate (8 - gr.length) 0 ++ gr ∧ gr.length ≤ 7 := by
  rcases h.start with ⟨right, gr, heq, hright, hgs, hlength⟩ | ⟨field, rest, g, -, heq, hg, -⟩
  · obtain rfl := (List.cons.inj (List.cons.inj heq).2).2
    exact ⟨gr, hright, hgs, hlength⟩
  · exact absurd heq.symm (ne_colon_of_field? hg)

/-- An IPv4 address after `::ffff:`. -/
theorem Text.mapped {q : Ipv4} (h : Text (':' :: ':' :: (['f', 'f', 'f', 'f'] ++ ':' :: text)) gs)
    (hq : Ipv4.parse text = some q) :
    gs = [0, 0, 0, 0, 0, 0xffff, q.a * 256 + q.b, q.c * 256 + q.d] := by
  obtain ⟨gr, hright, rfl, -⟩ := h.right
  cases hright with
  | groups hgroups =>
    obtain ⟨gs', rfl, hrest⟩ := hgroups.rest (by decide : field? ['f', 'f', 'f', 'f'] = some 0xffff)
    rw [hrest.of_parse hq]
    rfl

end Ipv6

end AuthForge
