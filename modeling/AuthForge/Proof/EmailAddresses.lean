import AuthForge.Base.AsciiCase
import AuthForge.Base.Regex
import AuthForge.Http.Validation
import AuthForge.Identity.Users

/-!
# Normalised email addresses

An accepted address has a local part and a domain. Folding keeps both within the pattern; dropping
tags and dots keeps the local part within it as well, unless nothing is left of it. What is left
of two addresses at Gmail is the same exactly if their mailboxes are.
-/

namespace AuthForge.EmailAddresses

open Http Identity Regex

variable {e : String} {l d : List Char} {c : Char}

def Accepted (e : String) : Prop := EMAIL_PATTERN.accepts (bytes e) = true

instance : DecidablePred Accepted := fun e =>
  inferInstanceAs (Decidable (EMAIL_PATTERN.accepts (bytes e) = true))

def localPart (e : String) : List Char := e.toList.takeWhile (· ≠ '@')

/-- The domain in lower case. -/
def domain (e : String) : String :=
  String.ofList (((e.toList.dropWhile (· ≠ '@')).drop 1).map Char.toLower)

/-- A local part cut at the first plus sign, without its dots. -/
def mailbox (l : List Char) : List Char := (l.takeWhile (· ≠ '+')).filter (· ≠ '.')

abbrev FoldsAliases (domain : String) : Prop := domain = "gmail.com" ∨ domain = "googlemail.com"

/-- Before the first plus sign there are at most dots. -/
def OnlyDots (l : List Char) : Prop := ∀ c ∈ l.takeWhile (· ≠ '+'), c = '.'

/-- What is kept of a local part under a domain. -/
def kept (domain : String) (l : List Char) : List Char :=
  if FoldsAliases domain then mailbox l else l

/-! ### Local parts -/

theorem mailbox_map_toLower (l : List Char) :
    mailbox (l.map Char.toLower) = (mailbox l).map Char.toLower := by
  have hplus : ((fun c => decide (c ≠ '+')) ∘ Char.toLower) = fun c => decide (c ≠ '+') := by
    funext c
    exact decide_eq_decide.mpr (not_congr (toLower_eq_iff (by decide)))
  have hdot : ((fun c => decide (c ≠ '.')) ∘ Char.toLower) = fun c => decide (c ≠ '.') := by
    funext c
    exact decide_eq_decide.mpr (not_congr (toLower_eq_iff (by decide)))
  rw [mailbox, List.takeWhile_map, hplus, List.filter_map, hdot, mailbox]

theorem mailbox_mailbox (l : List Char) : mailbox (mailbox l) = mailbox l := by
  have hplus : (mailbox l).takeWhile (· ≠ '+') = mailbox l := by
    rw [List.takeWhile_eq_self_iff]
    intro c hc
    exact List.mem_takeWhile_imp (p := fun c => decide (c ≠ '+')) (List.mem_filter.mp hc).1
  unfold mailbox at hplus ⊢
  rw [hplus, List.filter_filter]
  simp only [Bool.and_self]

theorem mailbox_eq_nil_iff : mailbox l = [] ↔ OnlyDots l := by
  rw [mailbox, List.filter_eq_nil_iff, OnlyDots]
  simp

theorem kept_map_toLower (domain : String) (l : List Char) :
    kept domain (l.map Char.toLower) = (kept domain l).map Char.toLower := by
  unfold kept
  split
  · exact mailbox_map_toLower l
  · rfl

theorem kept_kept (domain : String) (l : List Char) :
    kept domain (kept domain l) = kept domain l := by
  unfold kept
  split
  · exact mailbox_mailbox l
  · rfl

theorem mem_of_mem_kept {domain : String} (hc : c ∈ kept domain l) : c ∈ l := by
  unfold kept at hc
  split at hc
  · exact (List.takeWhile_sublist _).subset (List.mem_filter.mp hc).1
  · exact hc

theorem kept_eq_nil_iff {domain : String} (hl : l ≠ []) :
    kept domain l = [] ↔ FoldsAliases domain ∧ OnlyDots l := by
  unfold kept
  split
  · rename_i hfolds
    rw [mailbox_eq_nil_iff]
    exact ⟨fun h => ⟨hfolds, h⟩, And.right⟩
  · rename_i hfolds
    exact iff_of_false hl fun h => hfolds h.1

/-! ### Normalisation of a text with an at sign -/

theorem localPart_ofList (hat : '@' ∉ l) : localPart (String.ofList (l ++ '@' :: d)) = l := by
  rw [localPart, String.toList_ofList, takeWhile_ne_append hat]

theorem domain_ofList (hat : '@' ∉ l) :
    domain (String.ofList (l ++ '@' :: d)) = String.ofList (d.map Char.toLower) := by
  rw [domain, String.toList_ofList, dropWhile_ne_append hat, List.drop_one, List.tail_cons]

theorem trimmed_eq_self {cs : List Char} (h : ∀ c ∈ cs, isSpace c = false) :
    ((cs.dropWhile isSpace).reverse.dropWhile isSpace).reverse = cs := by
  have hfront : ∀ {ds : List Char}, (∀ c ∈ ds, isSpace c = false) → ds.dropWhile isSpace = ds := by
    intro ds hds
    cases ds with
    | nil => rfl
    | cons c ds => exact List.dropWhile_cons_of_neg (by simp [hds c List.mem_cons_self])
  rw [hfront h, hfront fun c hc => h c (List.mem_reverse.mp hc), List.reverse_reverse]

theorem ofList_at (l d : List Char) :
    String.ofList l ++ "@" ++ String.ofList d = String.ofList (l ++ '@' :: d) := by
  apply String.toList_injective
  simp

theorem normalizeEmail_ofList (hat : '@' ∉ l) (hl : ∀ c ∈ l, isSpace c = false)
    (hd : ∀ c ∈ d, isSpace c = false) :
    normalizeEmail (String.ofList (l ++ '@' :: d)) =
      String.ofList (kept (String.ofList (d.map Char.toLower)) (l.map Char.toLower) ++
        '@' :: d.map Char.toLower) := by
  have htext : ∀ c ∈ l ++ '@' :: d, isSpace c = false :=
    List.forall_mem_append.mpr ⟨hl, List.forall_mem_cons.mpr ⟨by decide, hd⟩⟩
  have hfold : (l ++ '@' :: d).map Char.toLower =
      l.map Char.toLower ++ '@' :: d.map Char.toLower := by
    rw [List.map_append, List.map_cons]
    rfl
  have hcut := cutFirst_ofList (mt (mem_map_toLower_iff (by decide)).mp hat) (d.map Char.toLower)
  unfold normalizeEmail
  simp only [String.toList_ofList, trimmed_eq_self htext, hfold, hcut]
  by_cases hfolds : FoldsAliases (String.ofList (d.map Char.toLower))
  · rw [kept, if_pos hfolds, if_pos hfolds, ofList_at, mailbox]
  · rw [kept, if_neg hfolds, if_neg hfolds, ofList_at]

/-! ### Characters of an address -/

def localClass (b : UInt8) : Bool := isAlnum b || oneOf ".!#$%&'*+/=?^_`\x7b|\x7d~-" b

def labelClass (b : UInt8) : Bool := isAlnum b || oneOf "-" b

/-- A character of a local part. -/
def IsLocal (c : Char) : Prop := c.toNat < 128 ∧ localClass (asciiByte c) = true

def emailDomain : Regex UInt8 :=
  .seq emailLabel (.star (.seq (literal (bytes ".")) emailLabel))

def IsDomain (d : List Char) : Prop :=
  (∀ c ∈ d, c.toNat < 128) ∧ d.map asciiByte ∈ emailDomain.language

structure IsAddress (l d : List Char) : Prop where
  ne_nil : l ≠ []
  localPart : ∀ c ∈ l, IsLocal c
  domain : IsDomain d

def foldByte (b : UInt8) : UInt8 := asciiByte (asciiChar b).toLower

theorem forall_byte {P : UInt8 → Prop} (h : ∀ n < 256, P (UInt8.ofNat n)) (b : UInt8) : P b := by
  have hb := h b.toNat b.toNat_lt
  rwa [UInt8.ofNat_toNat] at hb

/-- The classes of an address under folding, looked up for every character at once. -/
theorem class_table :
    (∀ n < 128, localClass (asciiByte (Char.ofNat n)) = true →
      isSpace (Char.ofNat n) = false ∧ Char.ofNat n ≠ '@' ∧
        localClass (asciiByte (Char.ofNat n).toLower) = true) ∧
    (∀ n < 128, (Char.ofNat n).toLower.toNat < 128) ∧
    (∀ n < 256, localClass (UInt8.ofNat n) = true → (UInt8.ofNat n).toNat < 128) ∧
    (∀ n < 256, (labelClass (UInt8.ofNat n) || UInt8.ofNat n = 46) = true →
      (UInt8.ofNat n).toNat < 128 ∧ isSpace (asciiChar (UInt8.ofNat n)) = false) ∧
    (∀ n < 256, isAlnum (UInt8.ofNat n) = true → isAlnum (foldByte (UInt8.ofNat n)) = true) ∧
    (∀ n < 256, labelClass (UInt8.ofNat n) = true →
      labelClass (foldByte (UInt8.ofNat n)) = true) ∧
    foldByte 46 = 46 := by
  decide +kernel

theorem toNat_toLower_lt {c : Char} (hc : c.toNat < 128) : c.toLower.toNat < 128 :=
  forall_ascii (P := fun c => c.toLower.toNat < 128) class_table.2.1 hc

/-- What one character of a local part is like, before and after folding. -/
theorem localChar_spec {c : Char} (hc : IsLocal c) :
    isSpace c = false ∧ c ≠ '@' ∧ IsLocal c.toLower := by
  have hspec := forall_ascii (P := fun c => localClass (asciiByte c) = true →
    isSpace c = false ∧ c ≠ '@' ∧ localClass (asciiByte c.toLower) = true) class_table.1 hc.1 hc.2
  exact ⟨hspec.1, hspec.2.1, toNat_toLower_lt hc.1, hspec.2.2⟩

theorem lt_of_localClass (b : UInt8) : localClass b = true → b.toNat < 128 :=
  forall_byte (P := fun b => localClass b = true → b.toNat < 128) class_table.2.2.1 b

theorem domainByte_spec (b : UInt8) : (labelClass b || b = 46) = true →
    b.toNat < 128 ∧ isSpace (asciiChar b) = false :=
  forall_byte (P := fun b => (labelClass b || b = 46) = true →
    b.toNat < 128 ∧ isSpace (asciiChar b) = false) class_table.2.2.2.1 b

theorem isAlnum_foldByte (b : UInt8) : isAlnum b = true → isAlnum (foldByte b) = true :=
  forall_byte (P := fun b => isAlnum b = true → isAlnum (foldByte b) = true)
    class_table.2.2.2.2.1 b

theorem labelClass_foldByte (b : UInt8) : labelClass b = true → labelClass (foldByte b) = true :=
  forall_byte (P := fun b => labelClass b = true → labelClass (foldByte b) = true)
    class_table.2.2.2.2.2.1 b

/-! ### The pattern -/

section Domain

variable {P : (UInt8 → Bool) → Prop}

theorem allClasses_emailLabel (halnum : P isAlnum) (hlabel : P labelClass) :
    emailLabel.AllClasses P :=
  ⟨halnum, allClasses_opt ⟨allClasses_upTo (r := .sat labelClass) hlabel 61, halnum⟩⟩

theorem allClasses_emailDomain (halnum : P isAlnum) (hlabel : P labelClass)
    (hdot : P fun b => b = 46) : emailDomain.AllClasses P := by
  have hdots : ∀ c ∈ bytes ".", P fun b => b = c := by
    intro c hc
    have hbytes : bytes "." = [46] := by decide
    rw [hbytes, List.mem_singleton] at hc
    exact hc ▸ hdot
  have hemail := allClasses_emailLabel halnum hlabel
  exact ⟨hemail, allClasses_literal hdots, hemail⟩

end Domain

theorem ascii_of_mem_emailDomain {w : List UInt8} (hw : w ∈ emailDomain.language) :
    ∀ b ∈ w, b.toNat < 128 ∧ isSpace (asciiChar b) = false := by
  refine of_mem_of_mem_language (allClasses_emailDomain ?_ ?_ ?_) hw
  · intro b hb
    exact domainByte_spec b (by simp [labelClass, hb])
  · intro b hb
    exact domainByte_spec b (by simp [hb])
  · intro b hb
    exact domainByte_spec b (by simp [of_decide_eq_true hb])

theorem fold_mem_emailDomain {w : List UInt8} (hw : w ∈ emailDomain.language) :
    w.map foldByte ∈ emailDomain.language := by
  refine map_mem_language (allClasses_emailDomain isAlnum_foldByte labelClass_foldByte ?_) hw
  intro b hb
  rw [of_decide_eq_true hb, class_table.2.2.2.2.2.2]
  rfl

theorem mem_emailPattern_iff {w : List UInt8} :
    w ∈ EMAIL_PATTERN.language ↔
      ∃ a b, a ≠ [] ∧ (∀ x ∈ a, localClass x = true) ∧ b ∈ emailDomain.language ∧
        w = a ++ 64 :: b := by
  have hat : bytes "@" = [64] := by decide
  have hpattern : EMAIL_PATTERN =
      .seq (plus (.sat localClass)) (.seq (literal (bytes "@")) emailDomain) := rfl
  rw [hpattern, mem_seq_iff]
  constructor
  · rintro ⟨a, ha, tail, htail, rfl⟩
    obtain ⟨sep, hsep, b, hb, rfl⟩ := mem_seq_iff.mp htail
    rw [mem_literal_iff, hat] at hsep
    rw [mem_plus_sat_iff] at ha
    subst hsep
    exact ⟨a, b, ha.1, ha.2, hb, rfl⟩
  · rintro ⟨a, b, hne, ha, hb, rfl⟩
    refine ⟨a, mem_plus_sat_iff.mpr ⟨hne, ha⟩, 64 :: b, ?_, rfl⟩
    exact mem_seq_iff.mpr ⟨[64], mem_literal_iff.mpr hat.symm, b, hb, rfl⟩

/-! ### Addresses -/

theorem notMem_at (h : IsAddress l d) : '@' ∉ l := by
  intro hat
  exact (localChar_spec (h.localPart '@' hat)).2.1 rfl

theorem isSpace_of_isDomain (h : IsDomain d) (hc : c ∈ d) : isSpace c = false := by
  have hbyte := ascii_of_mem_emailDomain h.2 (asciiByte c) (List.mem_map_of_mem hc)
  rw [asciiByte, asciiChar_ofNat_toNat (h.1 c hc)] at hbyte
  exact hbyte.2

theorem isDomain_map_toLower (h : IsDomain d) : IsDomain (d.map Char.toLower) := by
  have hfold : (d.map Char.toLower).map asciiByte = (d.map asciiByte).map foldByte := by
    rw [List.map_map, List.map_map]
    refine List.map_congr_left ?_
    intro c hc
    have hback : asciiChar (asciiByte c) = c := asciiChar_ofNat_toNat (h.1 c hc)
    rw [Function.comp_apply, Function.comp_apply, foldByte, hback]
  refine ⟨?_, hfold ▸ fold_mem_emailDomain h.2⟩
  intro c hc
  obtain ⟨c', hc', rfl⟩ := List.mem_map.mp hc
  exact toNat_toLower_lt (h.1 c' hc')

theorem exists_isAddress (he : Accepted e) :
    ∃ l d, e = String.ofList (l ++ '@' :: d) ∧ IsAddress l d := by
  obtain ⟨a, b, hne, ha, hb, heq⟩ := mem_emailPattern_iff.mp (accepts_iff.mp he)
  have hlocal : ∀ x ∈ a, x.toNat < 128 := fun x hx => lt_of_localClass x (ha x hx)
  have hdomain : ∀ x ∈ b, x.toNat < 128 := fun x hx => (ascii_of_mem_emailDomain hb x hx).1
  have htext : e.toList = (a ++ 64 :: b).map asciiChar := by
    refine eq_map_asciiChar heq (List.forall_mem_append.mpr ⟨hlocal, ?_⟩)
    exact List.forall_mem_cons.mpr ⟨by decide, hdomain⟩
  refine ⟨a.map asciiChar, b.map asciiChar, ?_, ?_⟩
  · apply String.toList_injective
    rw [htext, String.toList_ofList, List.map_append, List.map_cons]
    rfl
  · refine ⟨by simpa using hne, ?_, ?_, ?_⟩
    · intro c hc
      obtain ⟨x, hx, rfl⟩ := List.mem_map.mp hc
      refine ⟨?_, ?_⟩
      · rw [toNat_asciiChar (hlocal x hx)]
        exact hlocal x hx
      · rw [asciiByte_asciiChar (hlocal x hx)]
        exact ha x hx
    · intro c hc
      obtain ⟨x, hx, rfl⟩ := List.mem_map.mp hc
      rw [toNat_asciiChar (hdomain x hx)]
      exact hdomain x hx
    · rw [map_asciiByte_map_asciiChar hdomain]
      exact hb

theorem accepted_of_isAddress (h : IsAddress l d) : Accepted (String.ofList (l ++ '@' :: d)) := by
  have hascii : ∀ c ∈ l ++ '@' :: d, c.toNat < 128 := by
    refine List.forall_mem_append.mpr ⟨fun c hc => (h.localPart c hc).1, ?_⟩
    exact List.forall_mem_cons.mpr ⟨by decide, h.domain.1⟩
  refine accepts_iff.mpr (mem_emailPattern_iff.mpr ?_)
  refine ⟨l.map asciiByte, d.map asciiByte, by simpa using h.ne_nil, ?_, h.domain.2, ?_⟩
  · intro x hx
    obtain ⟨c, hc, rfl⟩ := List.mem_map.mp hx
    exact (h.localPart c hc).2
  · rw [bytes, String.toList_ofList, flatMap_of_ascii hascii, List.map_append, List.map_cons]
    rfl

/-! ### Normalised addresses -/

theorem normalizeEmail_of_isAddress (h : IsAddress l d) :
    normalizeEmail (String.ofList (l ++ '@' :: d)) =
      String.ofList ((kept (String.ofList (d.map Char.toLower)) l).map Char.toLower ++
        '@' :: d.map Char.toLower) := by
  rw [normalizeEmail_ofList (notMem_at h) (fun c hc => (localChar_spec (h.localPart c hc)).1)
    fun c hc => isSpace_of_isDomain h.domain hc, kept_map_toLower]

theorem isLocal_of_mem_kept {domain : String} (h : IsAddress l d)
    (hc : c ∈ (kept domain l).map Char.toLower) : IsLocal c := by
  obtain ⟨c', hc', rfl⟩ := List.mem_map.mp hc
  exact (localChar_spec (h.localPart c' (mem_of_mem_kept hc'))).2.2

/-- As long as something is kept of the local part, the normalised address is one again. -/
theorem isAddress_kept {domain : String} (h : IsAddress l d) (hne : kept domain l ≠ []) :
    IsAddress ((kept domain l).map Char.toLower) (d.map Char.toLower) where
  ne_nil := by simpa using hne
  localPart _ hc := isLocal_of_mem_kept h hc
  domain := isDomain_map_toLower h.domain

theorem not_accepted_of_nil (d : List Char) : ¬Accepted (String.ofList ('@' :: d)) := by
  intro he
  obtain ⟨l, d', htext, h⟩ := exists_isAddress he
  obtain ⟨c, l, rfl⟩ := List.exists_cons_of_ne_nil h.ne_nil
  obtain ⟨rfl, -⟩ := List.cons.inj (String.ofList_injective htext)
  exact notMem_at h List.mem_cons_self

theorem accepted_normalizeEmail_iff (he : Accepted e) :
    Accepted (normalizeEmail e) ↔ ¬(FoldsAliases (domain e) ∧ OnlyDots (localPart e)) := by
  obtain ⟨l, d, rfl, h⟩ := exists_isAddress he
  rw [domain_ofList (notMem_at h), localPart_ofList (notMem_at h), ← kept_eq_nil_iff h.ne_nil,
    normalizeEmail_of_isAddress h]
  constructor
  · intro haccepted hnil
    rw [hnil] at haccepted
    exact not_accepted_of_nil _ haccepted
  · intro hne
    exact accepted_of_isAddress (isAddress_kept h hne)

theorem normalizeEmail_normalizeEmail (he : Accepted e) :
    normalizeEmail (normalizeEmail e) = normalizeEmail e := by
  obtain ⟨l, d, rfl, h⟩ := exists_isAddress he
  rw [normalizeEmail_of_isAddress h]
  generalize hdomain : String.ofList (d.map Char.toLower) = domain
  have hspec : ∀ c ∈ (kept domain l).map Char.toLower, isSpace c = false ∧ c ≠ '@' :=
    fun c hc => ⟨(localChar_spec (isLocal_of_mem_kept h hc)).1,
      (localChar_spec (isLocal_of_mem_kept h hc)).2.1⟩
  have hspace : ∀ c ∈ d.map Char.toLower, isSpace c = false :=
    fun c hc => isSpace_of_isDomain (isDomain_map_toLower h.domain) hc
  rw [normalizeEmail_ofList (fun hat => (hspec '@' hat).2 rfl) (fun c hc => (hspec c hc).1) hspace,
    map_toLower_map_toLower, map_toLower_map_toLower, hdomain, kept_map_toLower, kept_kept]

theorem normalizeEmail_eq_iff {f : String} (he : Accepted e) (hf : Accepted f)
    (hdomain : domain e = domain f) (hfolds : FoldsAliases (domain f)) :
    normalizeEmail e = normalizeEmail f ↔
      mailbox ((localPart e).map Char.toLower) = mailbox ((localPart f).map Char.toLower) := by
  obtain ⟨l, d, rfl, h⟩ := exists_isAddress he
  obtain ⟨l', d', rfl, h'⟩ := exists_isAddress hf
  rw [domain_ofList (notMem_at h), domain_ofList (notMem_at h')] at hdomain
  rw [domain_ofList (notMem_at h')] at hfolds
  rw [localPart_ofList (notMem_at h), localPart_ofList (notMem_at h'),
    normalizeEmail_of_isAddress h, normalizeEmail_of_isAddress h', hdomain,
    String.ofList_injective hdomain, mailbox_map_toLower, mailbox_map_toLower, kept, kept,
    if_pos hfolds, if_pos hfolds]
  constructor
  · intro heq
    exact List.append_cancel_right (String.ofList_injective heq)
  · intro heq
    rw [heq]

/-- Normalised, an accepted address is accepted, and the second time nothing changes, unless it is
at Gmail with at most dots before its first plus sign. Two addresses at `gmail.com` become the same
exactly if their mailboxes are. -/
theorem normalized_addresses (he : Accepted e) :
    (Accepted (normalizeEmail e) ∧ normalizeEmail (normalizeEmail e) = normalizeEmail e ↔
      ¬(FoldsAliases (domain e) ∧ OnlyDots (localPart e))) ∧
    ∀ f, Accepted f → domain e = "gmail.com" → domain f = "gmail.com" →
      (normalizeEmail e = normalizeEmail f ↔
        mailbox ((localPart e).map Char.toLower) = mailbox ((localPart f).map Char.toLower)) := by
  constructor
  · rw [accepted_normalizeEmail_iff he]
    exact and_iff_left (normalizeEmail_normalizeEmail he)
  · intro f hf hdomain hdomain'
    exact normalizeEmail_eq_iff he hf (hdomain.trans hdomain'.symm) (.inl hdomain')

theorem normalized_addresses_tagged :
    Accepted (normalizeEmail "A.b+c@Gmail.com") ∧
      (normalizeEmail "A.b+c@Gmail.com" = normalizeEmail "ab@gmail.com" ↔
        mailbox ((localPart "A.b+c@Gmail.com").map Char.toLower) =
          mailbox ((localPart "ab@gmail.com").map Char.toLower)) := by
  obtain ⟨htagged, hplain, hdomain, hdomain', hmem⟩ :
      Accepted "A.b+c@Gmail.com" ∧ Accepted "ab@gmail.com" ∧
        domain "A.b+c@Gmail.com" = "gmail.com" ∧ domain "ab@gmail.com" = "gmail.com" ∧
        'A' ∈ (localPart "A.b+c@Gmail.com").takeWhile (· ≠ '+') := by
    decide +kernel
  have h := normalized_addresses htagged
  refine ⟨(h.1.mpr ?_).1, h.2 "ab@gmail.com" hplain hdomain hdomain'⟩
  rintro ⟨-, hdots⟩
  exact absurd (hdots 'A' hmem) (by decide)

theorem tag_only_rejected :
    Accepted "+tag@gmail.com" ∧ ¬Accepted (normalizeEmail "+tag@gmail.com") := by
  decide +kernel

end AuthForge.EmailAddresses
