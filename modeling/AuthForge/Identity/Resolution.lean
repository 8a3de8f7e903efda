import Mathlib.Data.List.TakeWhile
import AuthForge.Identity.Users

/-!
# From a subject to a user, in two ways

`StorageSubjectResolver::resolve`, which serves the consents and the admin roles of the scope
engine, parses a provider off the subject and looks the rest up in the subject mappings.
`PostgresIdentityRepository::getRoles`, which serves the roles in tokens, reads a number as the
internal id and anything else as a public subject. On the internal id and the public subject of a
live user the second always finds the user, the first only where the mappings have a row.
-/

namespace AuthForge

/-! ### Decimal numerals read back -/

theorem digitsValue_natToString (n : Nat) : digitsValue (toString n).toList = n := by
  rw [Nat.toString_eq_repr, Nat.toList_repr]
  exact Nat.ofDigitChars_ten_toDigits

theorem natToString_ne_nil (n : Nat) : (toString n).toList ≠ [] := by
  rw [Nat.toString_eq_repr, Nat.toList_repr]
  exact Nat.toDigits_ne_nil

theorem takeWhile_natToString (n : Nat) :
    (toString n).toList.takeWhile Char.isDigit = (toString n).toList :=
  List.takeWhile_eq_self_iff.mpr fun _ hc => isDigit_of_mem_natToString hc

theorem dropWhile_natToString (n : Nat) : (toString n).toList.dropWhile Char.isDigit = [] :=
  List.dropWhile_eq_nil_iff.mpr fun _ hc => isDigit_of_mem_natToString hc

theorem isSpace_eq_false {c : Char} (h : '\r' < c) (hne : c ≠ ' ') : isSpace c = false := by
  simp [isSpace, hne, not_le.mpr h]

/-- Without blanks and a sign in front the digits are read from the first character on. -/
theorem leadingInt_of_head {s : String} {c : Char} {cs : List Char} (hs : s.toList = c :: cs)
    (hspace : isSpace c = false) (hminus : c ≠ '-') (hplus : c ≠ '+') :
    leadingInt s = if (c :: cs).takeWhile Char.isDigit = [] then none
      else some ((digitsValue ((c :: cs).takeWhile Char.isDigit) : Int),
        (c :: cs).dropWhile Char.isDigit) := by
  unfold leadingInt
  rw [hs, List.dropWhile_cons_of_neg (Bool.eq_false_iff.mp hspace)]
  dsimp only
  split
  · rename_i heq
    exact absurd (List.cons.inj heq).1 hminus
  · rename_i heq
    exact absurd (List.cons.inj heq).1 hplus
  · rw [one_mul]

theorem leadingInt_natToString (n : Nat) : leadingInt (toString n) = some ((n : Int), []) := by
  obtain ⟨c, cs, hcs⟩ := List.exists_cons_of_ne_nil (natToString_ne_nil n)
  have hdigit : c.isDigit = true :=
    isDigit_of_mem_natToString (n := n) (by rw [hcs]; exact List.mem_cons_self)
  have hne : ∀ d : Char, d.isDigit = false → c ≠ d := by
    intro d hd heq
    rw [heq, hd] at hdigit
    cases hdigit
  have hlt : '\r' < c := by
    simp only [Char.isDigit, Bool.and_eq_true, decide_eq_true_eq] at hdigit
    exact lt_of_lt_of_le (show ('\r' : Char).val < 48 by decide) hdigit.1
  rw [leadingInt_of_head hcs (isSpace_eq_false hlt (hne ' ' rfl)) (hne '-' rfl) (hne '+' rfl),
    ← hcs, takeWhile_natToString, dropWhile_natToString, if_neg (natToString_ne_nil n),
    digitsValue_natToString]

/-- A decimal numeral is read back, and nothing of it is left over. -/
theorem leadingInt_toString (n : Int) : leadingInt (toString n) = some (n, []) := by
  rcases intToString_cases n with ⟨m, rfl, hm⟩ | ⟨m, rfl, hm⟩
  · rw [hm]
    exact leadingInt_natToString m
  · unfold leadingInt
    rw [hm, List.dropWhile_cons_of_neg (show ¬isSpace '-' = true by decide)]
    change (if (toString (m + 1)).toList.takeWhile Char.isDigit = [] then none else
      some (-1 * (digitsValue ((toString (m + 1)).toList.takeWhile Char.isDigit) : Int),
        (toString (m + 1)).toList.dropWhile Char.isDigit)) = _
    rw [takeWhile_natToString, dropWhile_natToString, if_neg (natToString_ne_nil _),
      digitsValue_natToString, Int.neg_one_mul]

namespace Identity

/-! ### The tables -/

inductive ResolutionStatement
  | findMapping
  | findLive
  | findBySubject
  | findUserRoles
  | findRoles
  deriving DecidableEq

/-- The tables that the two ways read. The ids of users are 32-bit integers in the database. -/
structure IdentityTables where
  users : Profiles
  userRoles : List (Int × Int)
  roles : Dict Int String
  mappings : Dict (String × String) Int
  ids_int : ∀ e ∈ users.table.entries, -2 ^ 31 ≤ e.1 ∧ e.1 < 2 ^ 31

/-- `std::stoi` of the whole string; an exception or a character left over is `none`. -/
def stoiWhole (s : String) : Option Int :=
  match leadingInt s with
  | some (n, []) => if -2 ^ 31 ≤ n ∧ n < 2 ^ 31 then some n else none
  | _ => none

namespace IdentityTables

variable (t : IdentityTables) (fails : ResolutionStatement → Bool)

def isLive (internalId : Int) : Bool := (t.users.table.lookup internalId).any fun p => !p.deleted

/-- The mapping may outlive its user, so the user is looked up as well. -/
def getInternalUserId (subject provider : String) : Option Int :=
  match if fails .findMapping then none else t.mappings.lookup (provider, subject) with
  | none => none
  | some internalId =>
    if !fails .findLive && t.isLive internalId then some internalId else none

/-- `StorageSubjectResolver::resolve`. -/
def resolve (subject : String) : Option Int :=
  let (provider, sub) := SubjectGenerator.parse subject
  t.getInternalUserId fails sub provider

def roleIds (internalUserId : Int) : List Int :=
  (t.userRoles.filter fun r => r.1 = internalUserId).map Prod.snd

def getRoles (internalUserId : Int) : List String :=
  if fails .findUserRoles then []
  else if t.roleIds internalUserId = [] then []
  else if fails .findRoles then []
  else (t.roles.entries.filter fun e => e.1 ∈ t.roleIds internalUserId).map Sigma.snd

/-- The row that `findOne` returns: the only live one with this public subject. -/
def findBySubject (publicSub : String) : Option Int :=
  match t.users.table.entries.filter fun e => e.2.publicSub = publicSub && !e.2.deleted with
  | [e] => some e.1
  | _ => none

/-- `getRoles` for a subject. -/
def getRolesOfSubject (subject : String) : List String :=
  match stoiWhole subject with
  | some numericId => t.getRoles fails numericId
  | none =>
    match if fails .findBySubject then none else t.findBySubject subject with
    | none => []
    | some id => t.getRoles fails id

end IdentityTables

/-- Where no statement fails, the resolver is the directory's. -/
theorem IdentityTables.resolve_eq_directory (t : IdentityTables) (subject : String) :
    t.resolve (fun _ => false) subject =
      Directory.getInternalUserId ⟨t.users, t.mappings⟩ subject := by
  unfold resolve getInternalUserId Directory.getInternalUserId isLive
  simp only [Bool.false_eq_true, if_false, Bool.not_false, Bool.true_and]
  cases t.mappings.lookup (SubjectGenerator.parse subject) with
  | none => rfl
  | some internalId =>
    simp only
    cases t.users.table.lookup internalId with
    | none => rfl
    | some p => cases hdeleted : p.deleted <;> simp [hdeleted]

/-! ### Subjects of a live user -/

theorem chars_of_isUuid {s : String} (h : isUuid s = true) {c : Char} (hc : c ∈ s.toList) :
    c = '-' ∨ c.isDigit = true ∨ 'a' ≤ c ∧ c ≤ 'f' := by
  simp only [isUuid, Bool.and_eq_true, decide_eq_true_eq, List.all_eq_true] at h
  obtain ⟨i, hi, rfl⟩ := List.mem_iff_getElem.mp hc
  have hmem : (s.toList[i], i) ∈ s.toList.zipIdx := by
    rw [List.mem_zipIdx_iff_getElem?]
    exact List.getElem?_eq_getElem hi
  have hchar := h.2 _ hmem
  dsimp only at hchar
  split at hchar
  · exact .inl (by simpa using hchar)
  · exact .inr (by simpa using hchar)

theorem head_of_isUuid {s : String} (h : isUuid s = true) :
    ∃ c cs, s.toList = c :: cs ∧ (c.isDigit = true ∨ 'a' ≤ c ∧ c ≤ 'f') ∧ '-' ∈ cs := by
  have hdash := getElem_of_isUuid h
  cases hs : s.toList with
  | nil => simp [hs] at hdash
  | cons c cs =>
    refine ⟨c, cs, rfl, ?_, ?_⟩
    · simp only [isUuid, hs, List.zipIdx_cons, List.all_cons, Bool.and_eq_true] at h
      simpa using h.2.1
    · rw [hs, List.getElem?_cons_succ] at hdash
      exact List.mem_of_getElem? hdash

/-- A UUID is no number: its first character is no sign, and a dash is left over. -/
theorem stoiWhole_of_isUuid {s : String} (h : isUuid s = true) : stoiWhole s = none := by
  obtain ⟨c, cs, hs, hhead, hdash⟩ := head_of_isUuid h
  have hlow : '-' < c := by
    rcases hhead with hdigit | ⟨hlower, -⟩
    · simp only [Char.isDigit, Bool.and_eq_true, decide_eq_true_eq] at hdigit
      exact lt_of_lt_of_le (show ('-' : Char).val < 48 by decide) hdigit.1
    · exact lt_of_lt_of_le (by decide) hlower
  have hspace : isSpace c = false :=
    isSpace_eq_false (lt_trans (by decide) hlow) (ne_of_gt (lt_trans (by decide) hlow))
  have hrest : (c :: cs).dropWhile Char.isDigit ≠ [] := by
    intro hnil
    have hdigit := List.dropWhile_eq_nil_iff.mp hnil '-' (List.mem_cons_of_mem _ hdash)
    cases hdigit
  unfold stoiWhole
  rw [leadingInt_of_head hs hspace (ne_of_gt hlow) (ne_of_gt (lt_trans (by decide) hlow))]
  cases hleft : (c :: cs).dropWhile Char.isDigit with
  | nil => exact absurd hleft hrest
  | cons d ds =>
    split
    · rename_i n heq
      split at heq
      · cases heq
      · cases heq
    · rfl

theorem stoiWhole_toString {n : Int} (hn : -2 ^ 31 ≤ n ∧ n < 2 ^ 31) :
    stoiWhole (toString n) = some n := by
  unfold stoiWhole
  rw [leadingInt_toString]
  exact if_pos hn

theorem parse_of_not_mem {s : String} (h : ':' ∉ s.toList) :
    SubjectGenerator.parse s = ("local", s) := by
  rw [SubjectGenerator.parse, cutFirst, if_neg h]

theorem parse_of_isUuid {s : String} (h : isUuid s = true) :
    SubjectGenerator.parse s = ("local", s) := by
  refine parse_of_not_mem ?_
  intro hcolon
  rcases chars_of_isUuid h hcolon with heq | heq | heq
  · cases heq
  · cases heq
  · exact absurd heq.1 (by decide)

theorem parse_toString (n : Int) : SubjectGenerator.parse (toString n) = ("local", toString n) := by
  refine parse_of_not_mem ?_
  intro hcolon
  rcases intToString_cases n with ⟨m, -, hm⟩ | ⟨m, -, hm⟩
  · rw [hm] at hcolon
    cases isDigit_of_mem_natToString hcolon
  · rw [hm] at hcolon
    rcases List.mem_cons.mp hcolon with heq | hdigits
    · cases heq
    · cases isDigit_of_mem_natToString hdigits

namespace IdentityTables

variable {t : IdentityTables} {fails : ResolutionStatement → Bool} {id : Int} {p : Profile}
  {sub : String}

/-- A user that is not deleted, and one of the two subjects of the user's codes and tokens. -/
structure Issued (t : IdentityTables) (id : Int) (sub : String) : Prop where
  live : ∃ p, t.users.table.lookup id = some p ∧ p.deleted = false ∧
    (sub = toString id ∨ sub = p.publicSub)

theorem Issued.parse (h : t.Issued id sub) : SubjectGenerator.parse sub = ("local", sub) := by
  obtain ⟨p, hlookup, -, rfl | rfl⟩ := h.live
  · exact parse_toString id
  · have huuid : isUuid p.publicSub = true :=
      t.users.publicSubs_uuid ⟨id, p⟩ (AList.mem_lookup_iff.mp hlookup)
    exact parse_of_isUuid huuid

theorem Issued.isLive (h : t.Issued id sub) : t.isLive id = true := by
  obtain ⟨p, hlookup, hdeleted, -⟩ := h.live
  simp [IdentityTables.isLive, hlookup, hdeleted]

/-- The resolver finds the user exactly where the mappings have the row and both lookups succeed. -/
theorem resolve_iff (h : t.Issued id sub) : t.resolve fails sub = some id ↔
    t.mappings.lookup ("local", sub) = some id ∧ fails .findMapping = false ∧
      fails .findLive = false := by
  unfold resolve
  rw [h.parse]
  unfold getInternalUserId
  cases hmapping : fails .findMapping with
  | true => simp
  | false =>
    simp only [Bool.false_eq_true, if_false, true_and]
    cases t.mappings.lookup ("local", sub) with
    | none => simp
    | some internalId =>
      simp only [Option.some.injEq]
      constructor
      · intro heq
        split at heq
        · rename_i hfound
          simp only [Bool.and_eq_true, Bool.not_eq_true'] at hfound
          exact ⟨Option.some.inj heq, hfound.1⟩
        · cases heq
      · intro hfound
        obtain ⟨rfl, hlive⟩ := hfound
        rw [hlive, h.isLive]
        rfl

/-- The public subject of a live user is found: no other row has it. -/
theorem findBySubject_publicSub (hlookup : t.users.table.lookup id = some p)
    (hdeleted : p.deleted = false) : t.findBySubject p.publicSub = some id := by
  have hmem : ⟨id, p⟩ ∈ t.users.table.entries.filter
      fun e => e.2.publicSub = p.publicSub && !e.2.deleted := by
    rw [List.mem_filter]
    exact ⟨AList.mem_lookup_iff.mp hlookup, by simp [hdeleted]⟩
  have hnodup : ((t.users.table.entries.filter
      fun e => e.2.publicSub = p.publicSub && !e.2.deleted).map fun e => e.2.publicSub).Nodup :=
    t.users.publicSubs_nodup.sublist (List.filter_sublist.map _)
  have hsame : ∀ e ∈ t.users.table.entries.filter
      fun e => e.2.publicSub = p.publicSub && !e.2.deleted, e.2.publicSub = p.publicSub := by
    intro e he
    have hboth := (List.mem_filter.mp he).2
    simp only [Bool.and_eq_true, decide_eq_true_eq] at hboth
    exact hboth.1
  unfold findBySubject
  generalize t.users.table.entries.filter
    (fun e => e.2.publicSub = p.publicSub && !e.2.deleted) = found at hmem hnodup hsame ⊢
  match found with
  | [] => cases hmem
  | [e] =>
    obtain rfl := List.mem_singleton.mp hmem
    rfl
  | e :: e' :: _ =>
    have hfirst := hsame e List.mem_cons_self
    have hsecond := hsame e' (List.mem_cons_of_mem _ List.mem_cons_self)
    simp [hfirst, hsecond] at hnodup

theorem getRolesOfSubject_toString (hlookup : t.users.table.lookup id = some p) :
    t.getRolesOfSubject fails (toString id) = t.getRoles fails id := by
  unfold getRolesOfSubject
  rw [stoiWhole_toString (t.ids_int _ (AList.mem_lookup_iff.mp hlookup))]

theorem getRolesOfSubject_publicSub (hlookup : t.users.table.lookup id = some p)
    (hdeleted : p.deleted = false) : t.getRolesOfSubject fails p.publicSub =
      if fails .findBySubject then [] else t.getRoles fails id := by
  unfold getRolesOfSubject
  rw [stoiWhole_of_isUuid (t.users.publicSubs_uuid _ (AList.mem_lookup_iff.mp hlookup)),
    findBySubject_publicSub hlookup hdeleted]
  cases fails .findBySubject with
  | true => rfl
  | false => rfl

/-- The user has a role, and the statements that read it succeed. -/
def readsRole (t : IdentityTables) (fails : ResolutionStatement → Bool) (id : Int) : Bool :=
  !fails .findUserRoles && !fails .findRoles && (t.roleIds id).any fun roleId => roleId ∈ t.roles

theorem getRoles_eq_nil_iff : t.getRoles fails id = [] ↔ t.readsRole fails id = false := by
  have hroles : (t.roles.entries.filter fun e => e.1 ∈ t.roleIds id) = [] ↔
      (t.roleIds id).any (fun roleId => roleId ∈ t.roles) = false := by
    rw [List.filter_eq_nil_iff, List.any_eq_false]
    constructor
    · intro h roleId hmem hrole
      obtain ⟨name, hlookup⟩ := Option.isSome_iff_exists.mp
        (AList.lookup_isSome.mpr (of_decide_eq_true hrole))
      exact h ⟨roleId, name⟩ (AList.mem_lookup_iff.mp hlookup) (decide_eq_true hmem)
    · intro h e he hmem
      refine h e.1 (of_decide_eq_true hmem) (decide_eq_true ?_)
      exact AList.lookup_isSome.mp (by rw [AList.mem_lookup_iff.mpr he]; rfl)
  unfold getRoles readsRole
  cases fails .findUserRoles with
  | true => simp
  | false =>
    cases fails .findRoles with
    | true => simp
    | false =>
      simp only [Bool.false_eq_true, if_false, Bool.not_false, Bool.true_and]
      split
      · rename_i hnil
        simp [hnil]
      · rw [List.map_eq_nil_iff]
        exact hroles

end IdentityTables

end Identity

end AuthForge
