import AuthForge.Admin.UserListing

/-!
# Searching users

The search text stands for itself in the pattern unless it has a backslash: that one is not escaped,
and escapes what follows it. The filters for locked and unlocked users compare with the current
second from both sides, so a row that has no lock time, or just this one, is in neither list.
-/

namespace AuthForge.UserSearch

open Admin Like

/-! ### The pattern -/

def escapedChars (cs : List Char) : List Char :=
  cs.flatMap fun c => if c = '%' ∨ c = '_' then ['\\', c] else [c]

theorem map_toLower_escapedChars (cs : List Char) :
    (escapedChars cs).map Char.toLower = escapedChars (cs.map Char.toLower) := by
  induction cs with
  | nil => rfl
  | cons c cs ih =>
    have hspecial : (c.toLower = '%' ∨ c.toLower = '_') ↔ (c = '%' ∨ c = '_') :=
      or_congr (toLower_eq_iff (by decide)) (toLower_eq_iff (by decide))
    simp only [escapedChars, List.flatMap_cons, List.map_append, List.map_cons] at ih ⊢
    rw [ih]
    by_cases hc : c = '%' ∨ c = '_'
    · rw [if_pos hc, if_pos (hspecial.mpr hc)]
      rfl
    · rw [if_neg hc, if_neg (mt hspecial.mp hc)]
      rfl

theorem toList_pattern (q : String) :
    (asciiToLower (escaped q) ++ "%").toList =
      escapedChars (q.toList.map Char.toLower) ++ ['%'] := by
  rw [String.toList_append, asciiToLower, escaped, String.toList_ofList, String.toList_ofList,
    ← map_toLower_escapedChars]
  rfl

theorem prefixAtoms_cons {c : Char} (hc : c ≠ '\\') (cs : List Char) :
    prefixAtoms (c :: cs) = atomOf c :: prefixAtoms cs := by
  rw [prefixAtoms.eq_def]
  exact if_neg hc

/-- Without a backslash the pattern stands for the text. -/
theorem prefixAtoms_escapedChars {cs : List Char} (hcs : '\\' ∉ cs) :
    prefixAtoms (escapedChars cs) = cs.map .char ++ [.any] := by
  induction cs with
  | nil => rfl
  | cons c cs ih =>
    obtain ⟨hc, hcs⟩ := not_or.mp (mt List.mem_cons.mpr hcs)
    rw [escapedChars, List.flatMap_cons]
    split
    · exact congrArg (Atom.char c :: ·) (ih hcs)
    · rename_i hplain
      obtain ⟨hany, hone⟩ := not_or.mp hplain
      rw [List.singleton_append, prefixAtoms_cons (Ne.symm hc), atomOf, if_neg hany, if_neg hone]
      exact congrArg (Atom.char c :: ·) (ih hcs)

/-- After a backslash: what the escaper puts before a wildcard is itself escaped. -/
theorem prefixAtoms_backslash (c : Char) (cs : List Char) :
    prefixAtoms ('\\' :: escapedChars (c :: cs)) =
      if c = '%' ∨ c = '_' then .char '\\' :: atomOf c :: prefixAtoms (escapedChars cs)
      else .char c :: prefixAtoms (escapedChars cs) := by
  rw [escapedChars, List.flatMap_cons]
  by_cases hc : c = '%' ∨ c = '_'
  · have hne : c ≠ '\\' := by
      rcases hc with rfl | rfl <;> decide
    rw [if_pos hc, if_pos hc]
    refine congrArg (Atom.char '\\' :: ·) ?_
    exact prefixAtoms_cons hne _
  · rw [if_neg hc, if_neg hc]
    rfl

/-- A shortest text that the pattern for `cs` matches. -/
def least (cs : List Char) : List Char := shortest (prefixAtoms (escapedChars cs))

theorem least_cons {c : Char} (hc : c ≠ '\\') (cs : List Char) : least (c :: cs) = c :: least cs := by
  rw [least, escapedChars, List.flatMap_cons]
  split
  · rfl
  · rename_i hplain
    obtain ⟨hany, hone⟩ := not_or.mp hplain
    rw [List.singleton_append, prefixAtoms_cons hc, atomOf, if_neg hany, if_neg hone]
    rfl

theorem least_backslash (c : Char) (cs : List Char) :
    least ('\\' :: c :: cs) =
      if c = '%' then '\\' :: least cs
      else if c = '_' then '\\' :: 'x' :: least cs
      else c :: least cs := by
  have hescape : escapedChars ('\\' :: c :: cs) = '\\' :: escapedChars (c :: cs) := rfl
  rw [least, hescape, prefixAtoms_backslash]
  by_cases hany : c = '%'
  · rw [if_pos (.inl hany), if_pos hany, hany]
    rfl
  by_cases hone : c = '_'
  · rw [if_pos (.inr hone), if_neg hany, if_pos hone, hone]
    rfl
  · rw [if_neg (not_or.mpr ⟨hany, hone⟩), if_neg hany, if_neg hone]
    rfl

theorem least_length (cs : List Char) : (least cs).length ≤ cs.length := by
  match cs with
  | [] => exact le_refl _
  | c :: cs =>
    by_cases hc : c = '\\'
    · subst hc
      match cs with
      | [] => exact le_refl _
      | d :: cs =>
        have hrest := least_length cs
        rw [least_backslash]
        split
        · simp only [List.length_cons]
          omega
        split <;>
        · simp only [List.length_cons]
          omega
    · rw [least_cons hc]
      exact Nat.succ_le_succ (least_length cs)

/-- Text that has a backslash is not that shortest match. -/
theorem backslash_notMem_of_least {cs : List Char} (h : least cs = cs) : '\\' ∉ cs := by
  match cs with
  | [] => exact List.not_mem_nil
  | c :: cs =>
    by_cases hc : c = '\\'
    · subst hc
      match cs with
      | [] => cases h
      | d :: cs =>
        have hrest := least_length cs
        have hlength := congrArg List.length h
        rw [least_backslash] at h hlength
        split at h
        · rename_i hd
          rw [if_pos hd, List.length_cons, List.length_cons, List.length_cons] at hlength
          omega
        rename_i hd
        split at h
        · rename_i hone
          have hx := (List.cons.inj (List.cons.inj h).2).1
          rw [hone] at hx
          cases hx
        · rename_i hone
          rw [if_neg hd, if_neg hone, List.length_cons, List.length_cons, List.length_cons]
            at hlength
          omega
    · rw [least_cons hc] at h
      rw [List.mem_cons, not_or]
      exact ⟨Ne.symm hc, backslash_notMem_of_least (List.cons.inj h).2⟩

/-- Folding leaves the shortest match of a folded text alone. -/
theorem map_toLower_least {cs : List Char} (h : cs.map Char.toLower = cs) :
    (least cs).map Char.toLower = least cs := by
  match cs with
  | [] => rfl
  | c :: cs =>
    obtain ⟨hlower, hrest⟩ := List.cons.inj h
    by_cases hc : c = '\\'
    · subst hc
      match cs with
      | [] => rfl
      | d :: cs =>
        obtain ⟨hd, hrest⟩ := List.cons.inj hrest
        have ih := map_toLower_least hrest
        rw [least_backslash]
        split
        · exact congrArg ('\\' :: ·) ih
        split
        · exact congrArg ('\\' :: 'x' :: ·) ih
        · exact congrArg₂ List.cons hd ih
    · rw [least_cons hc]
      exact congrArg₂ List.cons hlower (map_toLower_least hrest)

/-- The pattern for a search selects what begins with the text, whatever the column holds, exactly
if the text has no backslash. -/
theorem lowerLike_iff (q : String) :
    (∀ value, lowerLike (some value) (asciiToLower (escaped q) ++ "%") = true ↔
      (asciiToLower q).toList <+: (asciiToLower value).toList) ↔ '\\' ∉ q.toList := by
  have hlike : ∀ value, lowerLike (some value) (asciiToLower (escaped q) ++ "%") =
      matchAtoms (prefixAtoms (escapedChars (q.toList.map Char.toLower)))
        (value.toList.map Char.toLower) := by
    intro value
    rw [lowerLike, Option.any_some, toList_pattern, like_percent, asciiToLower, String.toList_ofList]
  simp only [hlike]
  simp only [asciiToLower, String.toList_ofList]
  rw [← mem_map_toLower_iff (by decide : ('\\').isAlpha = false)]
  have hfold := map_toLower_map_toLower q.toList
  generalize q.toList.map Char.toLower = cs at hfold ⊢
  constructor
  · intro h
    refine backslash_notMem_of_least ?_
    have hvalue := h (String.ofList (least cs))
    rw [String.toList_ofList, map_toLower_least hfold] at hvalue
    have hmatch : matchAtoms (prefixAtoms (escapedChars cs)) (least cs) = true :=
      matchAtoms_shortest _
    have hstart : cs <+: least cs := hvalue.mp hmatch
    exact (hstart.eq_of_length_le (least_length cs)).symm
  · intro hcs value
    rw [prefixAtoms_escapedChars hcs]
    exact matchAtoms_chars cs _

/-! ### The rows selected -/

variable {db : UserDirectory} {q : String} {now : Int} {u : ListedUser}

/-- What the search is meant to find. -/
def Literal (q : String) (u : ListedUser) : Prop :=
  u.deletedAt = none ∧ ∃ value, (u.username = value ∨ u.email = some value) ∧
    (asciiToLower q).toList <+: (asciiToLower value).toList

def SearchExact (db : UserDirectory) (q : String) (now : Int) : Prop :=
  ∀ u, Selects db { q } now u ↔ u ∈ db.users ∧ Literal q u

def LockedLater (db : UserDirectory) (q : String) (now : Int) : Prop :=
  ∀ u, Selects db { q, locked := "true" } now u ↔
    Selects db { q } now u ∧ ∃ t, u.lockedUntil = some t ∧ now < t

def Partitions (db : UserDirectory) (q : String) (now : Int) : Prop :=
  ∀ u, (Selects db { q, locked := "true" } now u ∨ Selects db { q, locked := "false" } now u ↔
      Selects db { q } now u) ∧
    ¬(Selects db { q, locked := "true" } now u ∧ Selects db { q, locked := "false" } now u)

theorem selects_search_iff :
    Selects db { q } now u ↔
      u ∈ db.users ∧ u.deletedAt = none ∧ searchFilter q u = true := by
  rw [selects_iff rfl, baseFilter, Bool.and_eq_true, Bool.and_eq_true, Option.isNone_iff_eq_none]
  exact and_congr_right fun _ => and_iff_left rfl

theorem selects_locked_iff {locked : String} :
    Selects db { q, locked } now u ↔ Selects db { q } now u ∧ lockFilter locked now u = true := by
  rw [selects_search_iff, selects_iff rfl, baseFilter, Bool.and_eq_true, Bool.and_eq_true,
    Option.isNone_iff_eq_none, and_assoc, and_assoc, and_assoc]

theorem lockedLater (db : UserDirectory) (q : String) (now : Int) : LockedLater db q now := by
  intro u
  rw [selects_locked_iff, lockFilter, if_pos rfl]
  simp only [Option.any_eq_true, decide_eq_true_iff]

theorem selects_unlocked_iff :
    Selects db { q, locked := "false" } now u ↔
      Selects db { q } now u ∧ ∃ t, u.lockedUntil = some t ∧ t < now := by
  rw [selects_locked_iff, lockFilter, if_neg (by decide), if_pos rfl]
  simp only [Option.any_eq_true, decide_eq_true_iff]

theorem searchFilter_iff (hq : '\\' ∉ q.toList) :
    searchFilter q u = true ↔ ∃ value, (u.username = value ∨ u.email = some value) ∧
      (asciiToLower q).toList <+: (asciiToLower value).toList := by
  have hlike := (lowerLike_iff q).mpr hq
  rw [searchFilter]
  by_cases hempty : q = ""
  · subst hempty
    exact iff_of_true rfl ⟨u.username, .inl rfl, List.nil_prefix⟩
  simp only [decide_eq_false hempty, Bool.false_or, Bool.or_eq_true, hlike]
  constructor
  · rintro (husername | hemail)
    · exact ⟨u.username, .inl rfl, husername⟩
    · obtain ⟨value, hvalue, hmatch⟩ := (Option.any_eq_true _ _).mp hemail
      refine ⟨value, .inr hvalue, (hlike value).mp ?_⟩
      rw [lowerLike, Option.any_some]
      exact hmatch
  · rintro ⟨value, rfl | hemail, hprefix⟩
    · exact .inl hprefix
    · rw [hemail]
      exact .inr ((hlike value).mpr hprefix)

theorem searches_exactly_iff : (∀ db now, SearchExact db q now) ↔ '\\' ∉ q.toList := by
  constructor
  · intro h
    refine (lowerLike_iff q).mp ?_
    intro value
    -- A directory whose only user has this name, and no email.
    have honly := h ⟨[⟨0, value, none, false, false, none, some 0⟩], [], []⟩ 0
      ⟨0, value, none, false, false, none, some 0⟩
    rw [selects_search_iff, and_congr_right_iff] at honly
    have hfound := honly (List.mem_singleton.mpr rfl)
    by_cases hempty : q = ""
    · subst hempty
      refine iff_of_true ?_ List.nil_prefix
      have hplain : '\\' ∉ "".toList := List.not_mem_nil
      exact ((lowerLike_iff "").mpr hplain value).mpr List.nil_prefix
    rw [searchFilter, decide_eq_false hempty] at hfound
    simpa [Literal, lowerLike] using hfound
  · intro hq db now u
    rw [selects_search_iff, searchFilter_iff hq]
    rfl

/-- The search is literal on every table exactly for texts without a backslash; the locked users are
those selected whose lock ends later; and the two lists partition the users selected exactly if each
of these has a lock time other than the current second. -/
theorem listUsers_selects (q : String) :
    ((∀ db now, SearchExact db q now) ↔ '\\' ∉ q.toList) ∧
      ∀ db now, LockedLater db q now ∧
        (Partitions db q now ↔
          ∀ u, Selects db { q } now u → ∃ t, u.lockedUntil = some t ∧ t ≠ now) := by
  refine ⟨searches_exactly_iff, ?_⟩
  intro db now
  refine ⟨lockedLater db q now, ?_⟩
  simp only [Partitions, lockedLater db q now _, selects_unlocked_iff]
  constructor
  · intro h u hu
    rcases (h u).1.mpr hu with ⟨-, t, ht, hlt⟩ | ⟨-, t, ht, hlt⟩
    · exact ⟨t, ht, by omega⟩
    · exact ⟨t, ht, by omega⟩
  · intro h u
    refine ⟨⟨fun hu => hu.elim And.left And.left, ?_⟩, ?_⟩
    · intro hu
      obtain ⟨t, ht, hne⟩ := h u hu
      rcases lt_or_gt_of_ne hne with hlt | hgt
      · exact .inr ⟨hu, t, ht, hlt⟩
      · exact .inl ⟨hu, t, ht, hgt⟩
    · rintro ⟨⟨-, t, ht, hlt⟩, -, t', ht', hlt'⟩
      obtain rfl := Option.some.inj (ht.symm.trans ht')
      omega

/-- A user locked until just now is in neither list, and a search for a backslash finds the user
`%`. -/
theorem listUsers_selects_other :
    ¬Partitions ⟨[⟨7, "alice", none, true, false, none, some 100⟩], [], []⟩ "" 100 ∧
      ¬SearchExact ⟨[⟨7, "%", none, true, false, none, some 0⟩], [], []⟩ "\\" 100 := by
  constructor
  · intro h
    have halice : Selects ⟨[⟨7, "alice", none, true, false, none, some 100⟩], [], []⟩ { q := "" } 100
        ⟨7, "alice", none, true, false, none, some 100⟩ :=
      selects_search_iff.mpr ⟨List.mem_singleton.mpr rfl, rfl, rfl⟩
    rcases (h _).1.mpr halice with htrue | hfalse
    · obtain ⟨-, t, ht, hlt⟩ := (lockedLater _ _ _ _).mp htrue
      obtain rfl := Option.some.inj ht
      exact absurd hlt (by decide)
    · obtain ⟨-, t, ht, hlt⟩ := selects_unlocked_iff.mp hfalse
      obtain rfl := Option.some.inj ht
      exact absurd hlt (by decide)
  · intro h
    have hfound : Selects ⟨[⟨7, "%", none, true, false, none, some 0⟩], [], []⟩ { q := "\\" } 100
        ⟨7, "%", none, true, false, none, some 0⟩ :=
      selects_search_iff.mpr ⟨List.mem_singleton.mpr rfl, rfl, by decide +kernel⟩
    obtain ⟨-, -, value, hvalue, hprefix⟩ := (h _).mp hfound
    obtain rfl := hvalue.resolve_right nofun
    revert hprefix
    decide +kernel

end AuthForge.UserSearch
