import Mathlib.Data.List.TakeWhile
import AuthForge.Authz.ScopeRegistry
import AuthForge.OAuth2.Authorization

/-!
# The readers of a scope string

Five loops cut a scope string into scopes: `hasScope` and `hasAllScopes` of the resource filters,
`scopeContains` of the token service, `Client::allowsAllScopes`, and the `getline` loop of the
authorization endpoint. They are written here as the source has them, over what is left of the
string; none goes round more often than there are characters. Each is then described by the
pieces between blanks.
-/

namespace AuthForge.ScopeStrings

open OAuth2

def skipped (c : Char) : Bool := c = ' ' || c = '\t'

/-- The characters before the next blank; tabs do not end a token. -/
def nextToken (s : List Char) : List Char := s.takeWhile (· ≠ ' ')

def afterToken (s : List Char) : List Char := s.dropWhile (· ≠ ' ')

def hasScopeLoop (requiredScope : List Char) : Nat → List Char → Bool
  | 0, _ => false
  | n + 1, s =>
    let s := s.dropWhile skipped
    if s = [] then false
    else if nextToken s = requiredScope then true
    else hasScopeLoop requiredScope n ((afterToken s).drop 1)

def hasScope (tokenScopes requiredScope : String) : Bool :=
  if requiredScope = "" then true
  else hasScopeLoop requiredScope.toList tokenScopes.toList.length tokenScopes.toList

def hasAllScopesLoop (tokenScopes : String) : Nat → List Char → Bool
  | 0, _ => true
  | n + 1, s =>
    let s := s.dropWhile skipped
    if s = [] then true
    else if hasScope tokenScopes (String.ofList (nextToken s)) = false then false
    else hasAllScopesLoop tokenScopes n ((afterToken s).drop 1)

def hasAllScopes (tokenScopes requiredScopes : String) : Bool :=
  hasAllScopesLoop tokenScopes requiredScopes.toList.length requiredScopes.toList

/-- The rest of the string still starts with the blank that ended the token. -/
def scopeContainsLoop (required : List Char) : Nat → List Char → Bool
  | 0, _ => false
  | n + 1, s =>
    let s := s.dropWhile skipped
    if s = [] then false
    else if nextToken s = required then true
    else scopeContainsLoop required n (afterToken s)

def scopeContains (scopes required : String) : Bool :=
  if required = "" then true
  else scopeContainsLoop required.toList scopes.toList.length scopes.toList

def allowsAllScopesLoop (client : OAuth2Client) : Nat → List Char → Bool
  | 0, _ => true
  | n + 1, s =>
    if s = [] then true
    else if nextToken s ≠ [] ∧ client.allowsScope (String.ofList (nextToken s)) = false then false
    else allowsAllScopesLoop client n ((afterToken s).drop 1)

def allowsAllScopes (client : OAuth2Client) (requestedScope : String) : Bool :=
  if requestedScope = "" then true
  else allowsAllScopesLoop client requestedScope.toList.length requestedScope.toList

/-- `getline` with a blank: a line is read as long as a character is left. -/
def getlineLoop : Nat → List Char → List String
  | 0, _ => []
  | n + 1, s =>
    if s = [] then []
    else
      let rest := getlineLoop n ((afterToken s).drop 1)
      if nextToken s = [] then rest else String.ofList (nextToken s) :: rest

def getlineScopes (scope : String) : List String := getlineLoop scope.toList.length scope.toList

/-! ### Pieces between blanks -/

/-- The pieces between blanks without their leading tabs. -/
def scopePieces (s : List Char) : List (List Char) :=
  (s.splitOn ' ').map fun part => part.dropWhile (· = '\t')

variable {s required : List Char} {c : Char} {n : Nat}

theorem splitOn_blank (s : List Char) :
    s.splitOn ' ' =
      nextToken s :: (if afterToken s = [] then [] else ((afterToken s).drop 1).splitOn ' ') := by
  have hnext : ' ' ∉ nextToken s := fun hmem => by simpa using List.mem_takeWhile_imp hmem
  have hsplit : nextToken s ++ afterToken s = s := List.takeWhile_append_dropWhile
  cases hafter : afterToken s with
  | nil =>
    rw [hafter, List.append_nil] at hsplit
    rw [if_pos rfl, hsplit]
    exact List.splitOn_eq_singleton (hsplit ▸ hnext)
  | cons c rest =>
    have hc : c = ' ' := by
      have hnot := List.head?_dropWhile_not (fun c => decide (c ≠ ' ')) s
      rw [show s.dropWhile (fun c => decide (c ≠ ' ')) = c :: rest from hafter,
        List.head?_cons] at hnot
      simpa using hnot
    rw [if_neg (List.cons_ne_nil c rest)]
    calc s.splitOn ' ' = (nextToken s ++ ' ' :: rest).splitOn ' ' := by rw [← hc, ← hafter, hsplit]
      _ = nextToken s :: rest.splitOn ' ' := List.splitOn_append_cons_self_of_not_mem hnext _

theorem length_afterToken_le (s : List Char) : (afterToken s).length ≤ s.length :=
  (List.dropWhile_suffix _).length_le

/-- A token starts at a character that is not skipped. -/
theorem nextToken_of_skipped {t : List Char} (h : s.dropWhile skipped = t) (hne : t ≠ []) :
    nextToken t ≠ [] ∧ (nextToken t).dropWhile (· = '\t') = nextToken t ∧
      (afterToken t).length < t.length := by
  obtain ⟨c, rest, rfl⟩ := List.exists_cons_of_ne_nil hne
  have hnot := List.head?_dropWhile_not skipped s
  rw [h, List.head?_cons] at hnot
  simp only [skipped, Bool.or_eq_false_iff, decide_eq_false_iff_not] at hnot
  have hnext : nextToken (c :: rest) = c :: nextToken rest :=
    List.takeWhile_cons_of_pos (by simp [hnot.1])
  have hafter : afterToken (c :: rest) = afterToken rest :=
    List.dropWhile_cons_of_pos (by simp [hnot.1])
  refine ⟨?_, ?_, ?_⟩
  · rw [hnext]
    exact List.cons_ne_nil _ _
  · rw [hnext]
    exact List.dropWhile_cons_of_neg (by simp [hnot.2])
  · rw [hafter]
    exact Nat.lt_succ_of_le (length_afterToken_le rest)

theorem mem_scopePieces_cons (hne : required ≠ []) (hc : skipped c = true) :
    required ∈ scopePieces (c :: s) ↔ required ∈ scopePieces s := by
  unfold scopePieces
  rw [List.splitOn_cons_eq_if_modifyHead]
  simp only [skipped, Bool.or_eq_true, decide_eq_true_eq] at hc
  rcases hc with rfl | rfl
  · simp [hne]
  · cases hsplit : s.splitOn ' ' with
    | nil => exact absurd hsplit (List.splitOn_ne_nil ' ' s)
    | cons first rest => simp

theorem mem_scopePieces_dropWhile (hne : required ≠ []) :
    required ∈ scopePieces (s.dropWhile skipped) ↔ required ∈ scopePieces s := by
  induction s with
  | nil => rfl
  | cons c s ih =>
    by_cases hc : skipped c = true
    · rw [List.dropWhile_cons_of_pos hc, ih, mem_scopePieces_cons hne hc]
    · rw [List.dropWhile_cons_of_neg hc]

theorem scopePieces_cut (s : List Char) :
    scopePieces s = (nextToken s).dropWhile (· = '\t') ::
      (if afterToken s = [] then [] else scopePieces ((afterToken s).drop 1)) := by
  unfold scopePieces
  rw [splitOn_blank]
  split <;> rfl

theorem scopePieces_nil : scopePieces [] = [[]] := by
  rw [scopePieces_cut]
  rfl

/-- The pieces of what is left after a token, whether the blank that ended it is kept or not. -/
theorem mem_scopePieces_rest (hne : required ≠ []) :
    (required ∈ if afterToken s = [] then [] else scopePieces ((afterToken s).drop 1)) ↔
      required ∈ scopePieces ((afterToken s).drop 1) := by
  split
  · rename_i hnil
    rw [hnil, List.drop_nil, scopePieces_nil, List.mem_singleton]
    exact iff_of_false List.not_mem_nil hne
  · rfl

theorem mem_scopePieces_afterToken (hne : required ≠ []) :
    required ∈ scopePieces (afterToken s) ↔ required ∈ scopePieces ((afterToken s).drop 1) := by
  cases hafter : afterToken s with
  | nil => rfl
  | cons c rest =>
    have hc : skipped c = true := by
      have hnot := List.head?_dropWhile_not (fun c => decide (c ≠ ' ')) s
      rw [show s.dropWhile (fun c => decide (c ≠ ' ')) = c :: rest from hafter,
        List.head?_cons] at hnot
      simpa [skipped] using Or.inl (by simpa using hnot)
    exact mem_scopePieces_cons hne hc

/-! ### What each loop computes -/

/-- One round of the loops that skip blanks: the pieces are the token and those behind it. -/
theorem mem_scopePieces_round {t : List Char} (hne : required ≠ []) (h : s.dropWhile skipped = t)
    (ht : t ≠ []) :
    required ∈ scopePieces s ↔
      nextToken t = required ∨ required ∈ scopePieces ((afterToken t).drop 1) := by
  rw [← mem_scopePieces_dropWhile hne, h, scopePieces_cut, (nextToken_of_skipped h ht).2.1,
    List.mem_cons, mem_scopePieces_rest hne, eq_comm]

theorem length_drop_afterToken {t : List Char} (h : s.dropWhile skipped = t) (ht : t ≠ [])
    (hs : s.length ≤ n + 1) :
    (afterToken t).length ≤ n ∧ ((afterToken t).drop 1).length ≤ n := by
  have hshort := (nextToken_of_skipped h ht).2.2
  have hlen : t.length ≤ s.length := h ▸ (List.dropWhile_suffix _).length_le
  rw [List.length_drop]
  omega

theorem not_mem_scopePieces (hne : required ≠ []) (h : s.dropWhile skipped = []) :
    required ∉ scopePieces s := by
  rw [← mem_scopePieces_dropWhile hne, h, scopePieces_nil, List.mem_singleton]
  exact hne

theorem hasScopeLoop_iff (hne : required ≠ []) (hs : s.length ≤ n) :
    hasScopeLoop required n s = true ↔ required ∈ scopePieces s := by
  induction n generalizing s with
  | zero =>
    rw [List.length_eq_zero_iff.mp (by omega : s.length = 0)]
    exact iff_of_false Bool.false_ne_true (not_mem_scopePieces hne rfl)
  | succ n ih =>
    by_cases hblank : s.dropWhile skipped = []
    · rw [hasScopeLoop, if_pos hblank]
      exact iff_of_false Bool.false_ne_true (not_mem_scopePieces hne hblank)
    · rw [hasScopeLoop, if_neg hblank, mem_scopePieces_round hne rfl hblank,
        ← ih (length_drop_afterToken rfl hblank hs).2]
      split <;> simp [*]

theorem scopeContainsLoop_iff (hne : required ≠ []) (hs : s.length ≤ n) :
    scopeContainsLoop required n s = true ↔ required ∈ scopePieces s := by
  induction n generalizing s with
  | zero =>
    rw [List.length_eq_zero_iff.mp (by omega : s.length = 0)]
    exact iff_of_false Bool.false_ne_true (not_mem_scopePieces hne rfl)
  | succ n ih =>
    by_cases hblank : s.dropWhile skipped = []
    · rw [scopeContainsLoop, if_pos hblank]
      exact iff_of_false Bool.false_ne_true (not_mem_scopePieces hne hblank)
    · rw [scopeContainsLoop, if_neg hblank, mem_scopePieces_round hne rfl hblank,
        ← mem_scopePieces_afterToken hne, ← ih (length_drop_afterToken rfl hblank hs).1]
      split <;> simp [*]

theorem hasAllScopesLoop_iff {tokenScopes : String} (hs : s.length ≤ n) :
    hasAllScopesLoop tokenScopes n s = true ↔
      ∀ piece, piece ≠ [] → piece ∈ scopePieces s →
        hasScope tokenScopes (String.ofList piece) = true := by
  induction n generalizing s with
  | zero =>
    rw [List.length_eq_zero_iff.mp (by omega : s.length = 0)]
    exact iff_of_true rfl fun piece hne hpiece => absurd hpiece (not_mem_scopePieces hne rfl)
  | succ n ih =>
    by_cases hblank : s.dropWhile skipped = []
    · rw [hasAllScopesLoop, if_pos hblank]
      exact iff_of_true rfl fun piece hne hpiece => absurd hpiece (not_mem_scopePieces hne hblank)
    · have hround : ∀ piece, piece ≠ [] → (piece ∈ scopePieces s ↔ _) := fun piece hne =>
        mem_scopePieces_round hne rfl hblank
      have htoken := (nextToken_of_skipped rfl hblank).1
      rw [hasAllScopesLoop, if_neg hblank]
      by_cases hhas : hasScope tokenScopes (String.ofList (nextToken (s.dropWhile skipped))) = true
      · rw [if_neg (by simp [hhas]), ih (length_drop_afterToken rfl hblank hs).2]
        refine forall₂_congr fun piece hne => ?_
        rw [hround piece hne]
        exact ⟨fun h hpiece => hpiece.elim (fun heq => heq ▸ hhas) h,
          fun h hpiece => h (.inr hpiece)⟩
      · rw [if_pos (by simpa using hhas)]
        exact iff_of_false Bool.false_ne_true fun h =>
          hhas (h _ htoken ((hround _ htoken).mpr (.inl rfl)))

/-- One round of the loops that do not skip blanks. -/
theorem mem_splitOn_round {part : List Char} (hne : part ≠ []) :
    part ∈ s.splitOn ' ' ↔ part = nextToken s ∨ part ∈ ((afterToken s).drop 1).splitOn ' ' := by
  rw [splitOn_blank, List.mem_cons]
  split
  · rename_i hnil
    rw [hnil, List.drop_nil, List.splitOn_nil]
    simp [hne]
  · rfl

theorem length_drop_afterToken_of_ne (hs : s.length ≤ n + 1) (hne : s ≠ []) :
    ((afterToken s).drop 1).length ≤ n := by
  have hle := length_afterToken_le s
  have hpos := List.length_pos_iff.mpr hne
  rw [List.length_drop]
  omega

theorem allowsAllScopesLoop_iff {client : OAuth2Client} (hs : s.length ≤ n) :
    allowsAllScopesLoop client n s = true ↔
      ∀ part, part ≠ [] → part ∈ s.splitOn ' ' →
        client.allowsScope (String.ofList part) = true := by
  induction n generalizing s with
  | zero =>
    rw [List.length_eq_zero_iff.mp (by omega : s.length = 0)]
    exact iff_of_true rfl fun part hne hpart => absurd (by simpa using hpart) hne
  | succ n ih =>
    by_cases hnil : s = []
    · rw [allowsAllScopesLoop, if_pos hnil, hnil]
      exact iff_of_true rfl fun part hne hpart => absurd (by simpa using hpart) hne
    rw [allowsAllScopesLoop, if_neg hnil]
    split
    · rename_i hbad
      refine iff_of_false Bool.false_ne_true fun h => ?_
      have hallowed := h _ hbad.1 ((mem_splitOn_round hbad.1).mpr (.inl rfl))
      exact Bool.false_ne_true (hbad.2.symm.trans hallowed)
    · rename_i hgood
      rw [ih (length_drop_afterToken_of_ne hs hnil)]
      refine forall₂_congr fun part hne => ?_
      rw [mem_splitOn_round (s := s) hne]
      refine ⟨fun h hpart => hpart.elim (fun heq => ?_) h, fun h hpart => h (.inr hpart)⟩
      subst heq
      by_contra hno
      exact hgood ⟨hne, by simpa using hno⟩

theorem getlineLoop_eq (hs : s.length ≤ n) :
    getlineLoop n s = ((s.splitOn ' ').filter (· ≠ [])).map String.ofList := by
  induction n generalizing s with
  | zero =>
    rw [List.length_eq_zero_iff.mp (by omega : s.length = 0)]
    rfl
  | succ n ih =>
    by_cases hnil : s = []
    · rw [getlineLoop, if_pos hnil, hnil]
      rfl
    rw [getlineLoop, if_neg hnil, ih (length_drop_afterToken_of_ne hs hnil), splitOn_blank s]
    have hrest : (((afterToken s).drop 1).splitOn ' ').filter (· ≠ []) =
        (if afterToken s = [] then [] else ((afterToken s).drop 1).splitOn ' ').filter
          (· ≠ []) := by
      split
      · rename_i hend
        rw [hend]
        rfl
      · rfl
    rw [hrest]
    by_cases htoken : nextToken s = []
    · simp [htoken]
    · simp [htoken]

/-! ### The loops and the definitions the rest of the model uses -/

theorem hasScope_iff {tokenScopes requiredScope : String} (hne : requiredScope ≠ "") :
    hasScope tokenScopes requiredScope = true ↔
      requiredScope.toList ∈ scopePieces tokenScopes.toList := by
  rw [hasScope, if_neg hne]
  exact hasScopeLoop_iff (by simpa using hne) le_rfl

/-- `scopeTokens` reads character by character what the loops read token by token. -/
theorem mem_scopeTokens_iff (hne : required ≠ []) (tok : List Char) :
    required ∈ TokenService.scopeTokens tok s ↔
      if tok = [] then required ∈ scopePieces s
      else required = tok.reverse ++ nextToken s ∨
        required ∈ scopePieces ((afterToken s).drop 1) := by
  induction s generalizing tok with
  | nil =>
    rw [TokenService.scopeTokens]
    split
    · exact iff_of_false List.not_mem_nil (not_mem_scopePieces hne rfl)
    · simp [nextToken, afterToken, scopePieces_nil, hne]
  | cons c s ih =>
    cases tok with
    | nil =>
      rw [TokenService.scopeTokens, if_pos rfl]
      by_cases hc : skipped c = true
      · rw [if_pos (by simpa [skipped] using hc), ih, if_pos rfl, mem_scopePieces_cons hne hc]
      · have hkeep : (c :: s).dropWhile skipped = c :: s := List.dropWhile_cons_of_neg hc
        have hblank : c ≠ ' ' := fun heq => hc (by simp [skipped, heq])
        rw [if_neg (by simpa [skipped] using hc), ih, if_neg (List.cons_ne_nil c []),
          mem_scopePieces_round hne hkeep (List.cons_ne_nil c s), eq_comm]
        simp [nextToken, afterToken, hblank]
    | cons d tok =>
      rw [TokenService.scopeTokens, if_neg (List.cons_ne_nil d tok)]
      by_cases hc : c = ' '
      · rw [if_pos hc, List.mem_cons, ih, if_pos rfl]
        simp [nextToken, afterToken, hc]
      · rw [if_neg hc, ih, if_neg (List.cons_ne_nil c _)]
        simp [nextToken, afterToken, hc]

theorem tokenService_scopeContains_eq (scopes required : String) :
    TokenService.scopeContains scopes required = scopeContains scopes required := by
  by_cases hempty : required = ""
  · rw [TokenService.scopeContains, scopeContains, if_pos hempty]
    simp [hempty]
  · have hne : required.toList ≠ [] := by simpa using hempty
    rw [Bool.eq_iff_iff, scopeContains, if_neg hempty, scopeContainsLoop_iff hne le_rfl,
      TokenService.scopeContains]
    simp [hempty, mem_scopeTokens_iff hne]

theorem scopeContains_eq_hasScope (scopes required : String) :
    scopeContains scopes required = hasScope scopes required := by
  by_cases hempty : required = ""
  · rw [scopeContains, hasScope, if_pos hempty, if_pos hempty]
  · rw [Bool.eq_iff_iff, hasScope_iff hempty, scopeContains, if_neg hempty]
    exact scopeContainsLoop_iff (by simpa using hempty) le_rfl

theorem getlineScopes_eq (scope : String) : getlineScopes scope = requestedScopes scope :=
  getlineLoop_eq le_rfl

theorem allowsAllScopes_iff {client : OAuth2Client} {scope : String} :
    allowsAllScopes client scope = true ↔
      ∀ part, part ≠ [] → part ∈ scope.toList.splitOn ' ' →
        client.allowsScope (String.ofList part) = true := by
  unfold allowsAllScopes
  split
  · rename_i hempty
    rw [hempty]
    exact iff_of_true rfl fun part hne hpart => absurd (by simpa using hpart) hne
  · exact allowsAllScopesLoop_iff le_rfl

end AuthForge.ScopeStrings
