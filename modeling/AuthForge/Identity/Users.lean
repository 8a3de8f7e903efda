import AuthForge.Base.Dict
import AuthForge.Identity.Totp

/-!
# Users, their subjects and the password step

The users table with the roles of each user, the subject mappings, `AuthService::validateUser` in
both of its implementations, and the login policy. The table carries what the database guarantees
about public subjects: they are UUIDs and no two users share one.
-/

namespace AuthForge.Identity

/-! ### The users table -/

def isUuid (s : String) : Bool :=
  s.toList.length = 36 &&
    s.toList.zipIdx.all fun (c, i) =>
      if i ∈ [8, 13, 18, 23] then c = '-' else c.isDigit || ('a' ≤ c && c ≤ 'f')

/-- The columns of a user that the password step, the second factor and the grant flows only
read, with the names of the user's roles. -/
structure Profile where
  publicSub : String
  username : Option String := none
  email : Option String := none
  emailVerified : Bool := false
  mfaEnabled : Bool := false
  mfaSecret : String := ""
  deleted : Bool := false
  roles : List String := []
  deriving DecidableEq

structure UserRow extends Profile where
  passwordHash : String
  salt : String := ""
  failedLoginCount : Int := 0
  lockedUntil : Int := 0
  lastFailedLogin : Int := 0
  mfaPendingClientId : Option String := none
  mfaPendingRedirectUri : Option String := none
  deriving DecidableEq

def profilesOf (rows : Dict Int UserRow) : Dict Int Profile :=
  rows.mapValues fun _ u => u.toProfile

theorem profilesOf_mapValues {f : UserRow → UserRow} (hf : ∀ u, (f u).toProfile = u.toProfile)
    (id : Int) (rows : Dict Int UserRow) :
    profilesOf (rows.mapValues fun k u => if k = id then f u else u) = profilesOf rows := by
  apply Dict.mapValues_mapValues_eq
  intro k u
  split
  · exact hf u
  · rfl

/-- The profile columns with what the database guarantees about them. -/
structure Profiles where
  table : Dict Int Profile
  publicSubs_uuid : ∀ e ∈ table.entries, isUuid e.2.publicSub = true
  publicSubs_nodup : (table.entries.map fun e => e.2.publicSub).Nodup

structure UserTable where
  rows : Dict Int UserRow
  publicSubs_uuid : ∀ e ∈ (profilesOf rows).entries, isUuid e.2.publicSub = true
  publicSubs_nodup : ((profilesOf rows).entries.map fun e => e.2.publicSub).Nodup

namespace UserTable

def profiles (t : UserTable) : Profiles :=
  ⟨profilesOf t.rows, t.publicSubs_uuid, t.publicSubs_nodup⟩

def update (t : UserTable) (id : Int) (f : UserRow → UserRow)
    (hf : ∀ u, (f u).toProfile = u.toProfile) : UserTable where
  rows := t.rows.mapValues fun k u => if k = id then f u else u
  publicSubs_uuid := by
    rw [profilesOf_mapValues hf]
    exact t.publicSubs_uuid
  publicSubs_nodup := by
    rw [profilesOf_mapValues hf]
    exact t.publicSubs_nodup

variable {t : UserTable} {id : Int} {f : UserRow → UserRow}
  {hf : ∀ u, (f u).toProfile = u.toProfile}

@[simp] theorem profiles_update : (t.update id f hf).profiles = t.profiles := by
  simp only [profiles, update, profilesOf_mapValues hf]

theorem lookup_update (k : Int) :
    (t.update id f hf).rows.lookup k =
      (t.rows.lookup k).map fun u => if k = id then f u else u :=
  Dict.lookup_mapValues _ _ k

/-- The row that `findOne` returns: the only one that meets the condition. -/
def findOne (t : UserTable) (p : UserRow → Bool) : Option (Int × UserRow) :=
  match t.rows.entries.filter fun e => p e.2 with
  | [e] => some (e.1, e.2)
  | _ => none

theorem findOne_eq_some {p : UserRow → Bool} {u : UserRow} (h : t.findOne p = some (id, u)) :
    t.rows.lookup id = some u ∧ p u = true := by
  unfold findOne at h
  split at h
  · rename_i e hfilter
    obtain ⟨rfl, rfl⟩ := Prod.mk.inj (Option.some.inj h)
    have hmem : e ∈ t.rows.entries.filter fun e => p e.2 := by simp [hfilter]
    rw [List.mem_filter] at hmem
    exact ⟨AList.mem_lookup_iff.mpr hmem.1, hmem.2⟩
  · cases h

theorem lookup_profiles (k : Int) :
    t.profiles.table.lookup k = (t.rows.lookup k).map UserRow.toProfile :=
  Dict.lookup_mapValues _ _ k

end UserTable

/-! ### Subjects -/

namespace SubjectGenerator

def parse (fullSubject : String) : String × String :=
  match cutFirst ':' fullSubject with
  | none => ("local", fullSubject)
  | some (provider, subject) =>
    if provider ∈ ["local", "google", "wechat"] then (provider, subject)
    else ("local", fullSubject)

def forProvider (provider subject : String) : String := provider ++ ":" ++ subject

def forLocalUser (username : String) : String := forProvider "local" username

end SubjectGenerator

/-- Who the users are: profiles and subject mappings. No handler of this development writes it. -/
structure Directory where
  users : Profiles
  mappings : Dict (String × String) Int

namespace Directory

def getInternalUserId (d : Directory) (subject : String) : Option Int :=
  match d.mappings.lookup (SubjectGenerator.parse subject) with
  | none => none
  | some internalId =>
    match d.users.table.lookup internalId with
    | none => none
    | some p => if p.deleted then none else some internalId

/-- The user a subject string stands for: the internal id in decimal, a public subject, or a
mapped subject. -/
def subjectUser (d : Directory) (subject : String) : Option Int :=
  match d.users.table.entries.find? fun e => toString e.1 = subject with
  | some e => some e.1
  | none =>
    match d.users.table.entries.find? fun e => e.2.publicSub = subject with
    | some e => some e.1
    | none => d.getInternalUserId subject

def roles (d : Directory) (internalUserId : Int) : List String :=
  match d.users.table.lookup internalUserId with
  | none => []
  | some p => p.roles

end Directory

theorem getElem_of_isUuid {s : String} (h : isUuid s = true) : s.toList[8]? = some '-' := by
  simp only [isUuid, Bool.and_eq_true, decide_eq_true_eq, List.all_eq_true] at h
  obtain ⟨hlength, hall⟩ := h
  have hlt : 8 < s.toList.length := by omega
  rw [List.getElem?_eq_getElem hlt]
  have hmem : (s.toList[8], 8) ∈ s.toList.zipIdx := by
    rw [List.mem_zipIdx_iff_getElem?]
    exact List.getElem?_eq_getElem hlt
  have := hall _ hmem
  simpa using this

theorem ne_toString_of_isUuid {s : String} (h : isUuid s = true) (n : Int) : toString n ≠ s := by
  intro heq
  obtain rfl := heq
  have hdash := getElem_of_isUuid h
  rcases intToString_cases n with ⟨m, -, hm⟩ | ⟨m, -, hm⟩
  · rw [hm] at hdash
    cases isDigit_of_mem_natToString (List.mem_of_getElem? hdash)
  · rw [hm, List.getElem?_cons_succ] at hdash
    cases isDigit_of_mem_natToString (List.mem_of_getElem? hdash)

namespace Directory

variable {d : Directory} {id : Int} {p : Profile}

theorem subjectUser_toString (h : d.users.table.lookup id = some p) :
    d.subjectUser (toString id) = some id := by
  have hmem := AList.mem_lookup_iff.mp h
  unfold subjectUser
  cases hfind : d.users.table.entries.find? fun e => toString e.1 = toString id with
  | none =>
    have := List.find?_eq_none.mp hfind _ hmem
    simp at this
  | some e =>
    have := List.find?_some hfind
    exact congrArg some (intToString_injective (by simpa using this))

theorem subjectUser_publicSub (h : d.users.table.lookup id = some p) :
    d.subjectUser p.publicSub = some id := by
  have hmem := AList.mem_lookup_iff.mp h
  have hid : d.users.table.entries.find? (fun e => toString e.1 = p.publicSub) = none := by
    rw [List.find?_eq_none]
    intro e _
    simpa using ne_toString_of_isUuid (d.users.publicSubs_uuid _ hmem) e.1
  unfold subjectUser
  rw [hid]
  cases hfind : d.users.table.entries.find? fun e => e.2.publicSub = p.publicSub with
  | none =>
    have := List.find?_eq_none.mp hfind _ hmem
    simp at this
  | some e =>
    have hsub : e.2.publicSub = p.publicSub := by simpa using List.find?_some hfind
    have heq := List.inj_on_of_nodup_map d.users.publicSubs_nodup (List.mem_of_find?_eq_some hfind)
      hmem hsub
    rw [heq]

end Directory

/-! ### The password step -/

structure AuthResult where
  internalId : Int
  publicSub : String
  emailVerified : Bool := false
  mfaEnabled : Bool := false
  deriving DecidableEq

/-- What the password step reads from outside: the clock, fresh salt, and which of its statements
fail. -/
structure AuthEnv where
  now : Int := 0
  salt : List UInt8 := []
  findFails : Bool := false
  incrementFails : Bool := false
  resetFails : Bool := false
  rehashFails : Bool := false

inductive Validation
  | accepted (result : AuthResult)
  | rejected
  | thrown
  deriving DecidableEq

def lockAfter (now failedCount : Int) : Int :=
  if failedCount ≥ 20 then now + 3600
  else if failedCount ≥ 15 then now + 1800
  else if failedCount ≥ 10 then now + 300
  else if failedCount ≥ 5 then now + 60
  else 0

namespace UserTable

def incrementFailedLogins (t : UserTable) (now : Int) (userId : Int) : UserTable :=
  t.update userId (fun u =>
    { u with
      failedLoginCount := u.failedLoginCount + 1
      lockedUntil := lockAfter now (u.failedLoginCount + 1)
      lastFailedLogin := now }) fun _ => rfl

def resetFailedLogins (t : UserTable) (userId : Int) : UserTable :=
  t.update userId (fun u => { u with failedLoginCount := 0, lockedUntil := 0 }) fun _ => rfl

def updatePasswordHash (t : UserTable) (userId : Int) (newHash : String) : UserTable :=
  t.update userId (fun u => { u with passwordHash := newHash, salt := "" }) fun _ => rfl

def setPendingBinding (t : UserTable) (userId : Int) (clientId redirectUri : String) : UserTable :=
  t.update userId (fun u =>
    { u with
      mfaPendingClientId := some clientId
      mfaPendingRedirectUri := some redirectUri }) fun _ => rfl

def clearPendingBinding (t : UserTable) (userId : Int) : UserTable :=
  t.update userId (fun u =>
    { u with
      mfaPendingClientId := none
      mfaPendingRedirectUri := none }) fun _ => rfl

@[simp] theorem profiles_setPendingBinding {t : UserTable} {id : Int}
    {clientId redirectUri : String} :
    (t.setPendingBinding id clientId redirectUri).profiles = t.profiles :=
  profiles_update

@[simp] theorem profiles_clearPendingBinding {t : UserTable} {id : Int} :
    (t.clearPendingBinding id).profiles = t.profiles :=
  profiles_update

def getPendingBinding (t : UserTable) (userId : Int) : Option (String × String) :=
  (t.rows.lookup userId).map fun u =>
    (u.mfaPendingClientId.getD "", u.mfaPendingRedirectUri.getD "")

variable {t : UserTable} {id : Int} {clientId redirectUri : String}

theorem getPendingBinding_update {f : UserRow → UserRow} {hf : ∀ u, (f u).toProfile = u.toProfile}
    (hpending : ∀ u, ((f u).mfaPendingClientId, (f u).mfaPendingRedirectUri) =
      (u.mfaPendingClientId, u.mfaPendingRedirectUri)) (k : Int) :
    (t.update id f hf).getPendingBinding k = t.getPendingBinding k := by
  rw [getPendingBinding, lookup_update, Option.map_map, getPendingBinding]
  congr 1
  funext u
  obtain ⟨hclient, huri⟩ := Prod.mk.inj (hpending u)
  by_cases hk : k = id
  · simp [hk, hclient, huri]
  · simp [hk]

theorem getPendingBinding_set (k : Int) :
    (t.setPendingBinding id clientId redirectUri).getPendingBinding k =
      if k = id then (t.getPendingBinding k).map fun _ => (clientId, redirectUri)
      else t.getPendingBinding k := by
  rw [getPendingBinding, setPendingBinding, lookup_update, getPendingBinding]
  by_cases hk : k = id
  · simp [hk, Function.comp_def]
  · simp [hk]

theorem getPendingBinding_clear (k : Int) :
    (t.clearPendingBinding id).getPendingBinding k =
      if k = id then (t.getPendingBinding k).map fun _ => ("", "")
      else t.getPendingBinding k := by
  rw [getPendingBinding, clearPendingBinding, lookup_update, getPendingBinding]
  by_cases hk : k = id
  · simp [hk, Function.comp_def]
  · simp [hk]

end UserTable

def isEmail (identifier : String) : Bool := '@' ∈ identifier.toList

/-- Trim, fold to lower case and, for Gmail, drop tags and dots. -/
def normalizeEmail (input : String) : String :=
  let trimmed := ((input.toList.dropWhile isSpace).reverse.dropWhile isSpace).reverse
  let folded := String.ofList (trimmed.map Char.toLower)
  match cutFirst '@' folded with
  | none => folded
  | some (localPart, domain) =>
    let localPart' :=
      if domain = "gmail.com" ∨ domain = "googlemail.com" then
        String.ofList ((localPart.toList.takeWhile (· ≠ '+')).filter (· ≠ '.'))
      else localPart
    localPart' ++ "@" ++ domain

def resetFailures (env : AuthEnv) (id : Int) (user : UserRow) (t : UserTable) : UserTable :=
  if user.failedLoginCount > 0 ∧ env.resetFails = false then t.resetFailedLogins id else t

def upgradeHash (crypto : IdentityCrypto) (env : AuthEnv) (password : String) (id : Int)
    (user : UserRow) (t : UserTable) : UserTable :=
  if isLegacyHash user.passwordHash ∧ env.rehashFails = false then
    match hashPassword crypto password env.salt with
    | none => t
    | some newHash => t.updatePasswordHash id newHash
  else t

def afterCorrectPassword (crypto : IdentityCrypto) (env : AuthEnv) (password : String) (id : Int)
    (user : UserRow) (t : UserTable) : UserTable :=
  upgradeHash crypto env password id user (resetFailures env id user t)

def authResultOf (id : Int) (user : Profile) : AuthResult :=
  { internalId := id, publicSub := user.publicSub, emailVerified := user.emailVerified,
    mfaEnabled := user.mfaEnabled }

def findLogin (env : AuthEnv) (p : UserRow → Bool) (t : UserTable) : Option (Int × UserRow) :=
  if env.findFails then none else t.findOne p

def afterWrongPassword (env : AuthEnv) (id : Int) (t : UserTable) : UserTable :=
  if env.incrementFails then t else t.incrementFailedLogins env.now id

def hasIdentifier (identifier : String) (u : UserRow) : Bool :=
  (if isEmail identifier then u.email = some identifier else u.username = some identifier) &&
    !u.deleted

/-- The criteria of the older login path: the email is normalised and deleted users are not
filtered. -/
def hasLegacyIdentifier (identifier : String) (u : UserRow) : Bool :=
  if isEmail identifier then u.email = some (normalizeEmail identifier)
  else u.username = some identifier

/-- `AuthService::validateUser` of the identity library, over `PostgresIdentityRepository`. -/
def validateUser (crypto : IdentityCrypto) (env : AuthEnv) (identifier password : String)
    (t : UserTable) : Validation × UserTable :=
  match findLogin env (hasIdentifier identifier) t with
  | none => (.rejected, t)
  | some (id, user) =>
    if user.lockedUntil > env.now then (.rejected, t)
    else if verifyPassword crypto password user.passwordHash user.salt then
      (.accepted (authResultOf id user.toProfile),
        afterCorrectPassword crypto env password id user t)
    else (.rejected, afterWrongPassword env id t)

/-- `AuthService::validateUser` of the older login path, which checks by `PasswordHasher`. -/
def legacyValidateUser (crypto : IdentityCrypto) (env : AuthEnv) (identifier password : String)
    (t : UserTable) : Validation × UserTable :=
  match findLogin env (hasLegacyIdentifier identifier) t with
  | none => (.rejected, t)
  | some (id, user) =>
    if user.lockedUntil > env.now then (.rejected, t)
    else
      match PasswordHasher.verify crypto password user.passwordHash user.salt with
      | none => (.thrown, t)
      | some true =>
        (.accepted (authResultOf id user.toProfile),
          afterCorrectPassword crypto env password id user t)
      | some false => (.rejected, afterWrongPassword env id t)

/-! ### What the password step changes -/

structure KeepsUsers (t t' : UserTable) : Prop where
  profiles : t'.profiles = t.profiles
  pending : ∀ id, t'.getPendingBinding id = t.getPendingBinding id

/-- A password step keeps profiles and pending bindings and accepts a stored user. -/
structure PasswordStep (t : UserTable) (step : Validation × UserTable) : Prop where
  kept : KeepsUsers t step.2
  accepted : ∀ result, step.1 = .accepted result →
    ∃ id p, t.profiles.table.lookup id = some p ∧ result = authResultOf id p

variable {t t' t'' : UserTable} {crypto : IdentityCrypto} {env : AuthEnv}
  {identifier password : String} {id : Int} {user : UserRow}

theorem KeepsUsers.refl (t : UserTable) : KeepsUsers t t := ⟨rfl, fun _ => rfl⟩

theorem KeepsUsers.trans (h : KeepsUsers t t') (h' : KeepsUsers t' t'') : KeepsUsers t t'' :=
  ⟨h'.profiles.trans h.profiles, fun id => (h'.pending id).trans (h.pending id)⟩

theorem keepsUsers_update {f : UserRow → UserRow} {hf : ∀ u, (f u).toProfile = u.toProfile}
    (hpending : ∀ u, ((f u).mfaPendingClientId, (f u).mfaPendingRedirectUri) =
      (u.mfaPendingClientId, u.mfaPendingRedirectUri)) : KeepsUsers t (t.update id f hf) :=
  ⟨UserTable.profiles_update, UserTable.getPendingBinding_update hpending⟩

theorem keepsUsers_afterWrongPassword : KeepsUsers t (afterWrongPassword env id t) := by
  unfold afterWrongPassword
  split
  · exact .refl t
  · exact keepsUsers_update fun _ => rfl

theorem keepsUsers_resetFailures : KeepsUsers t (resetFailures env id user t) := by
  unfold resetFailures
  split
  · exact keepsUsers_update fun _ => rfl
  · exact .refl t

theorem keepsUsers_upgradeHash : KeepsUsers t (upgradeHash crypto env password id user t) := by
  unfold upgradeHash
  split
  · split
    · exact .refl t
    · exact keepsUsers_update fun _ => rfl
  · exact .refl t

theorem findLogin_eq_some {p : UserRow → Bool} (h : findLogin env p t = some (id, user)) :
    t.rows.lookup id = some user := by
  unfold findLogin at h
  split at h
  · cases h
  · exact (UserTable.findOne_eq_some h).1

theorem PasswordStep.unchanged {v : Validation} (hv : ∀ result, v ≠ .accepted result) :
    PasswordStep t (v, t) :=
  ⟨.refl t, fun result h => absurd h (hv result)⟩

theorem PasswordStep.failed (id : Int) :
    PasswordStep t (.rejected, afterWrongPassword env id t) :=
  ⟨keepsUsers_afterWrongPassword, nofun⟩

theorem PasswordStep.passed (hrow : t.rows.lookup id = some user) :
    PasswordStep t (.accepted (authResultOf id user.toProfile),
      afterCorrectPassword crypto env password id user t) := by
  refine ⟨keepsUsers_resetFailures.trans keepsUsers_upgradeHash, ?_⟩
  intro _ heq
  cases heq
  refine ⟨id, user.toProfile, ?_, rfl⟩
  rw [UserTable.lookup_profiles]
  exact congrArg (Option.map UserRow.toProfile) hrow

theorem passwordStep_validateUser :
    PasswordStep t (validateUser crypto env identifier password t) := by
  unfold validateUser
  split
  · exact .unchanged nofun
  · rename_i id user hfound
    split
    · exact .unchanged nofun
    · split
      · exact .passed (findLogin_eq_some hfound)
      · exact .failed id

theorem passwordStep_legacyValidateUser :
    PasswordStep t (legacyValidateUser crypto env identifier password t) := by
  unfold legacyValidateUser
  split
  · exact .unchanged nofun
  · rename_i id user hfound
    split
    · exact .unchanged nofun
    · split
      · exact .unchanged nofun
      · exact .passed (findLogin_eq_some hfound)
      · exact .failed id

/-! ### The login policy -/

inductive LoginDecision
  | Proceed
  | DenyEmailNotVerified
  | RequireMfa
  deriving DecidableEq, Repr

def evaluateLoginPolicy (authResult : AuthResult) (requireEmailVerification : Bool) :
    LoginDecision :=
  if requireEmailVerification && !authResult.emailVerified then .DenyEmailNotVerified
  else if authResult.mfaEnabled then .RequireMfa
  else .Proceed

end AuthForge.Identity
