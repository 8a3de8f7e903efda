import AuthForge.Base.TimedStore
import AuthForge.Base.Spawn
import AuthForge.Identity.Resolution
import AuthForge.Identity.Statements

/-!
# The cache of user reads

`UserReadCache` around the reads of a user's roles and profile, and the hook that invalidates it, at
the granularity of database statements, Redis commands and memo operations. A command that nobody
waits for runs beside the rest of its request, and calling the caller back is an operation of its
own. A payload is what its JSON text reads back as.
-/

namespace AuthForge.Storage

open Identity

namespace UserReadCache

/-- The members of a profile. -/
structure UserInfo where
  id : Int
  username : String
  email : String
  emailVerified : Bool
  deriving DecidableEq

inductive Payload
  | roles (names : List String)
  | profile (info : UserInfo)
  /-- `kAbsentMarker`. -/
  | absent
  deriving DecidableEq

inductive ReadReply
  | roles (names : List String)
  | profile (info : Option UserInfo)
  | changed
  deriving DecidableEq

/-- What a caller is told for a payload. -/
def Payload.reply : Payload → ReadReply
  | .roles names => .roles names
  | .profile info => .profile (some info)
  | .absent => .profile none

inductive ReadCall
  /-- Which of two commands in flight comes first. -/
  | choose
  | mget (key key' : String)
  | get (key : String)
  | setEx (key : String) (payload : Payload) (ttl : Int)
  | del (key : String)
  | memoProfilePayload (subject : String) (payload : Payload)
  | takeMemoizedProfile (subject : String)
  | dropMemo (subject : String)
  | findById (userId : Int)
  | findByPublicSub (publicSub : String)
  /-- `findBy` on `user_id`. -/
  | findUserRoles (userId : Int)
  /-- `findBy` on the ids. -/
  | findRoles (roleIds : List Int)
  /-- A statement of a write path. -/
  | statement (op : UserCall)
  | callback (reply : ReadReply)

def ReadCall.isStatement : ReadCall → Bool
  | .statement _ => true
  | _ => false

/-- The statements of the reads. -/
def ReadCall.isRead : ReadCall → Bool
  | .findById _ | .findByPublicSub _ | .findUserRoles _ | .findRoles _ => true
  | _ => false

/-- Answers; `none` where a command or a statement fails. The two finds of a user fail also without a
row, and `takeMemoizedProfile` answers `none` without a fresh memo. -/
@[reducible] def ReadCall.Resp : ReadCall → Type
  | .choose => Bool
  | .mget _ _ => Option (Option Payload × Option Payload)
  | .get _ => Option (Option Payload)
  | .setEx _ _ _ => Unit
  | .del _ => Unit
  | .memoProfilePayload _ _ => Unit
  | .takeMemoizedProfile _ => Option Payload
  | .dropMemo _ => Unit
  | .findById _ => Option UserInfo
  | .findByPublicSub _ => Option UserInfo
  | .findUserRoles _ => Option (List Int)
  | .findRoles _ => Option (List String)
  | .statement op => op.Resp
  | .callback _ => Unit

structure ReadEnv extends StatementEnv, CommandEnv

/-! ### The memo -/

/-- `memo_`: payloads with the time at which they were stored, in milliseconds. -/
abbrev Memo := Dict String (Payload × Int)

def kMemoTtl : Int := 2000

namespace Memo

def pruneExpired (now : Int) (m : Memo) : Memo := m.keepValues fun e => now - e.2 ≤ kMemoTtl

def put (now : Int) (subject : String) (payload : Payload) (m : Memo) : Memo :=
  (if m.entries.length > 1024 then m.pruneExpired now else m).insert subject (payload, now)

/-- A memo is taken out whether or not it is still fresh. -/
def take (now : Int) (subject : String) (m : Memo) : Option Payload × Memo :=
  (((m.lookup subject).filter fun e => now - e.2 ≤ kMemoTtl).map Prod.fst, m.erase subject)

end Memo

/-! ### The tables -/

/-- `toUserData` and `buildJson`. -/
def userInfo (id : Int) (u : UserRow) : UserInfo where
  id := id
  username := u.username.getD ""
  email := u.email.getD ""
  emailVerified := u.emailVerified

/-- `findOne` on `id` and `deleted_at IS NULL`. -/
def findById (env : StatementEnv) (userId : Int) (t : IdentityStore) : Option UserInfo :=
  if env.fails then none
  else ((t.users.lookup userId).filter fun u => !u.deleted).map (userInfo userId)

/-- `findOne` on `public_sub` and `deleted_at IS NULL`. -/
def findByPublicSub (env : StatementEnv) (publicSub : String) (t : IdentityStore) :
    Option UserInfo :=
  if env.fails then none
  else (t.findUnique fun u => u.publicSub = publicSub && !u.deleted).map fun e => userInfo e.1 e.2

theorem id_of_findById {env : StatementEnv} {userId : Int} {t : IdentityStore} {user : UserInfo}
    (h : findById env userId t = some user) : user.id = userId := by
  unfold findById at h
  split at h
  · cases h
  · obtain ⟨u, -, rfl⟩ := Option.map_eq_some_iff.mp h
    rfl

def roleIds (userId : Int) (t : IdentityStore) : List Int :=
  (t.userRoles.filter fun ur => ur.1 = userId).map Prod.snd

def namesOf (ids : List Int) (t : IdentityStore) : List String :=
  (t.roles.entries.filter fun e => e.1 ∈ ids).map Sigma.snd

structure ReadStore where
  redis : KeyServer Payload
  memo : Memo
  tables : IdentityStore

def ReadStore.execAt (env : ReadEnv) : (op : ReadCall) → ReadStore → op.Resp × ReadStore
  | .choose, s => (env.taskFirst, s)
  | .mget key key', s => (s.redis.mget env.toCommandEnv key key', s)
  | .get key, s => (s.redis.get env.toCommandEnv key, s)
  | .setEx key payload ttl, s =>
    ((), { s with redis := s.redis.setEx env.toCommandEnv key payload ttl })
  | .del key, s => ((), { s with redis := s.redis.del env.toCommandEnv key })
  | .memoProfilePayload subject payload, s =>
    ((), { s with memo := s.memo.put s.redis.clock subject payload })
  | .takeMemoizedProfile subject, s =>
    let r := s.memo.take s.redis.clock subject
    (r.1, { s with memo := r.2 })
  | .dropMemo subject, s => ((), { s with memo := s.memo.erase subject })
  | .findById userId, s => (UserReadCache.findById env.toStatementEnv userId s.tables, s)
  | .findByPublicSub publicSub, s =>
    (UserReadCache.findByPublicSub env.toStatementEnv publicSub s.tables, s)
  | .findUserRoles userId, s => (if env.fails then none else some (roleIds userId s.tables), s)
  | .findRoles ids, s => (if env.fails then none else some (namesOf ids s.tables), s)
  | .statement op, s =>
    let r := IdentityStore.exec env.toStatementEnv op s.tables
    (r.1, { s with tables := r.2 })
  | .callback _, s => ((), s)

def ReadStore.exec (env : ReadEnv) (op : ReadCall) (s : ReadStore) : op.Resp × ReadStore :=
  ReadStore.execAt env op { s with redis := s.redis.tick env.toCommandEnv }

/-! ### The reads -/

abbrev ReadProg := Prog ReadCall ReadCall.Resp ReadReply
abbrev ReadAnswer := Answer ReadCall ReadCall.Resp

def profileKey (subject : String) : String := "authforge:cache:user:profile:" ++ subject
def rolesKey (subject : String) : String := "authforge:cache:user:roles:" ++ subject

@[simp] theorem profileKey_inj {s t : String} : profileKey s = profileKey t ↔ s = t :=
  String.append_right_inj _

@[simp] theorem rolesKey_inj {s t : String} : rolesKey s = rolesKey t ↔ s = t :=
  String.append_right_inj _

theorem profileKey_ne_rolesKey (s t : String) : profileKey s ≠ rolesKey t :=
  append_ne_append_of_take 22 (by decide) (by decide) (by decide) s t

def kNegativeTtlSeconds : Int := 60

def answer (reply : ReadReply) : ReadProg := .call (.callback reply) fun _ => .ret reply

/-- Send a command without waiting for it. -/
def send (op : ReadCall) (rest : ReadProg) : ReadProg :=
  Prog.spawn .choose id (.call op fun _ => .ret ()) rest

/-- `PostgresIdentityRepository::getRoles` of an internal id. -/
def getRolesOf (userId : Int) (k : List String → ReadProg) : ReadProg :=
  .call (.findUserRoles userId) fun
    | none => k []
    | some [] => k []
    | some ids => .call (.findRoles ids) fun names => k (names.getD [])

/-- `PostgresIdentityRepository::getRoles` of a subject. -/
def fetchRoles (subject : String) (k : List String → ReadProg) : ReadProg :=
  match stoiWhole subject with
  | some numericId => getRolesOf numericId k
  | none =>
    .call (.findByPublicSub subject) fun
      | none => k []
      | some user => getRolesOf user.id k

/-- The uncached `OAuth2Plugin::getUserInfo`. -/
def fetchProfile (subject : String) (k : Option UserInfo → ReadProg) : ReadProg :=
  match stoiWhole subject with
  | some numericId => .call (.findById numericId) k
  | none => .call (.findByPublicSub subject) k

section

variable (profileTtlSeconds rolesTtlSeconds : Int)

/-- `profileTtl_`. -/
def profileTtl : Int := if profileTtlSeconds > 0 then profileTtlSeconds else 300

/-- `rolesTtl_`. -/
def rolesTtl : Int := if rolesTtlSeconds > 0 then rolesTtlSeconds else 120

def fetchAndFillRoles (subject : String) : ReadProg :=
  fetchRoles subject fun names =>
    send (.setEx (rolesKey subject) (.roles names) (rolesTtl rolesTtlSeconds))
      (answer (.roles names))

/-- A profile that is not there is cached as well, for a shorter time. -/
def fetchAndFillProfile (subject : String) : ReadProg :=
  fetchProfile subject fun
    | none =>
      send (.setEx (profileKey subject) .absent kNegativeTtlSeconds) (answer (.profile none))
    | some info =>
      send (.setEx (profileKey subject) (.profile info) (profileTtl profileTtlSeconds))
        (answer (.profile (some info)))

/-- Only where the roles are cached the profile is memoized, also when their payload is corrupt. -/
def getRoles (subject : String) : ReadProg :=
  .call (.mget (rolesKey subject) (profileKey subject)) fun
    | some (some cached, profile) =>
      let next :=
        match cached with
        | .roles names => answer (.roles names)
        | .profile _ | .absent => fetchAndFillRoles rolesTtlSeconds subject
      match profile with
      | none => next
      | some payload => .call (.memoProfilePayload subject payload) fun _ => next
    | some (none, _) | none => fetchAndFillRoles rolesTtlSeconds subject

/-- `none` for a payload that is no JSON object. -/
def parseProfile : Payload → Option (Option UserInfo)
  | .absent => some none
  | .profile info => some (some info)
  | .roles _ => none

def getCachedProfile (subject : String) : ReadProg :=
  .call (.get (profileKey subject)) fun payload =>
    match payload.join.bind parseProfile with
    | some info => answer (.profile info)
    | none => fetchAndFillProfile profileTtlSeconds subject

def getProfile (subject : String) : ReadProg :=
  .call (.takeMemoizedProfile subject) fun payload =>
    match payload.bind parseProfile with
    | some info => answer (.profile info)
    | none => getCachedProfile profileTtlSeconds subject

end

/-! ### The invalidation -/

/-- The hook of the plugin: the memo at once, the two keys without waiting. -/
def invalidate (subject : String) (next : ReadProg) : ReadProg :=
  .call (.dropMemo subject) fun _ =>
    send (.del (profileKey subject)) (send (.del (rolesKey subject)) next)

/-- `UserCacheInvalidator::invalidateUser`. -/
def invalidateUser (subject publicSub : String) (next : ReadProg) : ReadProg :=
  let rest := if publicSub ≠ "" ∧ publicSub ≠ subject then invalidate publicSub next else next
  if subject ≠ "" then invalidate subject rest else rest

/-- A write path: its statements, and the user whose reads it invalidates afterwards. -/
structure Change where
  userId : Int
  publicSub : String
  statements : List UserCall
  deriving DecidableEq

/-- The subjects that the invalidation names. -/
def Change.forms (c : Change) : List String :=
  [toString c.userId, c.publicSub].filter (· ≠ "")

def runStatements (next : ReadProg) : List UserCall → ReadProg
  | [] => next
  | op :: ops => .call (.statement op) fun _ => runStatements next ops

def changeUser (c : Change) : ReadProg :=
  runStatements (invalidateUser (toString c.userId) c.publicSub (answer .changed)) c.statements

inductive ReadRequest
  | getRoles (subject : String)
  | getProfile (subject : String)
  | change (c : Change)
  deriving DecidableEq

section

variable (profileTtlSeconds rolesTtlSeconds : Int)

def program : ReadRequest → ReadProg
  | .getRoles subject => getRoles rolesTtlSeconds subject
  | .getProfile subject => getProfile profileTtlSeconds subject
  | .change c => changeUser c

/-- All interleavings of the requests. -/
def service : Service ReadStore ReadEnv ReadCall ReadCall.Resp ReadRequest ReadReply where
  exec := ReadStore.exec
  program := program profileTtlSeconds rolesTtlSeconds

end

abbrev ReadEvent := Service.Event ReadEnv ReadCall ReadCall.Resp ReadRequest

/-! ### What a step does -/

section Exec

variable {env : ReadEnv} {op : ReadCall} {s : ReadStore}

theorem tables_exec (h : ∀ op', op ≠ .statement op') :
    (ReadStore.exec env op s).2.tables = s.tables := by
  cases op with
  | statement op' => exact absurd rfl (h op')
  | _ => rfl

theorem holds_exec {P : Payload → Prop} {key : String} (h : s.redis.Holds P key)
    (hset : ∀ payload ttl, op = .setEx key payload ttl → P payload) :
    (ReadStore.exec env op s).2.redis.Holds P key := by
  cases op with
  | setEx key' payload ttl =>
    refine KeyServer.Holds.setEx h.tick ?_
    intro hkey
    subst hkey
    exact hset payload ttl rfl
  | del key' => exact KeyServer.Holds.del h.tick key'
  | _ => exact h.tick

theorem memo_exec {P : Payload × Int → Prop} {subject : String} (h : Dict.Holds P subject s.memo)
    (hput : ∀ payload, op = .memoProfilePayload subject payload →
      P (payload, (s.redis.tick env.toCommandEnv).clock)) :
    Dict.Holds P subject (ReadStore.exec env op s).2.memo := by
  cases op with
  | memoProfilePayload subject' payload =>
    have hpruned : Dict.Holds P subject
        (if s.memo.entries.length > 1024 then
          s.memo.pruneExpired (s.redis.tick env.toCommandEnv).clock else s.memo) := by
      split
      · exact h.keepValues _
      · exact h
    refine Dict.Holds.insert hpruned ?_
    intro hsubject
    subst hsubject
    exact hput payload rfl
  | takeMemoizedProfile subject' => exact h.erase subject'
  | dropMemo subject' => exact h.erase subject'
  | _ => exact h

/-- A fresh memo is taken as it was stored. -/
theorem take_eq_some {now : Int} {subject : String} {payload : Payload} {m : Memo}
    (h : (m.take now subject).1 = some payload) : ∃ t, m.lookup subject = some (payload, t) := by
  obtain ⟨e, he, rfl⟩ := Option.map_eq_some_iff.mp h
  exact ⟨e.2, (Option.filter_eq_some_iff.mp he).1⟩

end Exec

/-! ### What a request has seen -/

section Fetched

variable (answers : List ReadAnswer)

/-- The answers give these roles of the user. -/
inductive RolesRead (userId : Int) : List String → Prop
  | failed (h : ⟨.findUserRoles userId, none⟩ ∈ answers) : RolesRead userId []
  | none (h : ⟨.findUserRoles userId, some []⟩ ∈ answers) : RolesRead userId []
  | named {ids : List Int} {found : Option (List String)}
      (hids : ⟨.findUserRoles userId, some ids⟩ ∈ answers)
      (hfound : ⟨.findRoles ids, found⟩ ∈ answers) : RolesRead userId (found.getD [])

inductive RolesFetched (subject : String) : List String → Prop
  | ofId {id : Int} {names : List String} (hid : stoiWhole subject = some id)
      (h : RolesRead answers id names) : RolesFetched subject names
  | noUser (hid : stoiWhole subject = none) (h : ⟨.findByPublicSub subject, none⟩ ∈ answers) :
      RolesFetched subject []
  | ofUser {user : UserInfo} {names : List String} (hid : stoiWhole subject = none)
      (huser : ⟨.findByPublicSub subject, some user⟩ ∈ answers)
      (h : RolesRead answers user.id names) : RolesFetched subject names

inductive ProfileFetched (subject : String) (info : Option UserInfo) : Prop
  | byId {id : Int} (hid : stoiWhole subject = some id) (h : ⟨.findById id, info⟩ ∈ answers)
  | bySub (hid : stoiWhole subject = none) (h : ⟨.findByPublicSub subject, info⟩ ∈ answers)

/-- A payload that is stored under one of the keys of a subject was read for that subject. -/
def PayloadFetched (key : String) (payload : Payload) : Prop :=
  ∃ subject,
    (∃ names, key = rolesKey subject ∧ payload = .roles names ∧
      RolesFetched answers subject names) ∨
    ∃ info, key = profileKey subject ∧ payload.reply = .profile info ∧
      ProfileFetched answers subject info

end Fetched

def Seen (req : ReadRequest) (answers : List ReadAnswer) : ReadCall → Prop
  | .setEx key payload _ => PayloadFetched answers key payload
  | .memoProfilePayload subject payload =>
    ∃ cached, ⟨.mget (rolesKey subject) (profileKey subject), some (some cached, some payload)⟩ ∈
      answers
  | .del key =>
    ∃ subject, (key = profileKey subject ∨ key = rolesKey subject) ∧
      ⟨.dropMemo subject, ()⟩ ∈ answers
  | .callback (.roles names) =>
    ∃ subject, req = .getRoles subject ∧
      ((∃ profile, ⟨.mget (rolesKey subject) (profileKey subject),
          some (some (.roles names), profile)⟩ ∈ answers) ∨
        RolesFetched answers subject names)
  | .callback (.profile info) =>
    ∃ subject, req = .getProfile subject ∧
      ((∃ payload, payload.reply = .profile info ∧
          (⟨.takeMemoizedProfile subject, some payload⟩ ∈ answers ∨
            ⟨.get (profileKey subject), some (some payload)⟩ ∈ answers)) ∨
        ProfileFetched answers subject info)
  | .callback .changed => ∃ c, req = .change c
  | _ => True

variable {req : ReadRequest} {answers answers' : List ReadAnswer} {subject : String}

theorem RolesRead.mono {userId : Int} {names : List String} (h : RolesRead answers userId names)
    (hsub : answers ⊆ answers') : RolesRead answers' userId names := by
  cases h with
  | failed h => exact .failed (hsub h)
  | none h => exact .none (hsub h)
  | named hids hfound => exact .named (hsub hids) (hsub hfound)

theorem RolesFetched.mono {names : List String} (h : RolesFetched answers subject names)
    (hsub : answers ⊆ answers') : RolesFetched answers' subject names := by
  cases h with
  | ofId hid h => exact .ofId hid (h.mono hsub)
  | noUser hid h => exact .noUser hid (hsub h)
  | ofUser hid huser h => exact .ofUser hid (hsub huser) (h.mono hsub)

theorem ProfileFetched.mono {info : Option UserInfo} (h : ProfileFetched answers subject info)
    (hsub : answers ⊆ answers') : ProfileFetched answers' subject info := by
  cases h with
  | byId hid h => exact .byId hid (hsub h)
  | bySub hid h => exact .bySub hid (hsub h)

theorem PayloadFetched.mono {key : String} {payload : Payload}
    (h : PayloadFetched answers key payload) (hsub : answers ⊆ answers') :
    PayloadFetched answers' key payload := by
  obtain ⟨subject, ⟨names, hkey, hpayload, h⟩ | ⟨info, hkey, hpayload, h⟩⟩ := h
  · exact ⟨subject, .inl ⟨names, hkey, hpayload, h.mono hsub⟩⟩
  · exact ⟨subject, .inr ⟨info, hkey, hpayload, h.mono hsub⟩⟩

theorem Seen.mono {op : ReadCall} (h : Seen req answers op) (hsub : answers ⊆ answers') :
    Seen req answers' op := by
  cases op with
  | setEx key payload ttl => exact PayloadFetched.mono h hsub
  | memoProfilePayload subject payload =>
    obtain ⟨cached, hmget⟩ := h
    exact ⟨cached, hsub hmget⟩
  | del key =>
    obtain ⟨subject, hkey, hdrop⟩ := h
    exact ⟨subject, hkey, hsub hdrop⟩
  | callback reply =>
    cases reply with
    | roles names =>
      obtain ⟨subject, hreq, ⟨profile, hmget⟩ | h⟩ := h
      · exact ⟨subject, hreq, .inl ⟨profile, hsub hmget⟩⟩
      · exact ⟨subject, hreq, .inr (h.mono hsub)⟩
    | profile info =>
      obtain ⟨subject, hreq, ⟨payload, hreply, htake | hget⟩ | h⟩ := h
      · exact ⟨subject, hreq, .inl ⟨payload, hreply, .inl (hsub htake)⟩⟩
      · exact ⟨subject, hreq, .inl ⟨payload, hreply, .inr (hsub hget)⟩⟩
      · exact ⟨subject, hreq, .inr (h.mono hsub)⟩
    | changed => exact h
  | _ => trivial

theorem traced_send {op : ReadCall} {rest : ReadProg} (hop : Seen req answers op)
    (hrest : rest.Traced (Seen req) answers) : (send op rest).Traced (Seen req) answers :=
  Prog.traced_spawn (fun _ _ _ h hsub => h.mono hsub) (fun _ => trivial)
    (List.Subset.refl answers) (List.Subset.refl answers) (.call hop fun _ => trivial) hrest

theorem traced_answer {reply : ReadReply} (h : Seen req answers (.callback reply)) :
    (answer reply).Traced (Seen req) answers :=
  ⟨h, fun _ => trivial⟩

theorem traced_getRolesOf {userId : Int} {k : List String → ReadProg}
    (hk : ∀ answers' names, answers ⊆ answers' → RolesRead answers' userId names →
      (k names).Traced (Seen req) answers') :
    (getRolesOf userId k).Traced (Seen req) answers := by
  refine .call trivial fun ids => ?_
  rcases ids with _ | _ | ⟨id, ids⟩
  · exact hk _ _ (List.subset_append_left _ _) (.failed (by simp))
  · exact hk _ _ (List.subset_append_left _ _) (.none (by simp))
  · refine .call trivial fun found => ?_
    have hids : ⟨.findUserRoles userId, some (id :: ids)⟩ ∈ answers ++
        [⟨.findUserRoles userId, some (id :: ids)⟩] ++ [⟨.findRoles (id :: ids), found⟩] := by
      simp
    refine hk _ _ ?_ (.named hids (by simp))
    rw [List.append_assoc]
    exact List.subset_append_left _ _

theorem traced_fetchRoles {k : List String → ReadProg}
    (hk : ∀ answers' names, RolesFetched answers' subject names →
      (k names).Traced (Seen req) answers') :
    (fetchRoles subject k).Traced (Seen req) answers := by
  unfold fetchRoles
  split
  · rename_i id hid
    exact traced_getRolesOf fun answers' names _ h => hk answers' names (.ofId hid h)
  · rename_i hid
    refine .call trivial fun user => ?_
    cases user with
    | none => exact hk _ _ (.noUser hid (by simp))
    | some user =>
      refine traced_getRolesOf fun answers' names hsub h => hk answers' names ?_
      exact .ofUser hid (hsub (by simp)) h

theorem traced_fetchProfile {k : Option UserInfo → ReadProg}
    (hk : ∀ answers' info, ProfileFetched answers' subject info →
      (k info).Traced (Seen req) answers') :
    (fetchProfile subject k).Traced (Seen req) answers := by
  unfold fetchProfile
  split
  · rename_i id hid
    exact .call trivial fun info => hk _ info (.byId hid (by simp))
  · rename_i hid
    exact .call trivial fun info => hk _ info (.bySub hid (by simp))

section

variable {profileTtlSeconds rolesTtlSeconds : Int}

theorem traced_fetchAndFillRoles :
    (fetchAndFillRoles rolesTtlSeconds subject).Traced (Seen (.getRoles subject)) answers := by
  refine traced_fetchRoles fun answers' names h => ?_
  exact traced_send ⟨subject, .inl ⟨names, rfl, rfl, h⟩⟩ (traced_answer ⟨subject, rfl, .inr h⟩)

theorem traced_fetchAndFillProfile :
    (fetchAndFillProfile profileTtlSeconds subject).Traced (Seen (.getProfile subject)) answers := by
  refine traced_fetchProfile fun answers' info h => ?_
  cases info with
  | none =>
    exact traced_send ⟨subject, .inr ⟨none, rfl, rfl, h⟩⟩ (traced_answer ⟨subject, rfl, .inr h⟩)
  | some info =>
    exact traced_send ⟨subject, .inr ⟨some info, rfl, rfl, h⟩⟩
      (traced_answer ⟨subject, rfl, .inr h⟩)

theorem traced_getRoles :
    (getRoles rolesTtlSeconds subject).Traced (Seen (.getRoles subject)) [] := by
  refine .call trivial fun found => ?_
  rcases found with _ | ⟨_ | cached, profile⟩
  · exact traced_fetchAndFillRoles
  · exact traced_fetchAndFillRoles
  · -- What is done with the cached roles, whether or not a memo was stored first.
    have hnext : ∀ answers', ⟨.mget (rolesKey subject) (profileKey subject),
          some (some cached, profile)⟩ ∈ answers' →
        Prog.Traced (Seen (.getRoles subject)) answers'
          (match cached with
            | .roles names => answer (.roles names)
            | .profile _ | .absent => fetchAndFillRoles rolesTtlSeconds subject) := by
      intro answers' hmget
      cases cached with
      | roles names => exact traced_answer ⟨subject, rfl, .inl ⟨profile, hmget⟩⟩
      | profile info => exact traced_fetchAndFillRoles
      | absent => exact traced_fetchAndFillRoles
    cases profile with
    | none => exact hnext _ (by simp)
    | some payload => exact .call ⟨cached, by simp⟩ fun _ => hnext _ (by simp)

theorem reply_of_parseProfile {payload : Payload} {info : Option UserInfo}
    (h : parseProfile payload = some info) : payload.reply = .profile info := by
  cases payload with
  | roles names => cases h
  | profile info' =>
    obtain rfl := Option.some.inj h
    rfl
  | absent =>
    obtain rfl := Option.some.inj h
    rfl

theorem traced_getCachedProfile :
    (getCachedProfile profileTtlSeconds subject).Traced (Seen (.getProfile subject)) answers := by
  refine .call trivial fun payload => ?_
  split
  · rename_i info hinfo
    obtain ⟨payload', hpayload, hparse⟩ := Option.bind_eq_some_iff.mp hinfo
    obtain rfl := Option.join_eq_some_iff.mp hpayload
    exact traced_answer
      ⟨subject, rfl, .inl ⟨payload', reply_of_parseProfile hparse, .inr (by simp)⟩⟩
  · exact traced_fetchAndFillProfile

theorem traced_getProfile :
    (getProfile profileTtlSeconds subject).Traced (Seen (.getProfile subject)) [] := by
  refine .call trivial fun payload => ?_
  split
  · rename_i info hinfo
    obtain ⟨payload', rfl, hparse⟩ := Option.bind_eq_some_iff.mp hinfo
    exact traced_answer
      ⟨subject, rfl, .inl ⟨payload', reply_of_parseProfile hparse, .inl (by simp)⟩⟩
  · exact traced_getCachedProfile

theorem traced_invalidate {next : ReadProg}
    (hnext : ∀ answers', next.Traced (Seen req) answers') :
    (invalidate subject next).Traced (Seen req) answers :=
  .call trivial fun _ => traced_send ⟨subject, .inl rfl, by simp⟩
    (traced_send ⟨subject, .inr rfl, by simp⟩ (hnext _))

theorem traced_invalidateUser {publicSub : String} {next : ReadProg}
    (hnext : ∀ answers', next.Traced (Seen req) answers') :
    (invalidateUser subject publicSub next).Traced (Seen req) answers := by
  have hrest : ∀ answers', Prog.Traced (Seen req) answers'
      (if publicSub ≠ "" ∧ publicSub ≠ subject then invalidate publicSub next else next) := by
    intro answers'
    split
    · exact traced_invalidate hnext
    · exact hnext answers'
  unfold invalidateUser
  dsimp only
  split
  · exact traced_invalidate hrest
  · exact hrest answers

theorem traced_runStatements {next : ReadProg}
    (hnext : ∀ answers', next.Traced (Seen req) answers') (ops : List UserCall) :
    (runStatements next ops).Traced (Seen req) answers := by
  induction ops generalizing answers with
  | nil => exact hnext answers
  | cons op ops ih => exact .call trivial fun _ => ih

theorem traced_program (req : ReadRequest) :
    (program profileTtlSeconds rolesTtlSeconds req).Traced (Seen req) [] := by
  cases req with
  | getRoles subject => exact traced_getRoles
  | getProfile subject => exact traced_getProfile
  | change c =>
    refine traced_runStatements ?_ c.statements
    intro answers'
    refine traced_invalidateUser ?_
    intro answers''
    exact traced_answer ⟨c, rfl⟩

end

/-! ### What a write path has done when it invalidates -/

/-- A write path invalidates after all its statements. -/
def Completed (c : Change) (answers : List ReadAnswer) : ReadCall → Prop
  | .del _ | .dropMemo _ => c.statements.length ≤ answers.countP fun a => a.op.isStatement
  | _ => True

theorem completed_changeUser (c : Change) : (changeUser c).Traced (Completed c) [] := by
  have hall : ∀ (ops : List UserCall) (answers : List ReadAnswer),
      c.statements.length ≤ (answers.countP fun a => a.op.isStatement) + ops.length →
      (runStatements (invalidateUser (toString c.userId) c.publicSub (answer .changed))
        ops).Traced (Completed c) answers := by
    intro ops
    induction ops with
    | nil =>
      intro answers hle
      refine Prog.Traced.of_only (P := fun _ => True) ?_ (Prog.only_of_forall (fun _ => trivial) _)
      intro later op _
      have hmore : c.statements.length ≤ (answers ++ later).countP fun a => a.op.isStatement := by
        rw [List.countP_append]
        exact le_trans hle (Nat.le_add_right _ _)
      cases op with
      | del key => exact hmore
      | dropMemo subject => exact hmore
      | _ => trivial
    | cons op ops ih =>
      intro answers hle
      refine .call trivial fun r => ih _ ?_
      have hone : [(⟨.statement op, r⟩ : ReadAnswer)].countP (fun a => a.op.isStatement) = 1 := rfl
      rw [List.length_cons] at hle
      rw [List.countP_append, hone]
      omega
  exact hall c.statements [] (by simp)

end UserReadCache

end AuthForge.Storage
