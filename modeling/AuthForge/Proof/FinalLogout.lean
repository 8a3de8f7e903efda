import AuthForge.Spa.Admin
import AuthForge.Spa.User

/-!
# Logging out is final and confined

A logout reads the tokens, waits for the network and then clears whatever is held; a refresh or a
login writes whenever its answer comes. Both frontends are clients of sessions in which a logout is
final and confined as long as every answer with tokens is allowed to write them.
-/

namespace AuthForge.FinalLogout

open Spa Sessions Sessions.Client

/-! ### The admin console -/

namespace Admin

open Spa.Admin

def isLogout : Task → Prop
  | .logout _ => True
  | _ => False

def client (s : Page) : Client Task Token := ⟨s.tasks, marks s.log, s.held⟩

/-- The activity that the answer brings tokens to. -/
def brings (s : Page) : Input → Option Nat
  | .answer id (.tokens _ _) =>
    match s.tasks[id]? with
    | some (.request (.exchange _) _ _) | some (.request .loginTokens _ _) => some id
    | _ => none
  | _ => none

def writesAllowed : Guard Page Input Input := fun _ s i =>
  ∀ id, brings s i = some id → Allowed (marks s.log) id

variable {s : Page} {id : Nat} {t : Task}

abbrev Leads (s s' : Page) : Prop := Moves isLogout (client s) (client s')

theorem client_note {n : Note} (hn : n.mark = none) : client (s.note n) = client s := by
  unfold client marks
  change (⟨s.tasks, (n :: s.log).filterMap Note.mark, s.held⟩ : Client Task Token) = _
  rw [List.filterMap_cons_none hn]

theorem leads_add (ht : ¬isLogout t) : Leads s (s.add t) := .single (.add t ht)

theorem leads_setTask {old : Task} (hold : s.tasks[id]? = some old)
    (ht : isLogout t → isLogout old) : Leads s (s.setTask id t) :=
  .single (.set t hold ht)

theorem leads_clear {left : Nat} (hold : s.tasks[id]? = some (.logout left)) :
    Leads s ((s.setTask id .done).clear id) :=
  .single (.clear Task.done hold trivial not_false)

theorem leads_logout : Leads s s.logout := by
  unfold Page.logout
  dsimp only
  split
  · exact moves_logout (b := Task.logout 0) trivial not_false
  · exact .single (.call _)

theorem leads_of_client_eq {s' : Page} (h : client s' = client s) : Leads s s' := by
  unfold Leads
  rw [h]

theorem held_ne_nil {value : Token} (h : s.refreshToken = some value) : s.held ≠ [] := by
  unfold Page.held
  rw [h]
  simp

/-- A refresh begins only while a refresh token is held. -/
theorem leads_refresh {value : Token} (h : s.refreshToken = some value) :
    Leads s (s.refresh value).2 := by
  unfold Page.refresh
  split
  · exact .refl
  · have hadded : Leads s (s.send (.exchange value)) := leads_add not_false
    exact .tail hadded (.begin s.tasks.length false fun _ => held_ne_nil h)

theorem leads_restoreSession : Leads s s.restoreSession := by
  unfold Page.restoreSession
  split
  · exact .refl
  · rename_i value hvalue
    have hsub : ({ s with refreshToken := some value } : Page).held ⊆ s.held := by
      unfold Page.held
      rw [hvalue]
      intro token htoken
      simp only [List.mem_append, Option.mem_toList] at htoken ⊢
      rcases htoken with (htoken | htoken) | htoken
      · exact .inl (.inl htoken)
      · exact .inr htoken
      · exact .inr htoken
    have hread : Leads s { s with refreshToken := some value } := .single (.shrink hsub)
    have hrefreshed := leads_refresh (s := { s with refreshToken := some value }) rfl
    exact (hread.trans hrefreshed).trans (leads_add not_false)

theorem leads_fetchUserInfo : Leads s s.fetchUserInfo := by
  unfold Page.fetchUserInfo
  split
  · exact .refl
  · exact leads_add not_false

theorem leads_checkRole (login : Bool) : Leads s (s.checkRole login) := by
  unfold Page.checkRole
  split
  · exact leads_logout
  · exact .refl

/-- An activity that is no logout is over. -/
theorem leads_done {old : Task} (hold : s.tasks[id]? = some old) : Leads s (s.setTask id .done) :=
  leads_setTask hold nofun

theorem leads_settle {old : Task} (hold : s.tasks[id]? = some old) (ok : Bool) :
    Leads s (s.settle id ok) := by
  have hset : Leads s (s.setTask id .done) := leads_done hold
  exact hset

theorem leads_fail {old : Task} (hold : s.tasks[id]? = some old) (owner : Owner) :
    Leads s (s.fail id owner) := by
  cases owner with
  | exchange value => exact (leads_settle hold false).trans leads_logout
  | userInfo login => exact ((leads_done hold).trans leads_logout).trans (leads_checkRole login)
  | view | loginCode | loginTokens => exact leads_done hold

/-- Tokens are written. -/
theorem leads_setTokens (h : Allowed (marks s.log) id) (access refresh : Token) {n : Note}
    (hn : n.mark = some (.wrote id)) : Leads s ((s.setTokens access refresh).note n) := by
  have hmarks : marks (n :: s.log) = .wrote id :: marks s.log := List.filterMap_cons_some hn
  have hwrite : Move isLogout (client s) ⟨s.tasks, .wrote id :: marks s.log,
      (s.setTokens access refresh).held⟩ := .write id h
  rw [← hmarks] at hwrite
  exact .single hwrite

/-- The outcome of the owner's request is tokens. -/
def Bringing : Owner → Prop
  | .exchange _ | .loginTokens => True
  | _ => False

theorem brings_eq {owner : Owner} {retry : Bool} {bearer : Option Token}
    (ht : s.tasks[id]? = some (.request owner retry bearer)) (howner : Bringing owner)
    {access refresh : Token} : brings s (.answer id (.tokens access refresh)) = some id := by
  unfold brings
  dsimp only
  rw [ht]
  cases owner with
  | exchange | loginTokens => rfl
  | view | userInfo | loginCode => exact howner.elim

theorem leads_succeed {owner : Owner} {retry : Bool} {bearer : Option Token}
    (ht : s.tasks[id]? = some (.request owner retry bearer)) (a : Spa.Answer)
    (hok : writesAllowed [] s (.answer id a)) : Leads s (s.succeed id owner a) := by
  cases owner with
  | view => exact leads_done ht
  | exchange value =>
    cases a with
    | tokens access refresh =>
      have hallowed : Allowed (marks s.log) id := hok id (brings_eq ht trivial)
      have hwritten := leads_setTokens hallowed access refresh (n := .received id access refresh) rfl
      exact hwritten.trans (leads_settle (s := (s.setTokens access refresh).note _) ht true)
    | code | mfaRequired | info | ok | unauthorized | failed => exact .refl
  | userInfo login =>
    cases a with
    | info admin =>
      have hset : Leads s { s with admin := admin } := .refl
      exact (hset.trans (leads_done (s := { s with admin := admin }) ht)).trans
        (leads_checkRole login)
    | tokens | code | mfaRequired | ok | unauthorized | failed => exact .refl
  | loginCode =>
    cases a with
    | code => exact leads_setTask ht nofun
    | mfaRequired => exact leads_done ht
    | tokens | info | ok | unauthorized | failed => exact .refl
  | loginTokens =>
    cases a with
    | tokens access refresh =>
      have hallowed : Allowed (marks s.log) id := hok id (brings_eq ht trivial)
      have hwritten := leads_setTokens hallowed access refresh (n := .loggedIn id) rfl
      exact hwritten.trans (leads_setTask (s := (s.setTokens access refresh).note _) ht nofun)
    | code | mfaRequired | info | ok | unauthorized | failed => exact .refl

theorem leads_unauthorized (ht : s.tasks[id]? = some t) (retry : Bool) (owner : Owner) :
    Leads s (s.unauthorized id retry owner) := by
  unfold Page.unauthorized
  split
  · exact leads_fail ht owner
  · rename_i value hvalue
    split
    · exact leads_fail ht owner
    · have hwaiting : Leads s ((s.refresh value).2.setTask id (.awaiting owner (s.refresh value).1)) :=
        (leads_refresh hvalue).trans (leads_setTask (Page.getElem?_refresh ht value) nofun)
      cases owner with
      | exchange v =>
        refine hwaiting.trans (leads_of_client_eq ?_)
        exact client_note rfl
      | view | userInfo | loginCode | loginTokens => exact hwaiting

theorem leads_answer (a : Spa.Answer) (hok : writesAllowed [] s (.answer id a)) :
    Leads s (s.answer id a) := by
  unfold Page.answer
  split
  · rename_i owner retry bearer ht
    split
    · exact leads_unauthorized ht retry owner
    · exact leads_fail ht owner
    · exact leads_succeed ht _ hok
  · rename_i left ht
    split
    · exact leads_clear ht
    · exact leads_setTask ht fun _ => trivial
  · exact .refl

theorem leads_resume : Leads s (s.resume id) := by
  unfold Page.resume
  split
  · rename_i owner p ht
    split
    · have hset : Leads s (s.setTask id (.request owner true s.accessToken)) :=
        leads_setTask ht nofun
      exact hset.trans (leads_of_client_eq (client_note rfl))
    · exact leads_logout.trans (leads_fail (Page.getElem?_logout ht) owner)
    · exact .refl
  · rename_i p ht
    split
    · exact (leads_done ht).trans leads_fetchUserInfo
    · exact leads_done ht
    · exact .refl
  · exact .refl

theorem leads_step {i : Input} (hok : writesAllowed [] s i) : Leads s (s.step i) := by
  cases i with
  | request => exact leads_add not_false
  | fetchUserInfo => exact leads_fetchUserInfo
  | restoreSession => exact leads_restoreSession
  | ensureSessionRestored =>
    change Leads s s.ensureSessionRestored
    unfold Page.ensureSessionRestored
    split
    · exact .refl
    · have hrestored : Leads s s.restoreSession := leads_restoreSession
      exact hrestored
  | login =>
    have hcalled : Leads s (s.note (.loginCalled s.tasks.length)) :=
      .single (.begin s.tasks.length true nofun)
    exact hcalled.trans (leads_add not_false)
  | logout => exact leads_logout
  | answer id a => exact leads_answer a hok
  | resume id => exact leads_resume

theorem sound_load (r₀ : Option Token) : Sound isLogout (client (load r₀)) :=
  sound_start [] _ nofun

theorem sound_of_run {r₀ : Option Token} {history : List Input}
    (hrun : machine.Run writesAllowed (load r₀) history s) : Sound isLogout (client s) := by
  induction hrun with
  | init => exact sound_load r₀
  | next i _ hok ih => exact ih.moves (leads_step hok)

end Admin

/-! ### The user frontend -/

namespace User

open Spa.User

def isLogout : Task → Prop
  | .revoking _ | .endingSession => True
  | _ => False

def client (s : Page) : Client Task Token := ⟨s.tasks, marks s.log, s.held⟩

/-- The activity that the answer brings tokens to. -/
def brings (s : Page) : Input → Option Nat
  | .answer id (.tokens _ _) =>
    match s.tasks[id]? with
    | some (.exchange _ _) | some (.login _) => some id
    | _ => none
  | _ => none

def writesAllowed : Guard Page Input Input := fun _ s i =>
  ∀ id, brings s i = some id → Allowed (marks s.log) id

variable {s : Page} {id : Nat} {t old : Task}

abbrev Leads (s s' : Page) : Prop := Moves isLogout (client s) (client s')

theorem leads_add (ht : ¬isLogout t) : Leads s (s.add t) := .single (.add t ht)

theorem leads_setTask (hold : s.tasks[id]? = some old) (ht : isLogout t → isLogout old) :
    Leads s (s.setTask id t) :=
  .single (.set t hold ht)

theorem leads_clear (hold : s.tasks[id]? = some old) (hlogout : isLogout old) :
    Leads s (s.clear id) :=
  .single (.clear Task.done hold hlogout not_false)

theorem leads_logout : Leads s s.logout := by
  unfold Page.logout
  dsimp only
  split
  · exact .single (.call _)
  · exact .single (.call _)

theorem leads_clearTokens : Leads s s.clearTokens :=
  .single (.shrink (List.nil_subset _))

theorem held_ne_nil {value : Token} (h : s.refreshToken = some value) : s.held ≠ [] := by
  unfold Page.held
  rw [h]
  simp

/-- A refresh begins only while a refresh token is held. -/
theorem leads_tryRestoreSession (refresher : Refresher) :
    Leads s (s.tryRestoreSession refresher) := by
  unfold Page.tryRestoreSession
  split
  · exact .refl
  · rename_i value hvalue
    have hadded : Leads s (s.add (.exchange value refresher)) := leads_add not_false
    exact .tail hadded (.begin s.tasks.length false fun _ => held_ne_nil hvalue)

theorem leads_restoreSession : Leads s s.restoreSession := by
  unfold Page.restoreSession
  split
  · exact .refl
  · dsimp only
    split
    · exact .refl
    · exact leads_tryRestoreSession (s := { s with sessionRestored := true }) .store

theorem leads_link : Leads s s.link := by
  unfold Page.link
  split
  · exact leads_add not_false
  · exact leads_tryRestoreSession .link

theorem leads_loginCalled : Leads s (s.note (.loginCalled s.tasks.length)) :=
  .single (.begin s.tasks.length true nofun)

/-- Tokens are written. -/
theorem leads_setTokens (h : Allowed (marks s.log) id) (access refresh : Token) {n : Note}
    (hn : n.mark = some (.wrote id)) : Leads s ((s.setTokens access refresh).note n) := by
  have hmarks : marks (n :: s.log) = .wrote id :: marks s.log := List.filterMap_cons_some hn
  have hwrite : Move isLogout (client s) ⟨s.tasks, .wrote id :: marks s.log,
      (s.setTokens access refresh).held⟩ := .write id h
  rw [← hmarks] at hwrite
  exact .single hwrite

theorem leads_unauthorized (ht : s.tasks[id]? = some old) (oauthRoute retry : Bool) :
    Leads s (s.unauthorized id oauthRoute retry) := by
  unfold Page.unauthorized
  split
  · exact leads_setTask ht nofun
  · rename_i value hvalue
    split
    · exact leads_setTask ht nofun
    · have hset : Leads s (s.setTask id (.exchange value .interceptor)) := leads_setTask ht nofun
      exact .tail hset (.begin id false fun _ => held_ne_nil hvalue)

theorem leads_refreshed (ht : s.tasks[id]? = some old) (refresher : Refresher) :
    Leads s (s.refreshed id refresher) := by
  cases refresher with
  | store =>
    have hdone : Leads s (s.setTask id .done) := leads_setTask ht nofun
    exact hdone.trans (leads_add not_false)
  | link => exact leads_setTask ht nofun
  | interceptor =>
    have hset : Leads s (s.setTask id (.request false true s.accessToken)) :=
      leads_setTask ht nofun
    exact hset

theorem leads_exchanged {value : Token} {refresher : Refresher}
    (ht : s.tasks[id]? = some (.exchange value refresher)) (a : Spa.Answer)
    (hok : writesAllowed [] s (.answer id a)) : Leads s (s.exchanged id refresher a) := by
  cases a with
  | tokens access refresh =>
    have hallowed : Allowed (marks s.log) id := hok id (by unfold brings; dsimp only; rw [ht])
    have hwritten := leads_setTokens hallowed access refresh (n := .received id access refresh) rfl
    exact hwritten.trans (leads_refreshed (s := (s.setTokens access refresh).note _) ht refresher)
  | unauthorized | failed =>
    exact leads_clearTokens.trans (leads_setTask (s := s.clearTokens) ht nofun)
  | code | mfaRequired | info | ok => exact .refl

theorem leads_loginAnswered {l : Login} (ht : s.tasks[id]? = some (.login l)) (a : Spa.Answer)
    (hok : writesAllowed [] s (.answer id a)) : Leads s (s.loginAnswered id l a) := by
  have hdone : Leads s (s.setTask id .done) := leads_setTask ht nofun
  cases a with
  | tokens access refresh =>
    have hallowed : Allowed (marks s.log) id := hok id (by unfold brings; dsimp only; rw [ht])
    have hwritten := leads_setTokens hallowed access refresh (n := .loggedIn id) rfl
    have hover : Leads _ (((s.setTokens access refresh).note (.loggedIn id)).setTask id .done) :=
      leads_setTask (s := (s.setTokens access refresh).note _) ht nofun
    exact (hwritten.trans hover).trans (leads_add not_false)
  | unauthorized | failed => cases l <;> exact hdone
  | code | mfaRequired | info | ok =>
    cases l with
    | verifyMfa | githubLogin => exact hdone
    | loginTokens | exchangeCode => exact .refl

theorem leads_answer (a : Spa.Answer) (hok : writesAllowed [] s (.answer id a)) :
    Leads s (s.answer id a) := by
  unfold Page.answer
  split
  · rename_i ht
    split
    · exact leads_unauthorized ht _ _
    · exact leads_setTask ht nofun
  · rename_i ht
    exact leads_exchanged ht a hok
  · rename_i ht
    split
    · exact leads_setTask ht nofun
    · exact leads_setTask ht nofun
  · rename_i ht
    exact leads_loginAnswered ht a hok
  · rename_i ht
    split
    · exact leads_clear ht trivial
    · split
      · exact leads_setTask ht fun _ => trivial
      · exact leads_setTask ht fun _ => trivial
  · rename_i ht
    exact leads_clear ht trivial
  · exact .refl

theorem leads_step {i : Input} (hok : writesAllowed [] s i) : Leads s (s.step i) := by
  cases i with
  | request oauthRoute => exact leads_add not_false
  | restoreSession => exact leads_restoreSession
  | link => exact leads_link
  | login | verifyMfa | exchangeCode | githubLogin =>
    exact leads_loginCalled.trans (leads_add not_false)
  | logout => exact leads_logout
  | answer id a => exact leads_answer a hok

theorem sound_load (r₀ : Option Token) : Sound isLogout (client (load r₀)) :=
  sound_start [] _ nofun

theorem sound_of_run {r₀ : Option Token} {history : List Input}
    (hrun : machine.Run writesAllowed (load r₀) history s) : Sound isLogout (client s) := by
  induction hrun with
  | init => exact sound_load r₀
  | next i _ hok ih => exact ih.moves (leads_step hok)

end User

/-! ### Both frontends -/

/-- After a logout nothing is held or persisted until a login from after its call has written, and
it has cleared only what was held when it was called. -/
def FinalAndConfined (log : List Note) (held : List Token) : Prop :=
  Final (marks log) held ∧ Confined (marks log)

/-- Logouts are final and confined in both frontends, in every run where no logout is pending when
an answer brings tokens, and the activity that it brings them to is younger than every finished
logout that no other login has followed. -/
theorem logout_final_and_confined (r₀ : Option Token) :
    (∀ (history : List Spa.Admin.Input) (s : Spa.Admin.Page),
      Spa.Admin.machine.Run Admin.writesAllowed (Spa.Admin.load r₀) history s →
        FinalAndConfined s.log s.held) ∧
    ∀ (history : List Spa.User.Input) (s : Spa.User.Page),
      Spa.User.machine.Run User.writesAllowed (Spa.User.load r₀) history s →
        FinalAndConfined s.log s.held := by
  constructor
  · intro history s hrun
    have hsound := (Admin.sound_of_run hrun).sessions
    exact ⟨hsound.final, hsound.confined⟩
  · intro history s hrun
    have hsound := (User.sound_of_run hrun).sessions
    exact ⟨hsound.final, hsound.confined⟩

/-- A login that begins after a logout has finished may write. -/
theorem allowed_after_logout (l w : Nat) (held : List Token) :
    Allowed [.began w true, .cleared l held, .called l held] w where
  pending l' := by
    rintro ⟨⟨H, hcalled⟩, hopen⟩
    have heq : l' = l := by
      simp at hcalled
      exact hcalled.1
    subst heq
    exact hopen held (by simp)
  younger later earlier l' H heq := by
    right
    right
    cases later with
    | nil => cases heq
    | cons m later =>
      have htail := (List.cons.inj heq).2
      obtain rfl := (List.cons.inj heq).1
      cases later with
      | nil =>
        obtain ⟨hcleared, rfl⟩ := List.cons.inj htail
        obtain ⟨rfl, rfl⟩ := Mark.cleared.inj hcleared
        exact ⟨[], [], _, rfl, List.mem_cons_self⟩
      | cons m' later =>
        have hcalled : [Mark.called l held] = later ++ .cleared l' H :: earlier :=
          (List.cons.inj htail).2
        have hmem : .cleared l' H ∈ [Mark.called l held] := by
          rw [hcalled]
          simp
        simp at hmem

def loggingInAgain : List Spa.Admin.Input :=
  [.logout, .login, .answer 1 .code, .answer 1 (.tokens "access 1" "refresh 1")]

def comingBack : List Spa.User.Input :=
  [.logout, .answer 0 .ok, .answer 0 .ok, .exchangeCode,
    .answer 1 (.tokens "access 1" "refresh 1")]

theorem logout_final_and_confined_relogin :
    let admin := (Spa.Admin.machine.exec [] (Spa.Admin.load (some "refresh 0")) loggingInAgain).2
    let user := (Spa.User.machine.exec [] (Spa.User.load (some "refresh 0")) comingBack).2
    (admin.accessToken = some "access 1" ∧ FinalAndConfined admin.log admin.held) ∧
      user.accessToken = some "access 1" ∧ FinalAndConfined user.log user.held := by
  intro admin user
  have hadmin : Spa.Admin.machine.Guarded Admin.writesAllowed []
      (Spa.Admin.load (some "refresh 0")) loggingInAgain := by
    refine ⟨nofun, nofun, nofun, ?_, trivial⟩
    intro id hid
    obtain rfl : 1 = id := Option.some.inj hid
    exact allowed_after_logout 0 1 _
  have huser : Spa.User.machine.Guarded User.writesAllowed []
      (Spa.User.load (some "refresh 0")) comingBack := by
    refine ⟨nofun, nofun, nofun, nofun, ?_, trivial⟩
    intro id hid
    obtain rfl : 1 = id := Option.some.inj hid
    exact allowed_after_logout 0 1 _
  refine ⟨⟨by decide, ?_⟩, by decide, ?_⟩
  · exact (logout_final_and_confined _).1 _ _ (.exec_of_guarded .init loggingInAgain hadmin)
  · exact (logout_final_and_confined _).2 _ _ (.exec_of_guarded .init comingBack huser)

def late : List Spa.Admin.Input :=
  [.restoreSession, .logout, .answer 2 .ok, .answer 0 (.tokens "access 1" "refresh 1")]

def early : List Spa.User.Input :=
  [.logout, .login, .answer 1 .code, .answer 1 (.tokens "access 1" "refresh 1"),
    .answer 0 .ok, .answer 0 .ok]

/-- In the admin console a refresh that was in flight at the logout is answered after it; in the
user frontend a login from after the call finishes before the logout does. -/
theorem logout_neither_final_nor_confined :
    (¬∀ (r₀ : Option Token) (history : List Spa.Admin.Input) (s : Spa.Admin.Page),
      Spa.Admin.machine.Run anyStep (Spa.Admin.load r₀) history s →
        Final (marks s.log) s.held) ∧
    ¬∀ (r₀ : Option Token) (history : List Spa.User.Input) (s : Spa.User.Page),
      Spa.User.machine.Run anyStep (Spa.User.load r₀) history s → Confined (marks s.log) := by
  constructor
  · intro hclaim
    have hfinal := hclaim (some "refresh 0") _ _ (Spa.Admin.machine.run_exec _ late)
    have hlate : marks (Spa.Admin.machine.exec [] (Spa.Admin.load (some "refresh 0")) late).2.log =
        [.wrote 0, .cleared 2 ["refresh 0", "refresh 0"], .called 2 ["refresh 0", "refresh 0"],
          .began 0 false] := by decide
    have hsince := hfinal 2 ["refresh 0", "refresh 0"] (by decide) (by decide)
    obtain ⟨w, hbegan⟩ := hsince.exists_login
    rw [hlate] at hbegan
    simp at hbegan
  · intro hclaim
    have hconfined := hclaim (some "refresh 0") _ _ (Spa.User.machine.run_exec _ early)
    have hearly : marks (Spa.User.machine.exec [] (Spa.User.load (some "refresh 0")) early).2.log =
        [.cleared 0 ["access 1", "refresh 1", "refresh 1"], .wrote 1, .began 1 true,
          .called 0 ["refresh 0", "refresh 0"]] := by decide
    rw [hearly] at hconfined
    obtain ⟨H₀, hcalled, hsub⟩ := hconfined [] _ 0 _ rfl
    obtain rfl : H₀ = ["refresh 0", "refresh 0"] := by simpa using hcalled
    have hmem := hsub (List.mem_cons_self (a := "access 1"))
    simp at hmem

end AuthForge.FinalLogout
