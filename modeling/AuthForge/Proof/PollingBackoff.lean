import AuthForge.Base.History
import AuthForge.Proof.DeviceRedemption

/-!
# How a poll of a pending code backs off

A poll reads interval and time of the last poll of the code and writes both back as absolute values
in a second statement. Polls that overlap between the two statements undo each other's raise or do
not see each other. In runs in which no poll looks the code up while another one is between its
lookup and its answer, the interval only grows, each `slow_down` raises it by five, and a poll that
comes too early after another gets one.
-/

namespace AuthForge.PollingBackoff

open OAuth2 Http DeviceStatements
open DeviceRedemption (event_of_answer lookup_knownHash)
open Service hiding program

variable {cfg : Config} {clients : ClientRepository} {tokens : TokenRepository}

/-- The interval that a poll at `now` writes back for the row it has read. -/
def backoff (row : DeviceCode) (now : Int) : Option Int :=
  if row.lastPolledAt > 0 ∧ now - row.lastPolledAt < row.intervalSeconds then
    some (row.intervalSeconds + 5)
  else none

def pollAnswer : Option Int → Response
  | some interval => .slowDown interval
  | none => .oauthError 400 "authorization_pending" "The authorization request is still pending"

theorem pollPending_eq (hash : String) (row : DeviceCode) (now : Int) :
    pollPending hash row now =
      .call (.setPolled hash (backoff row now) now) fun _ => .ret (pollAnswer (backoff row now)) := by
  by_cases hfast : row.lastPolledAt > 0 ∧ now - row.lastPolledAt < row.intervalSeconds
  · have hbackoff : backoff row now = some (row.intervalSeconds + 5) := if_pos hfast
    rw [pollPending, if_pos hfast, hbackoff]
    rfl
  · have hbackoff : backoff row now = none := if_neg hfast
    rw [pollPending, if_neg hfast, hbackoff]
    rfl

theorem pollAnswer_eq_slowDown {row : DeviceCode} {now n : Int}
    (h : pollAnswer (backoff row now) = .slowDown n) : backoff row now = some n := by
  cases hbackoff : backoff row now with
  | none =>
    rw [hbackoff] at h
    cases h
  | some interval =>
    rw [hbackoff] at h
    exact congrArg some (Response.slowDown.inj h)

theorem backoff_eq_some {row : DeviceCode} {now n : Int} (h : backoff row now = some n) :
    n = row.intervalSeconds + 5 := by
  unfold backoff at h
  split at h
  · exact (Option.some.inj h).symm
  · cases h

/-! ### The course of a poll -/

/-- The operations before the lookup. -/
def early : DeviceCall → Bool
  | .getClient _ | .validateClient _ _ => true
  | _ => false

def Early (answers : List DeviceAnswer) : Prop := ∀ a ∈ answers, early a.op = true

/-- The answers of a poll that has looked its code up. -/
def lookedUp (before : List DeviceAnswer) (hash : String) (found : Option (Option DeviceCode)) :
    List DeviceAnswer :=
  before ++ [⟨.findBy hash, found⟩]

def clockRead (before : List DeviceAnswer) (hash : String) (row : DeviceCode) (now : Int) :
    List DeviceAnswer :=
  lookedUp before hash (some (some row)) ++ [⟨.nowSeconds, now⟩]

def isPolled : DeviceCall → Bool
  | .setPolled _ _ _ => true
  | _ => false

/-- What a poll has been answered when it issues an operation. -/
def PollCalls (hash : String) (answers : List DeviceAnswer) (op : DeviceCall) : Prop :=
  (∀ a ∈ answers, isPolled a.op = false) ∧
  match op with
  | .findBy key => key = hash ∧ Early answers
  | .nowSeconds => ∃ before row, Early before ∧ answers = lookedUp before hash (some (some row))
  | .setPolled key interval now => key = hash ∧ ∃ before row, Early before ∧
      answers = clockRead before hash row now ∧ row.status = .pending ∧ now < row.expiresAt ∧
      interval = backoff row now
  | .setApproved _ _ => False
  | _ => True

/-- What a poll has been answered and has written when it gives its reply. -/
structure PollReplies (hash : String) (answers : List DeviceAnswer) (reply : Response) : Prop where
  slowed : ∀ {n}, reply = .slowDown n → ∃ row now, ⟨.findBy hash, some (some row)⟩ ∈ answers ∧
    ⟨.setPolled hash (some n) now, ()⟩ ∈ answers ∧ n = row.intervalSeconds + 5
  polled : ∀ {row now}, ⟨.findBy hash, some (some row)⟩ ∈ answers → ⟨.nowSeconds, now⟩ ∈ answers →
    row.status = .pending → now < row.expiresAt →
    ⟨.setPolled hash (backoff row now) now, ()⟩ ∈ answers ∧ reply = pollAnswer (backoff row now)

theorem Early.not_mem {answers : List DeviceAnswer} {a : DeviceAnswer} (h : Early answers)
    (ha : early a.op = false) : a ∉ answers := by
  intro hmem
  have hearly := h a hmem
  rw [ha] at hearly
  cases hearly

theorem Early.mem_lookedUp {before : List DeviceAnswer} {hash key : String}
    {found r : Option (Option DeviceCode)} (h : Early before)
    (hmem : ⟨.findBy key, r⟩ ∈ lookedUp before hash found) : key = hash ∧ r = found := by
  rcases List.mem_append.mp hmem with hbefore | hlast
  · exact absurd hbefore (h.not_mem rfl)
  · cases List.mem_singleton.mp hlast
    exact ⟨rfl, rfl⟩

theorem Early.reading_not_mem {before : List DeviceAnswer} {hash : String} {now : Int}
    {found : Option (Option DeviceCode)} (h : Early before) :
    ⟨.nowSeconds, now⟩ ∉ lookedUp before hash found := by
  intro hmem
  rcases List.mem_append.mp hmem with hbefore | hlast
  · exact h.not_mem rfl hbefore
  · cases List.mem_singleton.mp hlast

theorem Early.mem_clockRead {before : List DeviceAnswer} {hash : String} {row : DeviceCode}
    {now now' : Int} (h : Early before) (hmem : ⟨.nowSeconds, now'⟩ ∈ clockRead before hash row now) :
    now' = now := by
  rcases List.mem_append.mp hmem with hbefore | hlast
  · exact absurd hbefore h.reading_not_mem
  · cases List.mem_singleton.mp hlast
    rfl

theorem Early.findBy_mem_clockRead {before : List DeviceAnswer} {hash key : String}
    {row : DeviceCode} {now : Int} {r : Option (Option DeviceCode)} (h : Early before)
    (hmem : ⟨.findBy key, r⟩ ∈ clockRead before hash row now) :
    key = hash ∧ r = some (some row) := by
  rcases List.mem_append.mp hmem with hbefore | hlast
  · exact h.mem_lookedUp hbefore
  · cases List.mem_singleton.mp hlast

/-- No pending row has been read, and nothing has been written back. -/
def Settled (hash : String) (answers : List DeviceAnswer) : Prop :=
  ∀ a ∈ answers, isPolled a.op = false ∧
    ∀ row, a = ⟨.findBy hash, some (some row)⟩ → row.status ≠ .pending

theorem Settled.calls {hash : String} {answers : List DeviceAnswer} (h : Settled hash answers) :
    ∀ a ∈ answers, isPolled a.op = false :=
  fun a ha => (h a ha).1

theorem Settled.snoc {hash : String} {answers : List DeviceAnswer} {a : DeviceAnswer}
    (h : Settled hash answers) (hpolled : isPolled a.op = false)
    (hfound : ∀ row, a = ⟨.findBy hash, some (some row)⟩ → row.status ≠ .pending) :
    Settled hash (answers ++ [a]) := by
  intro a' ha'
  rcases List.mem_append.mp ha' with hold | hlast
  · exact h a' hold
  · obtain rfl := List.mem_singleton.mp hlast
    exact ⟨hpolled, hfound⟩

theorem Early.settled {hash : String} {answers : List DeviceAnswer} (h : Early answers) :
    Settled hash answers := by
  intro a ha
  have hearly := h a ha
  refine ⟨?_, ?_⟩
  · cases hop : a.op <;> simp_all [early, isPolled]
  · intro row heq
    rw [heq] at hearly
    cases hearly

theorem Early.calls {answers : List DeviceAnswer} (h : Early answers) :
    ∀ a ∈ answers, isPolled a.op = false := by
  have hsettled : Settled "" answers := h.settled
  exact hsettled.calls

theorem Settled.replies {hash : String} {answers : List DeviceAnswer} {reply : Response}
    (h : Settled hash answers) (hreply : ∀ n, reply ≠ .slowDown n) :
    PollReplies hash answers reply where
  slowed hslow := absurd hslow (hreply _)
  polled hfound _ hpending := absurd hpending ((h _ hfound).2 _ rfl)

theorem Early.polled {before : List DeviceAnswer} (h : Early before) {hash : String}
    {row : DeviceCode} {now : Int} : ∀ a ∈ clockRead before hash row now, isPolled a.op = false := by
  intro a ha
  rcases List.mem_append.mp ha with hfound | hlast
  · rcases List.mem_append.mp hfound with hbefore | hlast
    · exact h.calls a hbefore
    · obtain rfl := List.mem_singleton.mp hlast
      rfl
  · obtain rfl := List.mem_singleton.mp hlast
    rfl

theorem course_issue {hash : String} {row : DeviceCode} {now : Int} {answers : List DeviceAnswer}
    (h : Settled hash answers) :
    (issue cfg row now).Course (PollCalls hash) (PollReplies hash) answers := by
  refine ⟨⟨h.calls, trivial⟩, ?_⟩
  intro accessTokenStr
  have h₁ := h.snoc (a := ⟨.generateSecureToken 32, accessTokenStr⟩) rfl nofun
  refine ⟨⟨h₁.calls, trivial⟩, ?_⟩
  intro refreshTokenStr
  have h₂ := h₁.snoc (a := ⟨.generateSecureToken 32, refreshTokenStr⟩) rfl nofun
  refine ⟨⟨h₂.calls, trivial⟩, ?_⟩
  intro familyId
  have h₃ := h₂.snoc (a := ⟨.generateSecureToken 16, familyId⟩) rfl nofun
  refine ⟨⟨h₃.calls, trivial⟩, ?_⟩
  intro saved
  have h₄ := h₃.snoc (a := ⟨.saveTokenPair _ _, saved⟩) rfl nofun
  cases saved <;> exact h₄.replies nofun

theorem course_pollPending {hash : String} {row : DeviceCode} {now : Int}
    {before : List DeviceAnswer} (hearly : Early before) (hpending : row.status = .pending)
    (hlive : now < row.expiresAt) :
    (pollPending hash row now).Course (PollCalls hash) (PollReplies hash)
      (clockRead before hash row now) := by
  rw [pollPending_eq]
  refine ⟨⟨hearly.polled, rfl, before, row, hearly, rfl, hpending, hlive, rfl⟩, ?_⟩
  intro _
  refine ⟨?_, ?_⟩
  · intro n hslow
    have hbackoff := pollAnswer_eq_slowDown hslow
    exact ⟨row, now, by simp [clockRead, lookedUp], by simp [hbackoff], backoff_eq_some hbackoff⟩
  · intro row' now' hfound hread _ _
    rcases List.mem_append.mp hfound with hfound | hlast
    · obtain ⟨-, hrow⟩ := hearly.findBy_mem_clockRead hfound
      obtain rfl := Option.some.inj (Option.some.inj hrow)
      rcases List.mem_append.mp hread with hread | hlast
      · obtain rfl := hearly.mem_clockRead hread
        exact ⟨by simp, rfl⟩
      · cases List.mem_singleton.mp hlast
    · cases List.mem_singleton.mp hlast

theorem course_lookup {clientId hash : String} {before : List DeviceAnswer}
    (hearly : Early before) :
    (runDeviceCodeLookup cfg clientId hash).Course (PollCalls hash) (PollReplies hash) before := by
  refine ⟨⟨hearly.calls, rfl, hearly⟩, ?_⟩
  intro found
  rcases found with _ | _ | row
  · have hsettled := hearly.settled.snoc (a := ⟨.findBy hash, none⟩) rfl nofun
    exact hsettled.replies nofun
  · have hsettled := hearly.settled.snoc (a := ⟨.findBy hash, some none⟩) rfl nofun
    exact hsettled.replies nofun
  have hcalls : ∀ a ∈ lookedUp before hash (some (some row)), isPolled a.op = false := by
    intro a ha
    have hread : a ∈ clockRead before hash row 0 := List.mem_append_left _ ha
    exact hearly.polled a hread
  dsimp only
  split
  · refine ⟨nofun, ?_⟩
    intro row' now hfound hread
    exact absurd hread hearly.reading_not_mem
  refine ⟨⟨hcalls, before, row, hearly, rfl⟩, ?_⟩
  intro now
  have hlookup : ∀ row', ⟨.findBy hash, some (some row')⟩ ∈ clockRead before hash row now →
      row' = row := by
    intro row' hfound
    exact Option.some.inj (Option.some.inj (hearly.findBy_mem_clockRead hfound).2)
  have hrefused : ∀ reply, (∀ n, reply ≠ .slowDown n) → row.status ≠ .pending →
      PollReplies hash (clockRead before hash row now) reply := by
    intro reply hreply hstatus
    refine ⟨fun hslow => absurd hslow (hreply _), ?_⟩
    intro row' now' hfound _ hpending
    obtain rfl := hlookup row' hfound
    exact absurd hpending hstatus
  dsimp only
  split
  · rename_i hexpired
    refine ⟨nofun, ?_⟩
    intro row' now' hfound hread _ hlive
    rw [hlookup row' hfound, hearly.mem_clockRead hread] at hlive
    exact absurd hlive (not_lt.mpr hexpired)
  rename_i hlive
  cases hstatus : row.status with
  | pending => exact course_pollPending hearly hstatus (not_le.mp hlive)
  | denied => exact hrefused _ nofun (by rw [hstatus]; nofun)
  | consumed => exact hrefused _ nofun (by rw [hstatus]; nofun)
  | approved =>
    have hsettled : Settled hash (clockRead before hash row now) := by
      intro a ha
      refine ⟨hearly.polled a ha, ?_⟩
      intro row' heq
      rw [heq] at ha
      rw [hlookup row' ha, hstatus]
      nofun
    refine ⟨⟨hsettled.calls, trivial⟩, ?_⟩
    intro consumed
    have hconsumed := hsettled.snoc (a := ⟨.consume hash, consumed⟩) rfl nofun
    rcases consumed with _ | _ | _
    · exact hconsumed.replies nofun
    · exact hconsumed.replies nofun
    · exact course_issue hconsumed

theorem Early.snoc {answers : List DeviceAnswer} {a : DeviceAnswer} (h : Early answers)
    (ha : early a.op = true) : Early (answers ++ [a]) := by
  intro a' ha'
  rcases List.mem_append.mp ha' with hold | hlast
  · exact h a' hold
  · obtain rfl := List.mem_singleton.mp hlast
    exact ha

theorem course_deviceCodeGrant {req : HttpRequest} {clientId clientSecret : String}
    {before : List DeviceAnswer} (hearly : Early before) :
    (deviceCodeGrant cfg req clientId clientSecret).Course (PollCalls (presentedHash cfg req))
      (PollReplies (presentedHash cfg req)) before := by
  unfold deviceCodeGrant
  split
  · exact hearly.settled.replies nofun
  refine ⟨⟨hearly.calls, trivial⟩, ?_⟩
  intro client
  have hclient := hearly.snoc (a := ⟨.getClient clientId, client⟩) rfl
  rcases client with _ | client
  · exact hclient.settled.replies nofun
  dsimp only
  split
  · refine ⟨⟨hclient.calls, trivial⟩, ?_⟩
    intro valid
    have hvalid := hclient.snoc (a := ⟨.validateClient clientId clientSecret, valid⟩) rfl
    cases valid
    · exact hvalid.settled.replies nofun
    · exact course_lookup hvalid
  · exact course_lookup hclient

theorem course_poll (req : HttpRequest) :
    (deviceToken cfg req).Course (PollCalls (presentedHash cfg req))
      (PollReplies (presentedHash cfg req)) [] := by
  have hnil : Early [] := List.forall_mem_nil _
  unfold deviceToken
  generalize DeviceGrant.tokenCredentials req = credentials
  obtain ⟨clientId, clientSecret⟩ := credentials
  dsimp only
  refine ⟨⟨hnil.calls, trivial⟩, ?_⟩
  intro client
  have hclient : Early [⟨.getClient clientId, client⟩] := hnil.snoc rfl
  dsimp only
  split
  · exact hclient.settled.replies nofun
  · exact course_deviceCodeGrant hclient

def Calls (cfg : Config) : DeviceRequest → List DeviceAnswer → DeviceCall → Prop
  | .approve _, _, _ => True
  | .poll req, answers, op => PollCalls (presentedHash cfg req) answers op

def Replies (cfg : Config) : DeviceRequest → List DeviceAnswer → Response → Prop
  | .approve _, _, _ => True
  | .poll req, answers, reply => PollReplies (presentedHash cfg req) answers reply

theorem course_program (request : DeviceRequest) :
    (program cfg request).Course (Calls cfg request) (Replies cfg request) [] := by
  cases request with
  | approve req => exact Prog.course_of_forall (fun _ _ => trivial) (fun _ _ => trivial) _
  | poll req => exact course_poll req

/-! ### What a run of polls has to guarantee -/

def NotAfter (now : Int) : DeviceEvent → Prop
  | .called _ _ env _ => env.now ≤ now
  | _ => True

instance (now : Int) : (e : DeviceEvent) → Decidable (NotAfter now e)
  | .called _ _ env _ => inferInstanceAs (Decidable (env.now ≤ now))
  | .started _ _ => .isTrue trivial
  | .idle => .isTrue trivial

/-- Only polls run, no statement fails, and the clock never goes back. -/
def Polling : Guard (Pool (service cfg clients tokens)) (Input Env DeviceRequest) DeviceEvent
  | _, _, .start (.poll _) => True
  | _, _, .start (.approve _) => False
  | history, _, .advance _ env => env.fails = false ∧ ∀ e ∈ history, NotAfter env.now e

def looksUp (hash : String) : DeviceCall → Bool
  | .findBy key => key = hash
  | _ => false

/-- The request has looked the code up and is not answered yet. -/
def inFlight (hash : String) (t : Thread (service cfg clients tokens)) : Bool :=
  !t.finished && t.answers.any fun a => looksUp hash a.op

/-- The clock is past the epoch, and a lookup of the code happens while nobody else is between
lookup and answer. -/
def Alone (hash : String) :
    Guard (Pool (service cfg clients tokens)) (Input Env DeviceRequest) DeviceEvent
  | history, p, .start request => Polling history p (.start request)
  | history, p, .advance tid env =>
    Polling history p (.advance tid env) ∧ 0 < env.now ∧
      ((p.next tid).any (looksUp hash) = true → ∀ t ∈ p.threads, inFlight hash t = false)

def storedInterval (s : DeviceStore clients tokens) (hash : String) : Option Int :=
  (s.deviceCodes.lookup hash).map fun row => row.intervalSeconds

def LooksUp (hash : String) (e : DeviceEvent) (tid : Nat) (row : DeviceCode) : Prop :=
  ∃ request env, e = .called tid request env ⟨.findBy hash, some (some row)⟩

def Reads (history : List DeviceEvent) (tid : Nat) (now : Int) : Prop :=
  ∃ request env, Event.called tid request env ⟨.nowSeconds, now⟩ ∈ history

/-- The interval never decreases, a `slow_down` has raised it by five, and a poll that reads the
clock less than the interval it has looked up after an earlier poll is answered `slow_down`. -/
structure BacksOff (s₀ : DeviceStore clients tokens) (hash : String) (history : List DeviceEvent)
    (p : Pool (service cfg clients tokens)) : Prop where
  grows : Always (fun past e => ∀ n,
    storedInterval ((service cfg clients tokens).replay s₀ past) hash = some n →
    ∃ m, storedInterval ((service cfg clients tokens).replay s₀ (e :: past)) hash = some m ∧ n ≤ m)
    history
  raised : ∀ tid t req n, p.threads[tid]? = some t → t.request = .poll req →
    presentedHash cfg req = hash → t.rest = .ret (.slowDown n) →
    ∃ post env now past m,
      history = post ++ .called tid (.poll req) env ⟨.setPolled hash (some n) now, ()⟩ :: past ∧
      storedInterval ((service cfg clients tokens).replay s₀ past) hash = some m ∧ n = m + 5
  slowed : history.Pairwise fun e e' => ∀ i row j row', LooksUp hash e i row → LooksUp hash e' j row' →
    ∀ now now', Reads history i now → Reads history j now' → now < row.expiresAt →
    now - now' < row.intervalSeconds →
    ∀ t reply, p.threads[i]? = some t → t.rest = .ret reply →
      reply = .slowDown (row.intervalSeconds + 5)

/-! ### What the statements do to one pending code -/

theorem exec_row {env : Env} {op : DeviceCall} {s : DeviceStore clients tokens} {hash : String}
    {row : DeviceCode} (hrow : s.deviceCodes.lookup hash = some row)
    (hpending : row.status = .pending) (hpolled : ∀ interval now, op ≠ .setPolled hash interval now)
    (happroved : ∀ key userId, op ≠ .setApproved key userId) :
    (DeviceStore.exec env op s).2.deviceCodes.lookup hash = some row := by
  cases op with
  | setApproved key userId => exact absurd rfl (happroved key userId)
  | setPolled key interval now =>
    have hkey : hash ≠ key := by
      intro heq
      exact hpolled interval now (by rw [heq])
    simp only [DeviceStore.exec]
    split
    · exact hrow
    · simp [lookup_updateRow, hrow, hkey]
  | consume key =>
    simp only [DeviceStore.exec]
    split
    · exact hrow
    · simp [lookup_updateRow, hrow, hpending]
  | _ => exact hrow

def polledRow (row : DeviceCode) (now : Int) : DeviceCode :=
  { row with
    intervalSeconds := (backoff row now).getD row.intervalSeconds
    lastPolledAt := now }

theorem exec_setPolled {env : Env} {s : DeviceStore clients tokens} {hash : String}
    {row : DeviceCode} {now : Int} (hrow : s.deviceCodes.lookup hash = some row)
    (hfails : env.fails = false) :
    (DeviceStore.exec env (.setPolled hash (backoff row now) now) s).2.deviceCodes.lookup hash =
      some (polledRow row now) := by
  simp [DeviceStore.exec, hfails, lookup_updateRow, hrow, polledRow]

theorem le_polledRow (row : DeviceCode) (now : Int) :
    row.intervalSeconds ≤ (polledRow row now).intervalSeconds := by
  unfold polledRow
  cases hbackoff : backoff row now with
  | none => exact le_refl row.intervalSeconds
  | some n =>
    have hn := backoff_eq_some hbackoff
    simp only [Option.getD_some]
    omega

/-! ### The invariant of a run of polls -/

section Runs

variable {hash : String} {row₀ : DeviceCode} {history : List DeviceEvent}
  {p : Pool (service cfg clients tokens)} {s₀ : DeviceStore clients tokens}

/-- Request `j` is answered; it read the clock before `i` did, and the row that `i` has looked up
shows it. -/
def Behind (row₀ : DeviceCode) (p : Pool (service cfg clients tokens)) (i : Nat) (row : DeviceCode)
    (j : Nat) : Prop :=
  ∃ u, p.threads[j]? = some u ∧ u.finished = true ∧ ∀ now', ⟨.nowSeconds, now'⟩ ∈ u.answers →
    (now' < row₀.expiresAt → now' ≤ row.lastPolledAt) ∧
    ∀ t, p.threads[i]? = some t → ∀ now, ⟨.nowSeconds, now⟩ ∈ t.answers → now' ≤ now

structure PollInv (hash : String) (row₀ : DeviceCode) (history : List DeviceEvent)
    (p : Pool (service cfg clients tokens)) : Prop where
  row : ∃ row, p.shared.deviceCodes.lookup hash = some row ∧ row.status = .pending ∧
    row.expiresAt = row₀.expiresAt
  fresh : ∀ {tid : Nat} {t row}, p.threads[tid]? = some t → t.finished = false →
    ⟨.findBy hash, some (some row)⟩ ∈ t.answers → p.shared.deviceCodes.lookup hash = some row
  recorded : ∀ {tid : Nat} {t row now}, p.threads[tid]? = some t → t.finished = true →
    ⟨.findBy hash, some (some row)⟩ ∈ t.answers → ⟨.nowSeconds, now⟩ ∈ t.answers →
    now < row₀.expiresAt → ∀ {stored}, p.shared.deviceCodes.lookup hash = some stored →
    now ≤ stored.lastPolledAt
  behind : history.Pairwise fun e e' => ∀ i row j row', LooksUp hash e i row →
    LooksUp hash e' j row' → Behind row₀ p i row j

theorem PollInv.init (hrow₀ : s₀.deviceCodes.lookup hash = some row₀)
    (hpending : row₀.status = .pending) :
    PollInv hash row₀ [] (start (service cfg clients tokens) s₀) where
  row := ⟨row₀, hrow₀, hpending, rfl⟩
  fresh ht := by simp [start] at ht
  recorded ht := by simp [start] at ht
  behind := List.Pairwise.nil

theorem PollInv.idle (h : PollInv hash row₀ history p) : PollInv hash row₀ (.idle :: history) p where
  row := h.row
  fresh := h.fresh
  recorded := h.recorded
  behind := by
    refine List.pairwise_cons.mpr ⟨?_, h.behind⟩
    intro e' _ i row j row' hlookup
    obtain ⟨request, env, heq⟩ := hlookup
    cases heq

theorem PollInv.started (h : PollInv hash row₀ history p) (request : DeviceRequest) :
    PollInv hash row₀ (.started p.threads.length request :: history)
      ({ p with threads := p.threads ++ [.fresh _ request] } : Pool (service cfg clients tokens)) := by
  have hold : ∀ {tid : Nat} {t : Thread (service cfg clients tokens)} {a},
      (p.threads ++ [.fresh _ request])[tid]? = some t → a ∈ t.answers →
      p.threads[tid]? = some t := by
    intro tid t a ht ha
    rcases getElem?_snoc ht with ht | ⟨-, rfl⟩
    · exact ht
    · cases ha
  refine ⟨h.row, ?_, ?_, ?_⟩
  · intro tid t row ht hopen hfound
    exact h.fresh (hold ht hfound) hopen hfound
  · intro tid t row now ht hdone hfound
    exact h.recorded (hold ht hfound) hdone hfound
  refine List.pairwise_cons.mpr ⟨?_, h.behind.imp ?_⟩
  · intro e' _ i row j row' hlookup
    obtain ⟨request', env, heq⟩ := hlookup
    cases heq
  · intro e e' hbehind i row j row' hlookup hlookup'
    obtain ⟨u, hu, hdone, hread⟩ := hbehind i row j row' hlookup hlookup'
    refine ⟨u, ?_, hdone, ?_⟩
    · rw [List.getElem?_append_left (List.getElem?_eq_some_iff.mp hu).1]
      exact hu
    · intro now' hnow'
      refine ⟨(hread now' hnow').1, ?_⟩
      intro t ht now hnow
      exact (hread now' hnow').2 t (hold ht hnow) now hnow

/-- The threads of a run of polls are polls. -/
theorem poll_of_thread
    (hrun : (service cfg clients tokens).machine.Run (Alone hash) (start _ s₀) history p)
    {tid : Nat} {t : Thread (service cfg clients tokens)} (ht : p.threads[tid]? = some t) :
    ∃ req, t.request = .poll req := by
  obtain ⟨past, q, hok⟩ := guarded_of_thread hrun (List.mem_of_getElem? ht)
  cases hrequest : t.request with
  | approve req =>
    rw [hrequest] at hok
    exact hok.elim
  | poll req => exact ⟨req, rfl⟩

theorem course_of_poll {t : Thread (service cfg clients tokens)} {req : HttpRequest}
    (hreq : t.request = .poll req) :
    t.rest.Course (PollCalls (presentedHash cfg req)) (PollReplies (presentedHash cfg req))
      t.answers := by
  have hcourse := course_of_thread (S := service cfg clients tokens) course_program t
  rwa [hreq] at hcourse

theorem calls_of_poll {t : Thread (service cfg clients tokens)} {req : HttpRequest}
    (hreq : t.request = .poll req) {op : DeviceCall} {k : op.Resp → DeviceProg}
    (hrest : t.rest = .call op k) : PollCalls (presentedHash cfg req) t.answers op := by
  have hcourse := course_of_poll hreq
  rw [hrest] at hcourse
  exact hcourse.1

theorem replies_of_poll {t : Thread (service cfg clients tokens)} {req : HttpRequest}
    (hreq : t.request = .poll req) {reply : Response} (hrest : t.rest = .ret reply) :
    PollReplies (presentedHash cfg req) t.answers reply := by
  have hcourse := course_of_poll hreq
  rwa [hrest] at hcourse

theorem presentedHash_of_found {t : Thread (service cfg clients tokens)} {req : HttpRequest}
    (hreq : t.request = .poll req) {key : String} {r : Option (Option DeviceCode)}
    (hfound : ⟨.findBy key, r⟩ ∈ t.answers) : key = presentedHash cfg req := by
  obtain ⟨before, k, -, hbefore, -⟩ := t.reached.of_mem hfound
  have hcalls := (@course_program cfg t.request).of_reached hbefore
  rw [hreq] at hcalls
  exact hcalls.1.2.1

theorem finished_of_polled {t : Thread (service cfg clients tokens)} {req : HttpRequest}
    (hreq : t.request = .poll req) {a : DeviceAnswer} (ha : a ∈ t.answers)
    (hpolled : isPolled a.op = true) : t.finished = true := by
  cases hrest : t.rest with
  | ret reply => exact Thread.finished_of_ret hrest
  | call op k =>
    have hcalls := (calls_of_poll hreq hrest).1 a ha
    rw [hpolled] at hcalls
    cases hcalls

theorem reading_spec
    (hrun : (service cfg clients tokens).machine.Run (Alone hash) (start _ s₀) history p)
    {tid : Nat} {request : DeviceRequest} {env : Env} {now : Int}
    (hmem : Event.called tid request env ⟨.nowSeconds, now⟩ ∈ history) : now = env.now ∧ 0 < now := by
  obtain ⟨past, q, -, hok, hresp⟩ := exec_of_called hrun hmem
  have hnow : now = env.now := hresp
  rw [hnow]
  exact ⟨rfl, hok.2.1⟩

/-- Of two requests that looked the code up, the one that is not answered came last. -/
theorem PollInv.behind_of_open (h : PollInv hash row₀ history p)
    (hrun : (service cfg clients tokens).machine.Run (Alone hash) (start _ s₀) history p)
    {i j : Nat} {t u : Thread (service cfg clients tokens)} {row row' : DeviceCode}
    (ht : p.threads[i]? = some t) (hu : p.threads[j]? = some u)
    (hfound : ⟨.findBy hash, some (some row)⟩ ∈ t.answers)
    (hfound' : ⟨.findBy hash, some (some row')⟩ ∈ u.answers) (hopen : t.finished = false)
    (hne : j ≠ i) : Behind row₀ p i row j := by
  obtain ⟨env, hevent⟩ := event_of_answer hrun ht hfound
  obtain ⟨env', hevent'⟩ := event_of_answer hrun hu hfound'
  have hevents : (.called i t.request env ⟨.findBy hash, some (some row)⟩ : DeviceEvent) ≠
      .called j u.request env' ⟨.findBy hash, some (some row')⟩ := by
    intro heq
    injection heq with hij
    exact hne hij.symm
  rcases pairwise_or h.behind hevent hevent' hevents with hbehind | hbehind
  · exact hbehind i row j row' ⟨_, _, rfl⟩ ⟨_, _, rfl⟩
  · obtain ⟨t', ht', hdone, -⟩ := hbehind j row' i row ⟨_, _, rfl⟩ ⟨_, _, rfl⟩
    obtain rfl := Option.some.inj (ht.symm.trans ht')
    rw [hopen] at hdone
    cases hdone

/-- The clock does not go back, and an answered request stays as it is. -/
theorem Behind.advanced {i j tid : Nat} {row : DeviceCode} (h : Behind row₀ p i row j)
    (hrun : (service cfg clients tokens).machine.Run (Alone hash) (start _ s₀) history p)
    {env : Env} (hclock : ∀ e ∈ history, NotAfter env.now e)
    {t : Thread (service cfg clients tokens)} {op : DeviceCall} {k : op.Resp → DeviceProg}
    (ht : p.threads[tid]? = some t) (hrest : t.rest = .call op k) :
    Behind row₀ (p.advanced tid env hrest) i row j := by
  obtain ⟨u, hu, hdone, hread⟩ := h
  have hne : j ≠ tid := by
    rintro rfl
    obtain rfl := Option.some.inj (ht.symm.trans hu)
    rw [Thread.finished_of_call hrest] at hdone
    cases hdone
  refine ⟨u, ?_, hdone, ?_⟩
  · rw [List.getElem?_set_ne hne.symm]
    exact hu
  intro now' hnow'
  refine ⟨(hread now' hnow').1, ?_⟩
  intro t' ht' now hnow
  rcases getElem?_set_cases ht' with ⟨rfl, rfl⟩ | ⟨-, ht'⟩
  · rcases List.mem_append.mp hnow with hold | hlast
    · exact (hread now' hnow').2 t ht now hold
    · cases List.mem_singleton.mp hlast
      obtain ⟨env', hevent⟩ := event_of_answer hrun hu hnow'
      rw [(reading_spec hrun hevent).1]
      exact hclock _ hevent
  · exact (hread now' hnow').2 t' ht' now hnow

section Called

variable {tid : Nat} {env : Env} {t : Thread (service cfg clients tokens)} {op : DeviceCall}
  {k : op.Resp → DeviceProg} {req : HttpRequest}

/-- A step that neither looks the code up nor writes it back. -/
theorem PollInv.other (h : PollInv hash row₀ history p)
    (hrun : (service cfg clients tokens).machine.Run (Alone hash) (start _ s₀) history p)
    (ht : p.threads[tid]? = some t) (hrest : t.rest = .call op k) (hreq : t.request = .poll req)
    (hclock : ∀ e ∈ history, NotAfter env.now e) (hlookup : op ≠ .findBy hash)
    (hpolled : ∀ interval now, op ≠ .setPolled hash interval now) :
    PollInv hash row₀
      (.called tid t.request env ⟨op, (DeviceStore.exec env op p.shared).1⟩ :: history)
      (p.advanced tid env hrest) := by
  have hcalls := calls_of_poll hreq hrest
  obtain ⟨stored, hstored, hpending, hexpires⟩ := h.row
  have hsame : (p.advanced tid env hrest).shared.deviceCodes.lookup hash = some stored := by
    refine exec_row hstored hpending hpolled ?_
    intro key userId heq
    subst heq
    exact hcalls.2
  have hopen := Thread.finished_of_call hrest
  have hfoundBefore : ∀ {row}, ⟨.findBy hash, some (some row)⟩ ∈
      (t.advance hrest (DeviceStore.exec env op p.shared).1).answers →
      ⟨.findBy hash, some (some row)⟩ ∈ t.answers := by
    intro row hfound
    rcases List.mem_append.mp hfound with hold | hlast
    · exact hold
    · exact absurd (congrArg Answer.op (List.mem_singleton.mp hlast)).symm hlookup
  refine ⟨⟨stored, hsame, hpending, hexpires⟩, ?_, ?_, ?_⟩
  · intro i t' row ht' hopen' hfound
    rw [hsame, ← hstored]
    rcases getElem?_set_cases ht' with ⟨rfl, rfl⟩ | ⟨-, ht'⟩
    · exact h.fresh ht hopen (hfoundBefore hfound)
    · exact h.fresh ht' hopen' hfound
  · intro i t' row now ht' hdone hfound hread hlive stored' hstored'
    rw [hsame, ← hstored] at hstored'
    rcases getElem?_set_cases ht' with ⟨rfl, rfl⟩ | ⟨-, ht'⟩
    · -- an answered poll of the live code would have written it back
      have hrow := h.fresh ht hopen (hfoundBefore hfound)
      obtain rfl := Option.some.inj (hstored.symm.trans hrow)
      obtain ⟨reply, hreply⟩ := Thread.exists_ret hdone
      have hhash := presentedHash_of_found hreq (hfoundBefore hfound)
      have hreplies := replies_of_poll (t := t.advance hrest _) hreq hreply
      have hwritten := (hreplies.polled (hhash ▸ hfound) hread hpending (hexpires.symm ▸ hlive)).1
      rcases List.mem_append.mp hwritten with hold | hlast
      · have hfinished := finished_of_polled hreq hold rfl
        rw [hopen] at hfinished
        cases hfinished
      · have hop := (congrArg Answer.op (List.mem_singleton.mp hlast)).symm
        exact absurd (hhash ▸ hop) (hpolled _ _)
    · exact h.recorded ht' hdone hfound hread hlive hstored'
  · refine List.pairwise_cons.mpr ⟨?_, h.behind.imp ?_⟩
    · intro e' _ i row j row' hlooksUp
      obtain ⟨request, env', heq⟩ := hlooksUp
      injection heq with _ _ _ hanswer
      exact absurd (congrArg Answer.op hanswer) hlookup
    · intro e e' hbehind i row j row' hlooksUp hlooksUp'
      exact (hbehind i row j row' hlooksUp hlooksUp').advanced hrun hclock ht hrest

theorem PollInv.lookedUp (h : PollInv hash row₀ history p)
    (hrun : (service cfg clients tokens).machine.Run (Alone hash) (start _ s₀) history p)
    {k : Option (Option DeviceCode) → DeviceProg} (ht : p.threads[tid]? = some t)
    (hrest : t.rest = .call (.findBy hash) k) (hreq : t.request = .poll req)
    (hfails : env.fails = false) (hclock : ∀ e ∈ history, NotAfter env.now e)
    (halone : ∀ u ∈ p.threads, inFlight hash u = false) :
    PollInv hash row₀
      (.called tid t.request env
        ⟨.findBy hash, (DeviceStore.exec env (.findBy hash) p.shared).1⟩ :: history)
      (p.advanced tid env hrest) := by
  have hearly := (calls_of_poll hreq hrest).2.2
  obtain ⟨stored, hstored, hpending, hexpires⟩ := h.row
  have hresp : (DeviceStore.exec env (.findBy hash) p.shared).1 = some (some stored) := by
    simp [DeviceStore.exec, hfails, hstored]
  have hnone : ∀ {now : Int}, ⟨.nowSeconds, now⟩ ∉
      (t.advance hrest (DeviceStore.exec env (.findBy hash) p.shared).1).answers :=
    hearly.reading_not_mem
  have hfoundAfter : ∀ {row}, ⟨.findBy hash, some (some row)⟩ ∈
      (t.advance hrest (DeviceStore.exec env (.findBy hash) p.shared).1).answers →
      row = stored := by
    intro row hfound
    have hrow := (hearly.mem_lookedUp hfound).2
    rw [hresp] at hrow
    exact Option.some.inj (Option.some.inj hrow)
  refine ⟨⟨stored, hstored, hpending, hexpires⟩, ?_, ?_, ?_⟩
  · intro i t' row ht' hopen hfound
    rcases getElem?_set_cases ht' with ⟨rfl, rfl⟩ | ⟨-, ht'⟩
    · rw [hfoundAfter hfound]
      exact hstored
    · exact h.fresh ht' hopen hfound
  · intro i t' row now ht' hdone hfound hread hlive stored' hstored'
    rcases getElem?_set_cases ht' with ⟨rfl, rfl⟩ | ⟨-, ht'⟩
    · exact absurd hread hnone
    · exact h.recorded ht' hdone hfound hread hlive hstored'
  · refine List.pairwise_cons.mpr ⟨?_, h.behind.imp ?_⟩
    · intro e' he' i row j row' hlooksUp hlooksUp'
      obtain ⟨request, env', heq⟩ := hlooksUp
      obtain ⟨request', env'', rfl⟩ := hlooksUp'
      injection heq with hi _ _ hanswer
      subst hi
      rw [hresp] at hanswer
      injection hanswer with _ hrow
      obtain rfl := Option.some.inj (Option.some.inj hrow)
      have hdesc := described_of_run hrun
      obtain ⟨u, hu⟩ : ∃ u, p.threads[j]? = some u :=
        ⟨_, List.getElem?_eq_getElem (hdesc.exists_thread he')⟩
      have hfound' : ⟨.findBy hash, some (some row')⟩ ∈ u.answers := by
        rw [hdesc.answers hu]
        exact mem_answersOf.mpr ⟨request', env'', he'⟩
      have hdone : u.finished = true := by
        have hflight := halone u (List.mem_of_getElem? hu)
        have hany : (u.answers.any fun a => looksUp hash a.op) = true :=
          List.any_eq_true.mpr ⟨_, hfound', by simp [looksUp]⟩
        simpa [inFlight, hany] using hflight
      have hne : j ≠ tid := by
        rintro rfl
        obtain rfl := Option.some.inj (ht.symm.trans hu)
        exact hearly.not_mem rfl hfound'
      refine ⟨u, ?_, hdone, ?_⟩
      · rw [List.getElem?_set_ne hne.symm]
        exact hu
      intro now' hnow'
      refine ⟨fun hlive => h.recorded hu hdone hfound' hnow' hlive hstored, ?_⟩
      intro t' ht' now hnow
      rcases getElem?_set_cases ht' with ⟨-, rfl⟩ | ⟨hself, -⟩
      · exact absurd hnow hnone
      · exact absurd rfl hself
    · intro e e' hbehind i row j row' hlooksUp hlooksUp'
      exact (hbehind i row j row' hlooksUp hlooksUp').advanced hrun hclock ht hrest

/-- What is written back is the back-off of the row as it is stored. -/
theorem PollInv.stored_of_polled (h : PollInv hash row₀ history p) {interval : Option Int}
    {now : Int} {k : Unit → DeviceProg} (ht : p.threads[tid]? = some t)
    (hrest : t.rest = .call (.setPolled hash interval now) k) (hreq : t.request = .poll req) :
    ∃ before row, Early before ∧ t.answers = clockRead before hash row now ∧
      p.shared.deviceCodes.lookup hash = some row ∧ interval = backoff row now := by
  obtain ⟨-, rfl, before, row, hearly, hanswers, -, -, hinterval⟩ := calls_of_poll hreq hrest
  refine ⟨before, row, hearly, hanswers, ?_, hinterval⟩
  refine h.fresh ht (Thread.finished_of_call hrest) ?_
  rw [hanswers]
  simp [clockRead, PollingBackoff.lookedUp]

theorem PollInv.polled (h : PollInv hash row₀ history p)
    (hrun : (service cfg clients tokens).machine.Run (Alone hash) (start _ s₀) history p)
    {interval : Option Int} {now : Int} {k : Unit → DeviceProg} (ht : p.threads[tid]? = some t)
    (hrest : t.rest = .call (.setPolled hash interval now) k) (hreq : t.request = .poll req)
    (hfails : env.fails = false) (hclock : ∀ e ∈ history, NotAfter env.now e) :
    PollInv hash row₀
      (.called tid t.request env
        ⟨.setPolled hash interval now,
          (DeviceStore.exec env (.setPolled hash interval now) p.shared).1⟩ :: history)
      (p.advanced tid env hrest) := by
  obtain ⟨before, row, hearly, hanswers, hrow, rfl⟩ := h.stored_of_polled ht hrest hreq
  obtain ⟨stored, hstored, hpending, hexpires⟩ := h.row
  obtain rfl := Option.some.inj (hrow.symm.trans hstored)
  have hfound : ⟨.findBy hash, some (some row)⟩ ∈ t.answers := by
    rw [hanswers]
    simp [clockRead, PollingBackoff.lookedUp]
  have hread : ⟨.nowSeconds, now⟩ ∈ t.answers := by
    rw [hanswers]
    simp [clockRead]
  have hafter : (p.advanced tid env hrest).shared.deviceCodes.lookup hash =
      some (polledRow row now) := exec_setPolled hrow hfails
  have hopen := Thread.finished_of_call hrest
  refine ⟨⟨_, hafter, hpending, hexpires⟩, ?_, ?_, ?_⟩
  · intro i u row' hu hopen' hfound'
    rcases getElem?_set_cases hu with ⟨rfl, rfl⟩ | ⟨hne, hu⟩
    · have hfinished := finished_of_polled (t := t.advance hrest ()) hreq
        (a := ⟨.setPolled hash (backoff row now) now, ()⟩)
        (List.mem_append_right _ List.mem_cons_self) rfl
      rw [hopen'] at hfinished
      cases hfinished
    · obtain ⟨u', hu', hdone, -⟩ := h.behind_of_open hrun ht hu hfound hfound' hopen hne
      obtain rfl := Option.some.inj (hu.symm.trans hu')
      rw [hopen'] at hdone
      cases hdone
  · intro i u row' now' hu hdone hfound' hread' hlive stored' hstored'
    obtain rfl := Option.some.inj (hafter.symm.trans hstored')
    change now' ≤ now
    rcases getElem?_set_cases hu with ⟨rfl, rfl⟩ | ⟨hne, hu⟩
    · rcases List.mem_append.mp hread' with hold | hlast
      · rw [hanswers] at hold
        exact le_of_eq (hearly.mem_clockRead hold)
      · cases List.mem_singleton.mp hlast
    · obtain ⟨u', hu', -, hreads⟩ := h.behind_of_open hrun ht hu hfound hfound' hopen hne
      obtain rfl := Option.some.inj (hu.symm.trans hu')
      exact (hreads now' hread').2 t ht now hread
  · refine List.pairwise_cons.mpr ⟨?_, h.behind.imp ?_⟩
    · intro e' _ i row' j row'' hlooksUp
      obtain ⟨request, env', heq⟩ := hlooksUp
      cases heq
    · intro e e' hbehind i row' j row'' hlooksUp hlooksUp'
      exact (hbehind i row' j row'' hlooksUp hlooksUp').advanced hrun hclock ht hrest

end Called

theorem pollInv_of_run (hrow₀ : s₀.deviceCodes.lookup hash = some row₀)
    (hpending : row₀.status = .pending)
    (hrun : (service cfg clients tokens).machine.Run (Alone hash) (start _ s₀) history p) :
    PollInv hash row₀ history p := by
  refine Machine.Run.invariant (PollInv hash row₀) (.init hrow₀ hpending) ?_ hrun
  intro past q i hq hinv hok
  change PollInv hash row₀ ((Service.step _ q i).2 :: past) (Service.step _ q i).1
  rcases step_cases q i with ⟨request, -, hs⟩ | ⟨tid, env, t, op, k, hrest, rfl, ht, hs⟩ | hs
  · rw [hs]
    exact hinv.started request
  · rw [hs]
    obtain ⟨req, hreq⟩ := poll_of_thread hq ht
    obtain ⟨⟨hfails, hclock⟩, -, halone⟩ := hok
    by_cases hlookup : op = .findBy hash
    · subst hlookup
      rw [Pool.next_eq ht hrest] at halone
      exact hinv.lookedUp hq ht hrest hreq hfails hclock (halone (by simp [looksUp]))
    by_cases hpolled : ∃ interval now, op = .setPolled hash interval now
    · obtain ⟨interval, now, rfl⟩ := hpolled
      exact hinv.polled hq ht hrest hreq hfails hclock
    · refine hinv.other hq ht hrest hreq hclock hlookup ?_
      intro interval now heq
      exact hpolled ⟨interval, now, heq⟩
  · rw [hs]
    exact hinv.idle

theorem PollInv.interval_step (h : PollInv hash row₀ history p)
    (hrun : (service cfg clients tokens).machine.Run (Alone hash) (start _ s₀) history p)
    {i : Input Env DeviceRequest} (hok : Alone hash history p i) :
    ∃ row row', p.shared.deviceCodes.lookup hash = some row ∧
      (Service.step _ p i).1.shared.deviceCodes.lookup hash = some row' ∧
      row.intervalSeconds ≤ row'.intervalSeconds := by
  obtain ⟨stored, hstored, hpending, -⟩ := h.row
  rcases step_cases p i with ⟨request, -, hs⟩ | ⟨tid, env, t, op, k, hrest, rfl, ht, hs⟩ | hs
  · rw [hs]
    exact ⟨stored, stored, hstored, hstored, le_refl stored.intervalSeconds⟩
  · rw [hs]
    obtain ⟨req, hreq⟩ := poll_of_thread hrun ht
    by_cases hpolled : ∃ interval now, op = .setPolled hash interval now
    · obtain ⟨interval, now, rfl⟩ := hpolled
      obtain ⟨-, row, -, -, hrow, rfl⟩ := h.stored_of_polled ht hrest hreq
      exact ⟨row, polledRow row now, hrow, exec_setPolled hrow hok.1.1, le_polledRow row now⟩
    · refine ⟨stored, stored, hstored, exec_row hstored hpending ?_ ?_, le_refl _⟩
      · intro interval now heq
        exact hpolled ⟨interval, now, heq⟩
      · intro key userId heq
        subst heq
        exact (calls_of_poll hreq hrest).2
  · rw [hs]
    exact ⟨stored, stored, hstored, hstored, le_refl stored.intervalSeconds⟩

theorem grows_of_run (hrow₀ : s₀.deviceCodes.lookup hash = some row₀)
    (hpending : row₀.status = .pending)
    (hrun : (service cfg clients tokens).machine.Run (Alone hash) (start _ s₀) history p) :
    Always (fun past e => ∀ n,
      storedInterval ((service cfg clients tokens).replay s₀ past) hash = some n →
      ∃ m, storedInterval ((service cfg clients tokens).replay s₀ (e :: past)) hash = some m ∧ n ≤ m)
      history := by
  refine always_of_split ?_
  rintro post e past rfl n hn
  obtain ⟨q', hq'⟩ := hrun.shorter
  obtain ⟨q, i, hq, hok, hstep⟩ := hq'.last
  obtain ⟨row, row', hrow, hrow', hle⟩ :=
    (pollInv_of_run hrow₀ hpending hq).interval_step hq hok
  have hshared : (Service.step _ q i).1 = q' := congrArg Prod.fst hstep
  rw [hshared, shared_eq_replay hq'] at hrow'
  rw [shared_eq_replay hq] at hrow
  rw [storedInterval, hrow] at hn
  obtain rfl := Option.some.inj hn
  refine ⟨row'.intervalSeconds, ?_, hle⟩
  rw [storedInterval, hrow']
  rfl

theorem raised_of_run (hrow₀ : s₀.deviceCodes.lookup hash = some row₀)
    (hpending : row₀.status = .pending)
    (hrun : (service cfg clients tokens).machine.Run (Alone hash) (start _ s₀) history p)
    {tid : Nat} {t : Thread (service cfg clients tokens)} {req : HttpRequest} {n : Int}
    (ht : p.threads[tid]? = some t) (hreq : t.request = .poll req)
    (hhash : presentedHash cfg req = hash) (hrest : t.rest = .ret (.slowDown n)) :
    ∃ post env now past m,
      history = post ++ .called tid (.poll req) env ⟨.setPolled hash (some n) now, ()⟩ :: past ∧
      storedInterval ((service cfg clients tokens).replay s₀ past) hash = some m ∧ n = m + 5 := by
  obtain ⟨-, now, -, hwritten, -⟩ := (replies_of_poll hreq hrest).slowed rfl
  rw [hhash] at hwritten
  obtain ⟨env, hevent⟩ := event_of_answer hrun ht hwritten
  rw [hreq] at hevent
  obtain ⟨post, past, rfl⟩ := List.append_of_mem hevent
  obtain ⟨q', hq'⟩ := hrun.shorter
  obtain ⟨q, i, hq, -, hstep⟩ := hq'.last
  have hinv := pollInv_of_run hrow₀ hpending hq
  have he : (Service.step _ q i).2 = _ := congrArg Prod.snd hstep
  rcases step_cases q i with ⟨request, -, hs⟩ | ⟨tid', env', u, op, k, hrest', -, hu, hs⟩ | hs
  · rw [hs] at he
    cases he
  · rw [hs] at he
    injection he with _ hrequest _ hanswer
    obtain rfl : op = .setPolled hash (some n) now := congrArg Answer.op hanswer
    obtain ⟨-, row, -, -, hrow, hbackoff⟩ := hinv.stored_of_polled hu hrest' hrequest
    refine ⟨post, env, now, past, row.intervalSeconds, rfl, ?_, backoff_eq_some hbackoff.symm⟩
    rw [← shared_eq_replay hq, storedInterval, hrow]
    rfl
  · rw [hs] at he
    cases he

theorem row_of_lookup (hrow₀ : s₀.deviceCodes.lookup hash = some row₀)
    (hpending : row₀.status = .pending)
    (hrun : (service cfg clients tokens).machine.Run (Alone hash) (start _ s₀) history p)
    {e : DeviceEvent} (he : e ∈ history) {tid : Nat} {row : DeviceCode}
    (hlookup : LooksUp hash e tid row) :
    row.status = .pending ∧ row.expiresAt = row₀.expiresAt := by
  obtain ⟨request, env, rfl⟩ := hlookup
  obtain ⟨past, q, hq, hok, hresp⟩ := exec_of_called hrun he
  obtain ⟨stored, hstored, hstatus, hexpires⟩ := (pollInv_of_run hrow₀ hpending hq).row
  have hrow : some (some row) = (DeviceStore.exec env (.findBy hash) q.shared).1 := hresp
  rw [DeviceStore.exec, hok.1.1, hstored] at hrow
  obtain rfl := Option.some.inj (Option.some.inj hrow)
  exact ⟨hstatus, hexpires⟩

end Runs

/-- In every interleaving of polls in which a pending code is looked up only while no other poll is
between its lookup and its answer, the interval never decreases, every `slow_down` raises it by
five, and every poll that comes too early after another one is answered `slow_down`. -/
theorem backs_off_when_alone (cfg : Config) (clients : ClientRepository)
    (tokens : TokenRepository) (s₀ : DeviceStore clients tokens) (hash : String)
    (row₀ : DeviceCode) (hrow₀ : s₀.deviceCodes.lookup hash = some row₀)
    (hpending : row₀.status = .pending) (history : List DeviceEvent)
    (p : Pool (service cfg clients tokens))
    (hrun : (service cfg clients tokens).machine.Run (Alone hash) (start _ s₀) history p) :
    BacksOff s₀ hash history p where
  grows := grows_of_run hrow₀ hpending hrun
  raised := fun _ _ _ _ ht hreq hhash hrest =>
    raised_of_run hrow₀ hpending hrun ht hreq hhash hrest
  slowed := by
    refine List.Pairwise.imp_of_mem ?_ (pollInv_of_run hrow₀ hpending hrun).behind
    intro e e' he _ hbehind i row j row' hlooksUp hlooksUp' now now' hread hread' hlive hearly
      t reply ht hrest
    obtain ⟨hstatus, hexpires⟩ := row_of_lookup hrow₀ hpending hrun he hlooksUp
    obtain ⟨u, hu, -, hreads⟩ := hbehind i row j row' hlooksUp hlooksUp'
    obtain ⟨request, env, rfl⟩ := hlooksUp
    obtain ⟨request', env', hclock⟩ := hread
    obtain ⟨request'', env'', hclock'⟩ := hread'
    have hdesc := described_of_run hrun
    have hfound : ⟨.findBy hash, some (some row)⟩ ∈ t.answers := by
      rw [hdesc.answers ht]
      exact mem_answersOf.mpr ⟨request, env, he⟩
    have hnow : ⟨.nowSeconds, now⟩ ∈ t.answers := by
      rw [hdesc.answers ht]
      exact mem_answersOf.mpr ⟨request', env', hclock⟩
    have hnow' : ⟨.nowSeconds, now'⟩ ∈ u.answers := by
      rw [hdesc.answers hu]
      exact mem_answersOf.mpr ⟨request'', env'', hclock'⟩
    obtain ⟨hlast, hbefore⟩ := hreads now' hnow'
    have hpositive := (reading_spec hrun hclock').2
    have hle := hbefore t ht now hnow
    have hpolled := hlast (by omega)
    have hbackoff : backoff row now = some (row.intervalSeconds + 5) :=
      if_pos ⟨by omega, by omega⟩
    obtain ⟨req, hreq⟩ := poll_of_thread hrun ht
    have hhash := presentedHash_of_found hreq hfound
    have hanswer := ((replies_of_poll hreq hrest).polled (hhash ▸ hfound) hnow hstatus hlive).2
    rw [hanswer, hbackoff]
    rfl

/-! ### Two runs -/

open DeviceRedemption (knownDevices knownStore knownHash knownCode polling)

instance (history : List DeviceEvent) (p : Pool (service cfg clients tokens))
    (i : Input Env DeviceRequest) : Decidable (Polling history p i) :=
  match i with
  | .start (.poll _) => .isTrue trivial
  | .start (.approve _) => .isFalse id
  | .advance _ _ => inferInstanceAs (Decidable (_ ∧ _))

def advances (tid n : Nat) (now : Int) : List (Input Env DeviceRequest) :=
  List.replicate n (.advance tid { now })

instance (history : List DeviceEvent) (p : Pool (service cfg clients tokens))
    (i : Input Env DeviceRequest) (hash : String) : Decidable (Alone hash history p i) :=
  match i with
  | .start request => inferInstanceAs (Decidable (Polling history p (.start request)))
  | .advance _ _ => inferInstanceAs (Decidable (_ ∧ _ ∧ _))

/-- One poll after the other, the second one a second later. -/
def inTurn : List (Input Env DeviceRequest) :=
  .start polling :: advances 0 5 100 ++ .start polling :: advances 1 5 101

theorem backs_off_when_alone_inTurn :
    BacksOff knownStore knownHash (knownDevices.machine.exec [] (start _ knownStore) inTurn).1
      (knownDevices.machine.exec [] (start _ knownStore) inTurn).2 ∧
    storedInterval (knownDevices.machine.exec [] (start _ knownStore) inTurn).2.shared knownHash =
      some 10 := by
  have hfacts : knownDevices.machine.Guarded (Alone knownHash) [] (start _ knownStore) inTurn ∧
      storedInterval (knownDevices.machine.exec [] (start _ knownStore) inTurn).2.shared
        knownHash = some 10 := by
    decide +kernel
  obtain ⟨hguarded, hinterval⟩ := hfacts
  refine ⟨?_, hinterval⟩
  exact backs_off_when_alone _ _ _ knownStore knownHash knownCode lookup_knownHash rfl _ _
    (Machine.Run.exec_of_guarded .init inTurn hguarded)

/-- Two polls look the code up at once; the second one writes its raise after a third poll has
raised the interval twice. -/
def overlapping : List (Input Env DeviceRequest) :=
  .start polling :: advances 0 5 100 ++ .start polling :: .start polling :: advances 1 3 101 ++
    advances 2 3 101 ++ advances 1 2 101 ++ .start polling :: advances 3 5 102 ++ advances 2 1 102

theorem overlapping_lowers_interval :
    knownStore.deviceCodes.lookup knownHash = some knownCode ∧ knownCode.status = .pending ∧
    ∃ history p, knownDevices.machine.Run Polling (start _ knownStore) history p ∧
      ¬BacksOff knownStore knownHash history p := by
  refine ⟨lookup_knownHash, rfl, ?_⟩
  have hfacts : knownDevices.machine.Guarded Polling [] (start _ knownStore) overlapping ∧
      Polling (knownDevices.machine.exec [] (start _ knownStore) overlapping).1
        (knownDevices.machine.exec [] (start _ knownStore) overlapping).2
        (.advance 2 { now := 102 }) ∧
      storedInterval (knownDevices.machine.exec [] (start _ knownStore) overlapping).2.shared
        knownHash = some 15 ∧
      storedInterval (knownDevices.machine.step
        (knownDevices.machine.exec [] (start _ knownStore) overlapping).2
        (.advance 2 { now := 102 })).1.shared knownHash = some 10 := by
    decide +kernel
  obtain ⟨hguarded, hlast, hbefore, hafter⟩ := hfacts
  have hq := Machine.Run.exec_of_guarded .init overlapping hguarded
  generalize knownDevices.machine.exec [] (start _ knownStore) overlapping = q at *
  have hrun := Machine.Run.next _ hq hlast
  refine ⟨_, _, hrun, ?_⟩
  intro hbacksOff
  rw [shared_eq_replay hq] at hbefore
  rw [shared_eq_replay hrun] at hafter
  obtain ⟨m, hm, hle⟩ := hbacksOff.grows.1 15 hbefore
  obtain rfl := Option.some.inj (hafter.symm.trans hm)
  omega

end AuthForge.PollingBackoff
