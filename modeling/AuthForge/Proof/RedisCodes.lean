import AuthForge.Base.Run
import AuthForge.Storage.Redis

/-!
# Authorization codes in Redis

Every call on a code is one command, so overlapping requests are a sequence of calls. A call can
fail, and the answer of one that was executed can get lost. Over every such sequence a presented
code is redeemed exactly if it stands: it was saved, its time has not come, and since then nobody
saved it again, marked it used or presented it with an admissible redirect URI.
-/

namespace AuthForge.RedisCodes

open OAuth2 Storage Storage.Redis

/-! ### Calls and their answers -/

structure TimedCall where
  now : Int
  /-- The command is not executed. -/
  fails : Bool := false
  /-- The answer of the command does not arrive. -/
  lost : Bool := false
  call : CodeCall

structure CodeEvent extends TimedCall where
  reply : Option OAuth2AuthCode

def codeCalls : Machine Keyspace TimedCall CodeEvent where
  step s i :=
    let r := call { now := i.now, fails := i.fails } i.call s
    (r.2, ⟨i, if i.lost = true then none else r.1⟩)

/-- Time does not run backwards. -/
def Forward : Guard Keyspace TimedCall CodeEvent := fun history _ i => ∀ e ∈ history, e.now ≤ i.now

instance : ∀ history s i, Decidable (Forward history s i) :=
  fun _ _ _ => inferInstanceAs (Decidable (∀ e ∈ _, _))

/-! ### What is on record -/

/-- The time to live that a record is saved with. -/
def timeToLive (now : Int) (c : OAuth2AuthCode) : Int :=
  if c.expiresAt > now then c.expiresAt - now else 1

/-- The script lets a redirect URI pass that is empty or the recorded one. -/
def Admits (redirectUri : String) (c : OAuth2AuthCode) : Prop :=
  cStr redirectUri = "" ∨ cStr redirectUri = c.redirectUri

instance (redirectUri : String) (c : OAuth2AuthCode) : Decidable (Admits redirectUri c) :=
  inferInstanceAs (Decidable (_ ∨ _))

/-- A code that was saved: the record, when it goes, and whether it is used up. -/
structure Standing where
  record : OAuth2AuthCode
  expireAt : Int
  used : Bool

namespace Standing

def json (t : Standing) : Redis.Json := authCodeJson { t.record with used := t.used }

def entry (t : Standing) : Entry := ⟨t.json, some t.expireAt⟩

/-- Used up by a command, if the command still finds it. -/
def usedUp (now : Int) (t : Standing) : Standing :=
  if now < t.expireAt then { t with used := true } else t

/-- Used up by a presentation. -/
def presented (now : Int) (redirectUri : String) (t : Standing) : Standing :=
  if Admits redirectUri t.record then t.usedUp now else t

section Fields

variable {now : Int} {redirectUri : String} {t : Standing}

@[simp] theorem usedUp_record : (t.usedUp now).record = t.record := by
  unfold usedUp
  split <;> rfl

@[simp] theorem usedUp_expireAt : (t.usedUp now).expireAt = t.expireAt := by
  unfold usedUp
  split <;> rfl

theorem usedUp_used (hlive : now < t.expireAt) : (t.usedUp now).used = true := by
  rw [usedUp, if_pos hlive]

@[simp] theorem presented_record : (t.presented now redirectUri).record = t.record := by
  unfold presented
  split
  · exact usedUp_record
  · rfl

end Fields

end Standing

/-- What a call does to what is on record under a key. -/
def recordedBy (key : String) (i : TimedCall) (t : Option Standing) : Option Standing :=
  if i.fails = true then t
  else match i.call with
    | .saveAuthCode c =>
      if codeKey c.code = key then some ⟨c, i.now + timeToLive i.now c, c.used⟩ else t
    | .markAuthCodeUsed code => if codeKey code = key then t.map (·.usedUp i.now) else t
    | .consumeAuthCode code redirectUri =>
      if codeKey code = key then t.map (·.presented i.now redirectUri) else t
    | _ => t

/-- What a history, newest call first, has put on record under a key. -/
def standing (key : String) : List CodeEvent → Option Standing
  | [] => none
  | e :: past => recordedBy key e.toTimedCall (standing key past)

/-! ### The keyspace holds what is on record -/

/-- Every entry of the keyspace is one on record. -/
def Recorded (history : List CodeEvent) (s : Keyspace) : Prop :=
  ∀ key, s.lookup key = (standing key history).map Standing.entry

section Commands

variable {now : Int} {key : String} {s : Keyspace} {t : Standing}

theorem json_used : t.json.asBool "used" = t.used := rfl

theorem json_redirectUri : t.json.asString "redirect_uri" = t.record.redirectUri := rfl

theorem json_set_used : t.json.set "used" (.bool true) = { t with used := true }.json := rfl

theorem get_of_standing (h : s.lookup key = some t.entry) :
    get now key s = if now < t.expireAt then some t.json else none := by
  simp only [Redis.get, h, Standing.entry]

/-- Setting the flag and writing back with the time that is left keeps the time at which it goes. -/
theorem write_back (h : s.lookup key = some t.entry) (hlive : now < t.expireAt) :
    (if ttl now key s > 0 then
        setex now key (ttl now key s) (t.json.set "used" (.bool true)) s
      else Redis.set key (t.json.set "used" (.bool true)) s) =
      s.insert key (t.usedUp now).entry := by
  have httl : ttl now key s = t.expireAt - now := by
    simp only [ttl, h, Standing.entry, if_pos hlive]
  have hpositive : t.expireAt - now > 0 := by omega
  have hsum : now + (t.expireAt - now) = t.expireAt := by omega
  rw [httl, if_pos hpositive, json_set_used, setex, hsum, Standing.usedUp, if_pos hlive]
  rfl

theorem lookup_markScript (h : s.lookup key = some t.entry) :
    (markScript now key s).lookup key = some (t.usedUp now).entry := by
  rw [markScript, get_of_standing h]
  by_cases hlive : now < t.expireAt
  · simp only [if_pos hlive]
    rw [write_back h hlive, AList.lookup_insert]
  · rw [if_neg hlive, Standing.usedUp, if_neg hlive, h]

theorem markScript_of_none (h : s.lookup key = none) : markScript now key s = s := by
  simp only [markScript, Redis.get, h]

/-- The script hands out what is live, unused and admits the redirect URI. -/
theorem consumeScript_eq (h : s.lookup key = some t.entry) (redirectUri : String) :
    consumeScript now key (cStr redirectUri) s =
      if now < t.expireAt ∧ t.used = false ∧ Admits redirectUri t.record then
        (some { t with used := true }.json, s.insert key (t.usedUp now).entry)
      else (none, s) := by
  rw [consumeScript, get_of_standing h]
  by_cases hlive : now < t.expireAt
  · have hpass : (cStr redirectUri ≠ "" ∧ cStr redirectUri ≠ t.record.redirectUri) ↔
        ¬Admits redirectUri t.record := by
      rw [Admits, not_or]
    simp only [if_pos hlive, write_back h hlive]
    simp only [json_used, json_redirectUri, json_set_used, hpass]
    by_cases hused : t.used = true <;> by_cases hadmits : Admits redirectUri t.record <;>
      simp [hlive, hused, hadmits]
  · simp [hlive]

theorem lookup_consumeScript (h : s.lookup key = some t.entry) (redirectUri : String) :
    (consumeScript now key (cStr redirectUri) s).2.lookup key =
      some (t.presented now redirectUri).entry := by
  rw [consumeScript_eq h, Standing.presented]
  by_cases hadmits : Admits redirectUri t.record
  · rw [if_pos hadmits]
    by_cases hfresh : now < t.expireAt ∧ t.used = false ∧ Admits redirectUri t.record
    · rw [if_pos hfresh, AList.lookup_insert]
    · -- What is used up already, or gone, does not change.
      have hkeep : t.usedUp now = t := by
        rw [Standing.usedUp]
        split
        · have hused : t.used = true := by
            by_contra hunused
            exact hfresh ⟨‹_›, by simpa using hunused, hadmits⟩
          rw [← hused]
        · rfl
      rw [if_neg hfresh, hkeep, h]
  · have hstale : ¬(now < t.expireAt ∧ t.used = false ∧ Admits redirectUri t.record) := by
      intro hall
      exact hadmits hall.2.2
    rw [if_neg hadmits, if_neg hstale, h]

theorem consumeScript_of_none (h : s.lookup key = none) (redirectUri : String) :
    consumeScript now key redirectUri s = (none, s) := by
  simp only [consumeScript, Redis.get, h]

theorem lookup_markScript_ne {key' : String} (hne : key' ≠ key) :
    (markScript now key s).lookup key' = s.lookup key' := by
  unfold markScript
  cases Redis.get now key s with
  | none => rfl
  | some json =>
    by_cases hpositive : ttl now key s > 0 <;>
      simp [hpositive, setex, Redis.set, AList.lookup_insert_ne hne]

theorem lookup_consumeScript_ne {key' redirectUri : String} (hne : key' ≠ key) :
    (consumeScript now key redirectUri s).2.lookup key' = s.lookup key' := by
  unfold consumeScript
  cases Redis.get now key s with
  | none => rfl
  | some json =>
    by_cases hpositive : ttl now key s > 0 <;> simp only [hpositive, if_true, if_false] <;>
      split <;> try rfl
    all_goals
      split
      · rfl
      · simp [setex, Redis.set, AList.lookup_insert_ne hne]

end Commands

theorem lookup_call {key : String} {s : Keyspace} {t : Option Standing}
    (h : s.lookup key = t.map Standing.entry) (i : TimedCall) :
    (call { now := i.now, fails := i.fails } i.call s).2.lookup key =
      (recordedBy key i t).map Standing.entry := by
  unfold recordedBy
  by_cases hfails : i.fails = true
  · have hkeep : (call { now := i.now, fails := i.fails } i.call s).2 = s := by
      cases i.call <;> simp [call, saveAuthCode, markAuthCodeUsed, consumeAuthCode, hfails]
    rw [if_pos hfails, hkeep, h]
  rw [if_neg hfails]
  cases hcall : i.call with
  | saveAuthCode c =>
    simp only [call, saveAuthCode, if_neg hfails, setex]
    by_cases hkey : codeKey c.code = key
    · rw [hkey, AList.lookup_insert, if_pos rfl]
      rfl
    · rw [AList.lookup_insert_ne (Ne.symm hkey), if_neg hkey, h]
  | getAuthCode code => exact h
  | markAuthCodeUsed code =>
    simp only [call, markAuthCodeUsed, if_neg hfails]
    by_cases hkey : codeKey code = key
    · rw [hkey, if_pos rfl]
      cases t with
      | none => rwa [markScript_of_none h]
      | some t => exact lookup_markScript h
    · rw [lookup_markScript_ne (Ne.symm hkey), if_neg hkey, h]
  | consumeAuthCode code redirectUri =>
    simp only [call, consumeAuthCode, if_neg hfails]
    by_cases hkey : codeKey code = key
    · rw [hkey, if_pos rfl]
      cases t with
      | none => rwa [consumeScript_of_none h]
      | some t => exact lookup_consumeScript h redirectUri
    · rw [lookup_consumeScript_ne (Ne.symm hkey), if_neg hkey, h]
  | purgeExpired => exact h

theorem recorded_of_run {ok : Guard Keyspace TimedCall CodeEvent} {history : List CodeEvent}
    {s : Keyspace} (hrun : codeCalls.Run ok ∅ history s) : Recorded history s := by
  induction hrun with
  | init => exact fun _ => rfl
  | next i _ _ ih => exact fun key => lookup_call (ih key) i

/-! ### Standing codes -/

section Live

variable {key redirectUri : String} {now : Int} {c : OAuth2AuthCode} {e : CodeEvent}
  {past : List CodeEvent}

/-- The call saves a record under the key. -/
def Saves (key : String) (c : OAuth2AuthCode) (e : CodeEvent) : Prop :=
  e.fails = false ∧ e.call = .saveAuthCode c ∧ codeKey c.code = key

/-- The call uses up the record under the key. -/
def Spends (key : String) (c : OAuth2AuthCode) (e : CodeEvent) : Prop :=
  e.fails = false ∧ match e.call with
    | .markAuthCodeUsed code => codeKey code = key
    | .consumeAuthCode code redirectUri => codeKey code = key ∧ Admits redirectUri c
    | _ => False

/-- The record was saved unused, its time has not come, and since then no call saved another one
under the key or used it up. -/
def Stands (key : String) (c : OAuth2AuthCode) (now : Int) (past : List CodeEvent) : Prop :=
  ∃ since save before, past = since ++ save :: before ∧ Saves key c save ∧ c.used = false ∧
    now < save.now + timeToLive save.now c ∧
    ∀ e ∈ since, (∀ c', ¬Saves key c' e) ∧ ¬Spends key c e

/-- The same, read off the record. -/
def Live (key : String) (c : OAuth2AuthCode) (now : Int) (past : List CodeEvent) : Prop :=
  ∃ t, standing key past = some t ∧ t.record = c ∧ t.used = false ∧ now < t.expireAt

theorem live_cons_of_saves {c' : OAuth2AuthCode} (h : Saves key c' e) :
    Live key c now (e :: past) ↔
      c' = c ∧ c.used = false ∧ now < e.now + timeToLive e.now c := by
  obtain ⟨hfails, hcall, hkey⟩ := h
  have hrecord : standing key (e :: past) =
      some ⟨c', e.now + timeToLive e.now c', c'.used⟩ := by
    simp [standing, recordedBy, hfails, hcall, hkey]
  rw [Live, hrecord]
  constructor
  · rintro ⟨t, ht, rfl, hused, hlive⟩
    obtain rfl := Option.some.inj ht
    exact ⟨rfl, hused, hlive⟩
  · rintro ⟨rfl, hused, hlive⟩
    exact ⟨_, rfl, rfl, hused, hlive⟩

theorem not_live_cons_of_spends (h : Spends key c e) (hforward : e.now ≤ now) :
    ¬Live key c now (e :: past) := by
  rintro ⟨t, ht, rfl, hused, hlive⟩
  obtain ⟨hfails, hspends⟩ := h
  have hspent : ∃ t' : Standing, t = t'.usedUp e.now := by
    rw [standing, recordedBy, if_neg (by simp [hfails])] at ht
    cases hcall : e.call with
    | markAuthCodeUsed code =>
      simp only [hcall] at hspends ht
      rw [if_pos hspends] at ht
      obtain ⟨t', -, rfl⟩ := Option.map_eq_some_iff.mp ht
      exact ⟨t', rfl⟩
    | consumeAuthCode code redirectUri =>
      simp only [hcall] at hspends ht
      rw [if_pos hspends.1] at ht
      obtain ⟨t', -, rfl⟩ := Option.map_eq_some_iff.mp ht
      have hadmits := hspends.2
      rw [Standing.presented_record] at hadmits
      exact ⟨t', if_pos hadmits⟩
    | _ => simp [hcall] at hspends
  obtain ⟨t', rfl⟩ := hspent
  rw [Standing.usedUp_expireAt] at hlive
  rw [Standing.usedUp_used (by omega)] at hused
  cases hused

theorem live_cons_of_not (hsaves : ∀ c', ¬Saves key c' e) (hspends : ¬Spends key c e) :
    Live key c now (e :: past) ↔ Live key c now past := by
  by_cases hfails : e.fails = true
  · rw [Live, Live, standing, recordedBy, if_pos hfails]
  have hexecuted : e.fails = false := by simpa using hfails
  rw [Live, Live, standing, recordedBy, if_neg hfails]
  cases hcall : e.call with
  | saveAuthCode c' =>
    have hkey : codeKey c'.code ≠ key := by
      intro hkey
      exact hsaves c' ⟨hexecuted, hcall, hkey⟩
    simp only [if_neg hkey]
  | getAuthCode code => rfl
  | markAuthCodeUsed code =>
    have hkey : codeKey code ≠ key := by
      intro hkey
      apply hspends
      simp [Spends, hexecuted, hcall, hkey]
    simp only [if_neg hkey]
  | consumeAuthCode code redirectUri =>
    by_cases hkey : codeKey code = key
    swap
    · simp only [if_neg hkey]
    have hadmits : ¬Admits redirectUri c := by
      intro hadmits
      apply hspends
      simp [Spends, hexecuted, hcall, hkey, hadmits]
    -- A presentation with another redirect URI leaves the record alone.
    have hkeep (t : Standing) (hrecord : t.record = c) :
        t.presented e.now redirectUri = t := by
      rw [Standing.presented, hrecord, if_neg hadmits]
    simp only [if_pos hkey]
    constructor
    · rintro ⟨t, ht, hrecord, hused, hlive⟩
      obtain ⟨t', ht', rfl⟩ := Option.map_eq_some_iff.mp ht
      rw [Standing.presented_record] at hrecord
      rw [hkeep t' hrecord] at hused hlive
      exact ⟨t', ht', hrecord, hused, hlive⟩
    · rintro ⟨t, ht, hrecord, hused, hlive⟩
      refine ⟨t, ?_, hrecord, hused, hlive⟩
      rw [ht, Option.map_some, hkeep t hrecord]
  | purgeExpired => rfl

theorem live_iff_stands (hforward : ∀ e ∈ past, e.now ≤ now) :
    Live key c now past ↔ Stands key c now past := by
  induction past with
  | nil =>
    constructor
    · rintro ⟨t, ht, -⟩
      cases ht
    · rintro ⟨since, save, before, hpast, -⟩
      simp at hpast
  | cons e past ih =>
    rw [List.forall_mem_cons] at hforward
    have hstands : Stands key c now (e :: past) ↔
        (Saves key c e ∧ c.used = false ∧ now < e.now + timeToLive e.now c) ∨
          ((∀ c', ¬Saves key c' e) ∧ ¬Spends key c e ∧ Stands key c now past) := by
      constructor
      · rintro ⟨since, save, before, hpast, hsave, hused, hlive, hsince⟩
        cases since with
        | nil =>
          obtain ⟨rfl, rfl⟩ := List.cons.inj hpast
          exact .inl ⟨hsave, hused, hlive⟩
        | cons e' since =>
          obtain ⟨rfl, rfl⟩ := List.cons.inj hpast
          rw [List.forall_mem_cons] at hsince
          exact .inr ⟨hsince.1.1, hsince.1.2, since, save, before, rfl, hsave, hused, hlive,
            hsince.2⟩
      · rintro (⟨hsave, hused, hlive⟩ | ⟨hsaves, hspends, since, save, before, rfl, hrest⟩)
        · exact ⟨[], e, past, rfl, hsave, hused, hlive, by simp⟩
        · obtain ⟨hsave, hused, hlive, hsince⟩ := hrest
          refine ⟨e :: since, save, before, rfl, hsave, hused, hlive, ?_⟩
          rw [List.forall_mem_cons]
          exact ⟨⟨hsaves, hspends⟩, hsince⟩
    rw [hstands]
    by_cases hsaves : ∃ c', Saves key c' e
    · obtain ⟨c', hsave⟩ := hsaves
      rw [live_cons_of_saves hsave]
      constructor
      · rintro ⟨rfl, hused, hlive⟩
        exact .inl ⟨hsave, hused, hlive⟩
      · rintro (⟨hsame, hused, hlive⟩ | ⟨hnone, -⟩)
        · have hcall := hsave.2.1.symm.trans hsame.2.1
          exact ⟨CodeCall.saveAuthCode.inj hcall, hused, hlive⟩
        · exact absurd hsave (hnone c')
    have hnone : ∀ c', ¬Saves key c' e := by
      intro c' hsave
      exact hsaves ⟨c', hsave⟩
    by_cases hspends : Spends key c e
    · have hdead : ¬Live key c now (e :: past) := not_live_cons_of_spends hspends hforward.1
      simp [hdead, hnone, hspends]
    · rw [live_cons_of_not hnone hspends, ih hforward.2]
      simp [hnone, hspends]

/-- Under a key stands at most one record. -/
theorem Stands.unique {c' : OAuth2AuthCode} (h : Stands key c now past)
    (h' : Stands key c' now past) (hforward : ∀ e ∈ past, e.now ≤ now) : c = c' := by
  obtain ⟨t, ht, rfl, -⟩ := (live_iff_stands hforward).mpr h
  obtain ⟨t', ht', rfl, -⟩ := (live_iff_stands hforward).mpr h'
  rw [ht] at ht'
  rw [Option.some.inj ht']

end Live

/-! ### Redemptions -/

section Redemptions

variable {code redirectUri : String} {e : CodeEvent} {later past : List CodeEvent} {s : Keyspace}

/-- What the exchange gets of a record. -/
def redeemed (code : String) (c : OAuth2AuthCode) : OAuth2AuthCode :=
  { c with
    code, codeChallenge := "", codeChallengeMethod := "", nonce := "", used := true
    authTime := 0, amr := "" }

theorem reply_of_recorded (hrecorded : Recorded past s) (i : TimedCall)
    (hcall : i.call = .consumeAuthCode code redirectUri) (r : OAuth2AuthCode) :
    (codeCalls.step s i).2.reply = some r ↔
      i.fails = false ∧ i.lost = false ∧ ∃ c, Live (codeKey code) c i.now past ∧
        Admits redirectUri c ∧ r = redeemed code c := by
  have hreply : (codeCalls.step s i).2.reply =
      if i.lost = true then none
      else if i.fails = true then none
      else (consumeScript i.now (codeKey code) (cStr redirectUri) s).1.map
        (consumedAuthCode code) := by
    simp only [codeCalls, hcall, call, consumeAuthCode]
    split <;> try rfl
    split <;> rfl
  rw [hreply]
  by_cases hlost : i.lost = true
  · simp [hlost]
  by_cases hfails : i.fails = true
  · simp [hfails]
  have hentry := hrecorded (codeKey code)
  cases hstanding : standing (codeKey code) past with
  | none =>
    rw [hstanding] at hentry
    simp [hlost, hfails, consumeScript_of_none hentry, Live, hstanding]
  | some t =>
    rw [hstanding] at hentry
    rw [if_neg hlost, if_neg hfails, consumeScript_eq hentry]
    constructor
    · intro h
      split at h
      · rename_i hfresh
        obtain ⟨hlive, hused, hadmits⟩ := hfresh
        refine ⟨by simpa using hfails, by simpa using hlost, t.record, ?_, hadmits, ?_⟩
        · exact ⟨t, hstanding, rfl, hused, hlive⟩
        · exact (Option.some.inj h).symm
      · cases h
    · rintro ⟨-, -, c, ⟨t', ht', rfl, hused, hlive⟩, hadmits, rfl⟩
      obtain rfl := Option.some.inj (hstanding.symm.trans ht')
      rw [if_pos ⟨hlive, hused, hadmits⟩]
      rfl

theorem forward_of_run (hrun : codeCalls.Run Forward ∅ (later ++ e :: past) s) :
    ∀ e' ∈ past, e'.now ≤ e.now := by
  obtain ⟨t, hshorter⟩ := hrun.shorter
  obtain ⟨q, i, -, hok, hstep⟩ := hshorter.last
  have hnow : e.now = i.now := congrArg (fun p => p.2.now) hstep.symm
  intro e' he'
  rw [hnow]
  exact hok e' he'

theorem reply_iff (hrun : codeCalls.Run Forward ∅ (later ++ e :: past) s)
    (hcall : e.call = .consumeAuthCode code redirectUri) (r : OAuth2AuthCode) :
    e.reply = some r ↔ e.fails = false ∧ e.lost = false ∧
      ∃ c, Stands (codeKey code) c e.now past ∧ Admits redirectUri c ∧ r = redeemed code c := by
  have hforward := forward_of_run hrun
  obtain ⟨t, hshorter⟩ := hrun.shorter
  obtain ⟨q, i, hbefore, -, hstep⟩ := hshorter.last
  obtain rfl : (codeCalls.step q i).2 = e := congrArg Prod.snd hstep
  have hnow : ∀ e' ∈ past, e'.now ≤ i.now := hforward
  rw [reply_of_recorded (recorded_of_run hbefore) i hcall]
  simp only [live_iff_stands hnow]
  rfl

/-- In every run a presented code is redeemed exactly if it stands, with what was saved; and from
one redemption of a code to the next somebody saves it again. -/
theorem redeemed_iff_stands (hrun : codeCalls.Run Forward ∅ (later ++ e :: past) s)
    (hcall : e.call = .consumeAuthCode code redirectUri) :
    (∀ r, e.reply = some r ↔ e.fails = false ∧ e.lost = false ∧
      ∃ c, Stands (codeKey code) c e.now past ∧ Admits redirectUri c ∧ r = redeemed code c) ∧
    ∀ since earlier before code' redirectUri', past = since ++ earlier :: before →
      earlier.call = .consumeAuthCode code' redirectUri' → codeKey code' = codeKey code →
      earlier.reply ≠ none → e.reply ≠ none → ∃ save ∈ since, ∃ c, Saves (codeKey code) c save := by
  refine ⟨reply_iff hrun hcall, ?_⟩
  rintro since earlier before code' redirectUri' rfl hcall' hkey hredeemed hagain
  have hforward := forward_of_run hrun
  obtain ⟨r, hr⟩ := Option.ne_none_iff_exists'.mp hagain
  obtain ⟨-, -, c, hstands, -, -⟩ := (reply_iff hrun hcall r).mp hr
  obtain ⟨since', save, before', hpast, hsave, hused, hlive, hsince⟩ := hstands
  rcases List.append_eq_append_iff.mp hpast with ⟨between, rfl, hrest⟩ | ⟨between, rfl, hrest⟩
  · cases between with
    | nil =>
      obtain ⟨rfl, -⟩ := List.cons.inj hrest
      cases hcall'.symm.trans hsave.2.1
    | cons x between =>
      -- The earlier redemption used up the record that stands later.
      obtain ⟨rfl, rfl⟩ := List.cons.inj hrest
      have hrun' : codeCalls.Run Forward ∅
          ((later ++ e :: since) ++ earlier :: (between ++ save :: before')) s := by
        simpa using hrun
      have hbefore := forward_of_run hrun'
      have hsame : ∀ e' ∈ between, (∀ c', ¬Saves (codeKey code) c' e') ∧
          ¬Spends (codeKey code) c e' := by
        intro e' he'
        exact hsince e' (by simp [he'])
      have hold : Stands (codeKey code) c earlier.now (between ++ save :: before') := by
        refine ⟨between, save, before', rfl, hsave, hused, ?_, hsame⟩
        have hearlier := hforward earlier (by simp)
        omega
      obtain ⟨r', hr'⟩ := Option.ne_none_iff_exists'.mp hredeemed
      obtain ⟨hfails, -, c', hstands', hadmits, -⟩ := (reply_iff hrun' hcall' r').mp hr'
      rw [hkey] at hstands'
      obtain rfl := hold.unique hstands' hbefore
      have hspends : Spends (codeKey code) c earlier := by
        simp [Spends, hfails, hcall', hkey, hadmits]
      exact absurd hspends (hsince earlier (by simp)).2
  · cases between with
    | nil =>
      obtain ⟨rfl, -⟩ := List.cons.inj hrest
      cases hcall'.symm.trans hsave.2.1
    | cons x between =>
      obtain ⟨rfl, -⟩ := List.cons.inj hrest
      exact ⟨save, by simp, c, hsave⟩

end Redemptions

/-! ### A code that is saved twice -/

def knownCode : OAuth2AuthCode where
  code := "hash"
  clientId := "spa"
  userId := "7"
  scope := "openid"
  redirectUri := "https://app.example.com/cb"
  codeChallenge := ""
  codeChallengeMethod := ""
  nonce := ""
  expiresAt := 1600

def present (now : Int) (redirectUri : String) : TimedCall where
  now
  call := .consumeAuthCode "hash" redirectUri

def knownCalls : List TimedCall :=
  [{ now := 1000, call := .saveAuthCode knownCode }, present 1010 "https://other.example.com/",
   present 1020 "https://app.example.com/cb", present 1030 "https://app.example.com/cb",
   { now := 1040, call := .saveAuthCode { knownCode with expiresAt := 1640 } },
   present 1639 ""]

def executed : List CodeEvent × Keyspace := codeCalls.exec [] ∅ knownCalls

theorem redeemed_iff_stands_again :
    executed.1.map (fun e => e.reply.map OAuth2AuthCode.expiresAt) =
        [some 1640, none, none, some 1600, none, none] ∧
      ∃ e ∈ executed.1.tail.take 2, ∃ c, Saves (codeKey "hash") c e := by
  have hguarded : codeCalls.Guarded Forward [] ∅ knownCalls := by decide +kernel
  obtain ⟨last, since, first, before, hhistory, hcalls, hreplies⟩ :
      ∃ last since first before, executed.1 = last :: (since ++ first :: before) ∧
        (last.call = .consumeAuthCode "hash" "" ∧
          first.call = .consumeAuthCode "hash" "https://app.example.com/cb" ∧
          since = executed.1.tail.take 2) ∧
        (last.reply ≠ none ∧ first.reply ≠ none) := by
    refine ⟨_, [_, _], _, _, rfl, ⟨rfl, rfl, rfl⟩, ?_, ?_⟩ <;> decide +kernel
  refine ⟨by decide +kernel, ?_⟩
  have hrun : codeCalls.Run Forward ∅ ([] ++ last :: (since ++ first :: before)) executed.2 := by
    rw [List.nil_append, ← hhistory]
    exact .exec_of_guarded .init _ hguarded
  rw [← hcalls.2.2]
  exact (redeemed_iff_stands hrun hcalls.1).2 since first before _ _ rfl hcalls.2.1 rfl hreplies.2
    hreplies.1

end AuthForge.RedisCodes
