import AuthForge.OAuth2.Trace
import AuthForge.Storage.Memory

/-!
# Refresh token families

Exchanges and refreshes run interleaved over the in-memory token store; clients and grants may be
stored anywhere. An exchange starts a family with a fresh identifier, a refresh continues the
family of the token it revoked. The right to put the next un-revoked token of a family into the
store is unique: either an un-revoked token is stored, or one request in flight holds the right,
having drawn the identifier or won the compare-and-set, and not saved yet.
-/

namespace AuthForge.RefreshFamily

open OAuth2 Service Storage

variable {svc : TokenService} {clients : ClientRepository} {grants : GrantRepository}

abbrev memoryTokens (clients : ClientRepository) (grants : GrantRepository) : Repositories :=
  ⟨clients, grants, Memory.tokenRepository⟩

def noTokens (cs : clients.State) (gs : grants.State) : Store (memoryTokens clients grants) :=
  ⟨cs, gs, Memory.Tokens.empty⟩

def refreshOwner (r : OAuth2RefreshToken) : String × String × String :=
  (r.clientId, r.userId, r.scope)

def accessOwner (a : OAuth2AccessToken) : String × String × String :=
  (a.clientId, a.userId, a.scope)

/-! ### What the history tells about families -/

def familyDrawn : RepoEvent → Option String
  | .called _ _ _ ⟨.generateSecureToken 16, v⟩ => some v
  | _ => none

def tokenDrawn : RepoEvent → Option String
  | .called _ (.exchange _) _ ⟨.generateSecureToken 32, v⟩ => some v
  | .called _ (.refresh _) _ ⟨.generateSecureToken 32, v⟩ => some v
  | _ => none

/-- Family identifiers, and token values as they are stored, never repeat. -/
structure ValuesFresh (svc : TokenService) (history : List RepoEvent) : Prop where
  families : (history.filterMap familyDrawn).Nodup
  tokens : (history.filterMap fun e => (tokenDrawn e).map (hashToken svc.crypto)).Nodup

def PairSaved (history : List RepoEvent) (tid : Nat) (a : OAuth2AccessToken)
    (r : OAuth2RefreshToken) : Prop :=
  ∃ req env ok, Event.called tid req env ⟨.saveTokenPair a r, ok⟩ ∈ history

def Drew (history : List RepoEvent) (tid : Nat) (familyId : String) : Prop :=
  ∃ req env, Event.called tid req env ⟨.generateSecureToken 16, familyId⟩ ∈ history

def Won (history : List RepoEvent) (tid : Nat) (rt : OAuth2RefreshToken) : Prop :=
  ∃ req env token, Event.called tid req env ⟨.atomicRevokeRefreshToken token, some rt⟩ ∈ history

/-- Request `tid` holds the right to save the family's next token. -/
def Holds (history : List RepoEvent) (tid : Nat) (familyId : String) : Prop :=
  (∀ a r, ¬PairSaved history tid a r) ∧
    (Drew history tid familyId ∨ ∃ rt, Won history tid rt ∧ rt.familyId = familyId)

/-- The event neither saves a pair, nor draws a family identifier, nor wins a compare-and-set. -/
def Neutral (e : RepoEvent) : Prop :=
  (∀ tid req env a r ok, e ≠ .called tid req env ⟨.saveTokenPair a r, ok⟩) ∧
  (∀ tid req env v, e ≠ .called tid req env ⟨.generateSecureToken 16, v⟩) ∧
  ∀ tid req env token rt, e ≠ .called tid req env ⟨.atomicRevokeRefreshToken token, some rt⟩

variable {history : List RepoEvent} {e : RepoEvent} {tid tid' : Nat} {familyId : String}
  {a : OAuth2AccessToken} {r rt : OAuth2RefreshToken} {req : Request} {env : Env}

theorem PairSaved.cons (h : PairSaved history tid a r) (e : RepoEvent) :
    PairSaved (e :: history) tid a r := by
  obtain ⟨req, env, ok, hmem⟩ := h
  exact ⟨req, env, ok, List.mem_cons_of_mem e hmem⟩

theorem Drew.cons (h : Drew history tid familyId) (e : RepoEvent) :
    Drew (e :: history) tid familyId := by
  obtain ⟨req, env, hmem⟩ := h
  exact ⟨req, env, List.mem_cons_of_mem e hmem⟩

/-! #### How the predicates grow with one event -/

theorem pairSaved_cons_of_ne
    (hne : ∀ tid req env a r ok, e ≠ .called tid req env ⟨.saveTokenPair a r, ok⟩) :
    PairSaved (e :: history) tid a r ↔ PairSaved history tid a r := by
  constructor
  · intro h
    obtain ⟨req, env, ok, hmem⟩ := h
    rcases List.mem_cons.mp hmem with rfl | hmem
    · exact absurd rfl (hne _ _ _ _ _ _)
    · exact ⟨req, env, ok, hmem⟩
  · exact fun h => h.cons e

theorem drew_cons_of_ne
    (hne : ∀ tid req env v, e ≠ .called tid req env ⟨.generateSecureToken 16, v⟩) :
    Drew (e :: history) tid familyId ↔ Drew history tid familyId := by
  constructor
  · intro h
    obtain ⟨req, env, hmem⟩ := h
    rcases List.mem_cons.mp hmem with rfl | hmem
    · exact absurd rfl (hne _ _ _ _)
    · exact ⟨req, env, hmem⟩
  · exact fun h => h.cons e

theorem won_cons_of_ne
    (hne : ∀ tid req env token rt,
      e ≠ .called tid req env ⟨.atomicRevokeRefreshToken token, some rt⟩) :
    Won (e :: history) tid rt ↔ Won history tid rt := by
  constructor
  · intro h
    obtain ⟨req, env, token, hmem⟩ := h
    rcases List.mem_cons.mp hmem with rfl | hmem
    · exact absurd rfl (hne _ _ _ _ _)
    · exact ⟨req, env, token, hmem⟩
  · intro h
    obtain ⟨req, env, token, hmem⟩ := h
    exact ⟨req, env, token, List.mem_cons_of_mem e hmem⟩

theorem holds_cons_of_neutral (hneutral : Neutral e) :
    Holds (e :: history) tid familyId ↔ Holds history tid familyId := by
  simp only [Holds, pairSaved_cons_of_ne hneutral.1, drew_cons_of_ne hneutral.2.1,
    won_cons_of_ne hneutral.2.2]

theorem pairSaved_cons_save {a' : OAuth2AccessToken} {r' : OAuth2RefreshToken} {ok : Bool} :
    PairSaved (.called tid' req env ⟨.saveTokenPair a' r', ok⟩ :: history) tid a r ↔
      (tid = tid' ∧ a = a' ∧ r = r') ∨ PairSaved history tid a r := by
  constructor
  · intro h
    obtain ⟨req, env, ok, hmem⟩ := h
    rcases List.mem_cons.mp hmem with heq | hmem
    · cases heq
      exact .inl ⟨rfl, rfl, rfl⟩
    · exact .inr ⟨req, env, ok, hmem⟩
  · intro h'
    obtain ⟨rfl, rfl, rfl⟩ | h := h'
    · exact ⟨req, env, ok, List.mem_cons_self⟩
    · exact h.cons _

theorem holds_cons_save {a' : OAuth2AccessToken} {r' : OAuth2RefreshToken} {ok : Bool} :
    Holds (.called tid' req env ⟨.saveTokenPair a' r', ok⟩ :: history) tid familyId ↔
      tid ≠ tid' ∧ Holds history tid familyId := by
  unfold Holds
  rw [drew_cons_of_ne (by intros; nofun)]
  have hwon : ∀ {rt}, Won (.called tid' req env ⟨.saveTokenPair a' r', ok⟩ :: history) tid rt ↔
      Won history tid rt := won_cons_of_ne (by intros; nofun)
  simp only [hwon, pairSaved_cons_save]
  constructor
  · intro h
    obtain ⟨hno, hright⟩ := h
    refine ⟨?_, fun a r h => hno a r (.inr h), hright⟩
    intro heq
    obtain rfl := heq
    exact hno a' r' (.inl ⟨rfl, rfl, rfl⟩)
  · intro h
    obtain ⟨hne, hno, hright⟩ := h
    refine ⟨?_, hright⟩
    intro a r h'
    obtain ⟨heq, -⟩ | h := h'
    · exact hne heq
    · exact hno a r h

theorem Holds.of_cons_draw {v : String}
    (h : Holds (.called tid' req env ⟨.generateSecureToken 16, v⟩ :: history) tid familyId) :
    (tid = tid' ∧ familyId = v) ∨ Holds history tid familyId := by
  obtain ⟨hno, hright⟩ := h
  have hno' : ∀ a r, ¬PairSaved history tid a r := fun a r hsaved => hno a r (hsaved.cons _)
  rcases hright with ⟨req', env', hmem⟩ | ⟨rt, ⟨req', env', token, hmem⟩, hfamily⟩
  · rcases List.mem_cons.mp hmem with heq | hmem
    · cases heq
      exact .inl ⟨rfl, rfl⟩
    · exact .inr ⟨hno', .inl ⟨req', env', hmem⟩⟩
  · rcases List.mem_cons.mp hmem with heq | hmem
    · cases heq
    · exact .inr ⟨hno', .inr ⟨rt, ⟨req', env', token, hmem⟩, hfamily⟩⟩

theorem Holds.of_cons_win {token : String}
    (h : Holds (.called tid' req env ⟨.atomicRevokeRefreshToken token, some rt⟩ :: history) tid
      familyId) :
    (tid = tid' ∧ familyId = rt.familyId) ∨ Holds history tid familyId := by
  obtain ⟨hno, hright⟩ := h
  have hno' : ∀ a r, ¬PairSaved history tid a r := fun a r hsaved => hno a r (hsaved.cons _)
  rcases hright with ⟨req', env', hmem⟩ | ⟨rt', ⟨req', env', token', hmem⟩, hfamily⟩
  · rcases List.mem_cons.mp hmem with heq | hmem
    · cases heq
    · exact .inr ⟨hno', .inl ⟨req', env', hmem⟩⟩
  · rcases List.mem_cons.mp hmem with heq | hmem
    · cases heq
      exact .inl ⟨rfl, hfamily.symm⟩
    · exact .inr ⟨hno', .inr ⟨rt', ⟨req', env', token', hmem⟩, hfamily⟩⟩

/-! ### The invariant -/

def SameGrant (r r' : OAuth2RefreshToken) : Prop :=
  r.familyId = r'.familyId ∧ refreshOwner r = refreshOwner r'

/-- Families in the history and in the refresh token table. -/
structure FamilyInv (history : List RepoEvent) (tokens : Dict String OAuth2RefreshToken) :
    Prop where
  liveUnique : ∀ {k k' r r'}, tokens.lookup k = some r → tokens.lookup k' = some r' →
    r.revoked = false → r'.revoked = false → r.familyId = r'.familyId → k = k'
  /-- While one is stored, no request holds the right to the family. -/
  liveFree : ∀ {k r tid}, tokens.lookup k = some r → r.revoked = false →
    ¬Holds history tid r.familyId
  holderUnique : ∀ {tid tid' familyId}, Holds history tid familyId →
    Holds history tid' familyId → tid = tid'
  stored : ∀ {k r}, tokens.lookup k = some r →
    ∃ tid a r₀, PairSaved history tid a r₀ ∧ SameGrant r r₀
  won : ∀ {tid rt}, Won history tid rt → ∃ tid a r₀, PairSaved history tid a r₀ ∧ SameGrant rt r₀
  drawn : ∀ {tid a r}, PairSaved history tid a r → ∃ tid', Drew history tid' r.familyId
  /-- No token of a drawn family is saved before its request saves one. -/
  unsaved : ∀ {tid familyId}, Drew history tid familyId → (∀ a r, ¬PairSaved history tid a r) →
    ∀ {tid' a' r'}, PairSaved history tid' a' r' → r'.familyId ≠ familyId
  sameOwner : ∀ {tid a r tid' a' r'}, PairSaved history tid a r → PairSaved history tid' a' r' →
    r.familyId = r'.familyId → refreshOwner r = refreshOwner r'

variable {tokens tokens' : Dict String OAuth2RefreshToken}

theorem FamilyInv.drawn_of_holds (h : FamilyInv history tokens) (hholds : Holds history tid familyId) :
    ∃ tid', Drew history tid' familyId := by
  rcases hholds.2 with hdrew | ⟨rt, hwon, rfl⟩
  · exact ⟨tid, hdrew⟩
  · obtain ⟨tid₀, a, r₀, hsaved, hsame⟩ := h.won hwon
    obtain ⟨tid', hdrew⟩ := h.drawn hsaved
    exact ⟨tid', hsame.1 ▸ hdrew⟩

theorem FamilyInv.neutral (h : FamilyInv history tokens) (hneutral : Neutral e)
    (htokens : ∀ {k r}, tokens'.lookup k = some r → ∃ it, tokens.lookup k = some it ∧
      SameGrant r it ∧ (r.revoked = false → it.revoked = false)) :
    FamilyInv (e :: history) tokens' where
  liveUnique hk hk' hlive hlive' hfamily := by
    obtain ⟨it, hit, hsame, hrevoked⟩ := htokens hk
    obtain ⟨it', hit', hsame', hrevoked'⟩ := htokens hk'
    refine h.liveUnique hit hit' (hrevoked hlive) (hrevoked' hlive') ?_
    rw [← hsame.1, ← hsame'.1, hfamily]
  liveFree hk hlive := by
    obtain ⟨it, hit, hsame, hrevoked⟩ := htokens hk
    rw [holds_cons_of_neutral hneutral, hsame.1]
    exact h.liveFree hit (hrevoked hlive)
  holderUnique hholds hholds' := by
    rw [holds_cons_of_neutral hneutral] at hholds hholds'
    exact h.holderUnique hholds hholds'
  stored hk := by
    obtain ⟨it, hit, hsame, -⟩ := htokens hk
    obtain ⟨tid, a, r₀, hsaved, hsame₀⟩ := h.stored hit
    exact ⟨tid, a, r₀, hsaved.cons e, hsame.1.trans hsame₀.1, hsame.2.trans hsame₀.2⟩
  won hwon := by
    rw [won_cons_of_ne hneutral.2.2] at hwon
    obtain ⟨tid, a, r₀, hsaved, hsame⟩ := h.won hwon
    exact ⟨tid, a, r₀, hsaved.cons e, hsame⟩
  drawn hsaved := by
    rw [pairSaved_cons_of_ne hneutral.1] at hsaved
    obtain ⟨tid', hdrew⟩ := h.drawn hsaved
    exact ⟨tid', hdrew.cons e⟩
  unsaved hdrew hno := by
    intro tid' a' r' hsaved
    simp only [pairSaved_cons_of_ne hneutral.1] at hno hsaved
    exact h.unsaved ((drew_cons_of_ne hneutral.2.1).mp hdrew) hno hsaved
  sameOwner hsaved hsaved' := by
    rw [pairSaved_cons_of_ne hneutral.1] at hsaved hsaved'
    exact h.sameOwner hsaved hsaved'

theorem FamilyInv.frame (h : FamilyInv history tokens) (hneutral : Neutral e) :
    FamilyInv (e :: history) tokens :=
  h.neutral hneutral fun hk => ⟨_, hk, ⟨rfl, rfl⟩, fun hlive => hlive⟩

theorem FamilyInv.draw (h : FamilyInv history tokens) {v : String}
    (hfresh : ∀ tid', ¬Drew history tid' v) :
    FamilyInv (.called tid req env ⟨.generateSecureToken 16, v⟩ :: history) tokens := by
  have hsave : ∀ {tid' a r},
      PairSaved (.called tid req env ⟨.generateSecureToken 16, v⟩ :: history) tid' a r ↔
        PairSaved history tid' a r := pairSaved_cons_of_ne (by intros; nofun)
  have hwin : ∀ {tid' rt},
      Won (.called tid req env ⟨.generateSecureToken 16, v⟩ :: history) tid' rt ↔
        Won history tid' rt := won_cons_of_ne (by intros; nofun)
  refine ⟨h.liveUnique, ?_, ?_, ?_, ?_, ?_, ?_, ?_⟩
  · intro k r tid' hk hlive hholds
    rcases hholds.of_cons_draw with ⟨rfl, hfamily⟩ | hholds
    · obtain ⟨tid₀, a, r₀, hsaved, hsame⟩ := h.stored hk
      obtain ⟨tid₁, hdrew⟩ := h.drawn hsaved
      exact hfresh tid₁ (hfamily ▸ hsame.1 ▸ hdrew)
    · exact h.liveFree hk hlive hholds
  · intro tid₁ tid₂ familyId hholds₁ hholds₂
    rcases hholds₁.of_cons_draw with ⟨rfl, rfl⟩ | hold₁
    · rcases hholds₂.of_cons_draw with ⟨rfl, -⟩ | hold₂
      · rfl
      · obtain ⟨tid₀, hdrew⟩ := h.drawn_of_holds hold₂
        exact absurd hdrew (hfresh tid₀)
    · rcases hholds₂.of_cons_draw with ⟨rfl, rfl⟩ | hold₂
      · obtain ⟨tid₀, hdrew⟩ := h.drawn_of_holds hold₁
        exact absurd hdrew (hfresh tid₀)
      · exact h.holderUnique hold₁ hold₂
  · intro k r hk
    obtain ⟨tid', a, r₀, hsaved, hsame⟩ := h.stored hk
    exact ⟨tid', a, r₀, hsaved.cons _, hsame⟩
  · intro tid' rt hwon
    obtain ⟨tid₀, a, r₀, hsaved, hsame⟩ := h.won (hwin.mp hwon)
    exact ⟨tid₀, a, r₀, hsaved.cons _, hsame⟩
  · intro tid' a r hsaved
    obtain ⟨tid₀, hdrew⟩ := h.drawn (hsave.mp hsaved)
    exact ⟨tid₀, hdrew.cons _⟩
  · intro tid' familyId h hno tid₁ a₁ r₁ hsaved
    obtain ⟨req', env', hmem⟩ := h
    rw [hsave] at hsaved
    rcases List.mem_cons.mp hmem with heq | hmem
    · cases heq
      intro heq
      obtain rfl := heq
      obtain ⟨tid₀, hdrew⟩ := h.drawn hsaved
      exact hfresh tid₀ hdrew
    · exact h.unsaved ⟨req', env', hmem⟩ (fun a r hs => hno a r (hs.cons _)) hsaved
  · intro tid₁ a₁ r₁ tid₂ a₂ r₂ hsaved₁ hsaved₂
    exact h.sameOwner (hsave.mp hsaved₁) (hsave.mp hsaved₂)

/-- Winning a compare-and-set keeps the invariant: the right moves from the store to the
request. -/
theorem FamilyInv.win (h : FamilyInv history tokens) {token : String} {it : OAuth2RefreshToken}
    (hlookup : tokens.lookup token = some it) (hlive : it.revoked = false) :
    FamilyInv
      (.called tid req env
        ⟨.atomicRevokeRefreshToken token, some { it with revoked := true }⟩ :: history)
      (tokens.insert token { it with revoked := true }) := by
  have hsave : ∀ {tid' a r}, PairSaved (.called tid req env
      ⟨.atomicRevokeRefreshToken token, some { it with revoked := true }⟩ :: history) tid' a r ↔
        PairSaved history tid' a r := pairSaved_cons_of_ne (by intros; nofun)
  have hdraw : ∀ {tid' f}, Drew (.called tid req env
      ⟨.atomicRevokeRefreshToken token, some { it with revoked := true }⟩ :: history) tid' f ↔
        Drew history tid' f := drew_cons_of_ne (by intros; nofun)
  have hold : ∀ {k r}, (tokens.insert token { it with revoked := true }).lookup k = some r →
      r.revoked = false → k ≠ token ∧ tokens.lookup k = some r := by
    intro k r hk hr
    by_cases heq : k = token
    · subst heq
      rw [AList.lookup_insert] at hk
      obtain rfl := Option.some.inj hk
      cases hr
    · rw [AList.lookup_insert_ne heq] at hk
      exact ⟨heq, hk⟩
  refine ⟨?_, ?_, ?_, ?_, ?_, ?_, ?_, ?_⟩
  · intro k k' r r' hk hk' hr hr'
    exact h.liveUnique (hold hk hr).2 (hold hk' hr').2 hr hr'
  · intro k r tid' hk hr hholds
    obtain ⟨hne, hk⟩ := hold hk hr
    rcases hholds.of_cons_win with ⟨-, hfamily⟩ | hholds
    · exact hne (h.liveUnique hk hlookup hr hlive hfamily)
    · exact h.liveFree hk hr hholds
  · intro tid₁ tid₂ familyId hholds₁ hholds₂
    rcases hholds₁.of_cons_win with ⟨rfl, rfl⟩ | hold₁
    · rcases hholds₂.of_cons_win with ⟨rfl, -⟩ | hold₂
      · rfl
      · exact (h.liveFree hlookup hlive hold₂).elim
    · rcases hholds₂.of_cons_win with ⟨rfl, rfl⟩ | hold₂
      · exact (h.liveFree hlookup hlive hold₁).elim
      · exact h.holderUnique hold₁ hold₂
  · intro k r hk
    by_cases heq : k = token
    · subst heq
      rw [AList.lookup_insert] at hk
      obtain rfl := Option.some.inj hk
      obtain ⟨tid', a, r₀, hsaved, hsame⟩ := h.stored hlookup
      exact ⟨tid', a, r₀, hsaved.cons _, hsame⟩
    · rw [AList.lookup_insert_ne heq] at hk
      obtain ⟨tid', a, r₀, hsaved, hsame⟩ := h.stored hk
      exact ⟨tid', a, r₀, hsaved.cons _, hsame⟩
  · intro tid' rt h
    obtain ⟨req', env', token', hmem⟩ := h
    rcases List.mem_cons.mp hmem with heq | hmem
    · cases heq
      obtain ⟨tid₀, a, r₀, hsaved, hsame⟩ := h.stored hlookup
      exact ⟨tid₀, a, r₀, hsaved.cons _, hsame⟩
    · obtain ⟨tid₀, a, r₀, hsaved, hsame⟩ := h.won ⟨req', env', token', hmem⟩
      exact ⟨tid₀, a, r₀, hsaved.cons _, hsame⟩
  · intro tid' a r hsaved
    obtain ⟨tid₀, hdrew⟩ := h.drawn (hsave.mp hsaved)
    exact ⟨tid₀, hdrew.cons _⟩
  · intro tid' familyId hdrew hno tid₁ a₁ r₁ hsaved
    exact h.unsaved (hdraw.mp hdrew) (fun a r hs => hno a r (hs.cons _)) (hsave.mp hsaved)
  · intro tid₁ a₁ r₁ tid₂ a₂ r₂ hsaved₁ hsaved₂
    exact h.sameOwner (hsave.mp hsaved₁) (hsave.mp hsaved₂)

/-- A save by a holder keeps the invariant: the right moves from the request to the store. The
saved token continues a won token of the same grant, or it is the first one of a drawn family. -/
theorem FamilyInv.save (h : FamilyInv history tokens) {ok : Bool}
    (hno : ∀ a r, ¬PairSaved history tid a r)
    (hright : Drew history tid r.familyId ∨ ∃ rt, Won history tid rt ∧ SameGrant r rt) :
    FamilyInv (.called tid req env ⟨.saveTokenPair a r, ok⟩ :: history)
      (tokens.insert r.token r) := by
  have hholds : Holds history tid r.familyId := by
    refine ⟨hno, ?_⟩
    rcases hright with hdrew | ⟨rt, hwon, hsame⟩
    · exact .inl hdrew
    · exact .inr ⟨rt, hwon, hsame.1.symm⟩
  have hdraw : ∀ {tid' f}, Drew (.called tid req env ⟨.saveTokenPair a r, ok⟩ :: history) tid' f ↔
      Drew history tid' f := drew_cons_of_ne (by intros; nofun)
  have hwin : ∀ {tid' rt}, Won (.called tid req env ⟨.saveTokenPair a r, ok⟩ :: history) tid' rt ↔
      Won history tid' rt := won_cons_of_ne (by intros; nofun)
  have hnew : PairSaved (.called tid req env ⟨.saveTokenPair a r, ok⟩ :: history) tid a r :=
    pairSaved_cons_save.mpr (.inl ⟨rfl, rfl, rfl⟩)
  have hlookup : ∀ {k r'}, (tokens.insert r.token r).lookup k = some r' →
      (k = r.token ∧ r' = r) ∨ (k ≠ r.token ∧ tokens.lookup k = some r') := by
    intro k r' hk
    by_cases heq : k = r.token
    · subst heq
      rw [AList.lookup_insert] at hk
      exact .inl ⟨rfl, (Option.some.inj hk).symm⟩
    · rw [AList.lookup_insert_ne heq] at hk
      exact .inr ⟨heq, hk⟩
  have howner : ∀ {tid' a' r'}, PairSaved history tid' a' r' → r.familyId = r'.familyId →
      refreshOwner r = refreshOwner r' := by
    intro tid' a' r' hsaved hfamily
    rcases hright with hdrew | ⟨rt, hwon, hsame⟩
    · exact absurd hfamily.symm (h.unsaved hdrew hno hsaved)
    · obtain ⟨tid₀, a₀, r₀, hsaved₀, hsame₀⟩ := h.won hwon
      have hfamily₀ : r₀.familyId = r'.familyId := by rw [← hsame₀.1, ← hsame.1, hfamily]
      exact (hsame.2.trans hsame₀.2).trans (h.sameOwner hsaved₀ hsaved hfamily₀)
  refine ⟨?_, ?_, ?_, ?_, ?_, ?_, ?_, ?_⟩
  · intro k k' r₁ r₂ hk hk' hlive hlive' hfamily
    rcases hlookup hk with ⟨rfl, rfl⟩ | ⟨-, hold₁⟩
    · rcases hlookup hk' with ⟨rfl, rfl⟩ | ⟨-, hold₂⟩
      · rfl
      · exact absurd (hfamily ▸ hholds) (h.liveFree hold₂ hlive')
    · rcases hlookup hk' with ⟨rfl, rfl⟩ | ⟨-, hold₂⟩
      · exact absurd (hfamily ▸ hholds) (h.liveFree hold₁ hlive)
      · exact h.liveUnique hold₁ hold₂ hlive hlive' hfamily
  · intro k r₁ tid' hk hlive hholds'
    rw [holds_cons_save] at hholds'
    rcases hlookup hk with ⟨rfl, rfl⟩ | ⟨hne, hk⟩
    · exact hholds'.1 (h.holderUnique hholds'.2 hholds)
    · exact h.liveFree hk hlive hholds'.2
  · intro tid₁ tid₂ familyId hholds₁ hholds₂
    exact h.holderUnique (holds_cons_save.mp hholds₁).2 (holds_cons_save.mp hholds₂).2
  · intro k r₁ hk
    rcases hlookup hk with ⟨rfl, rfl⟩ | ⟨hne, hk⟩
    · exact ⟨tid, a, r₁, hnew, rfl, rfl⟩
    · obtain ⟨tid', a', r₀, hsaved, hsame⟩ := h.stored hk
      exact ⟨tid', a', r₀, hsaved.cons _, hsame⟩
  · intro tid' rt hwon
    obtain ⟨tid₀, a₀, r₀, hsaved, hsame⟩ := h.won (hwin.mp hwon)
    exact ⟨tid₀, a₀, r₀, hsaved.cons _, hsame⟩
  · intro tid' a' r' hsaved
    rcases pairSaved_cons_save.mp hsaved with ⟨rfl, rfl, rfl⟩ | hsaved
    · obtain ⟨tid₀, hdrew⟩ := h.drawn_of_holds hholds
      exact ⟨tid₀, hdrew.cons _⟩
    · obtain ⟨tid₀, hdrew⟩ := h.drawn hsaved
      exact ⟨tid₀, hdrew.cons _⟩
  · intro tid' familyId hdrew hno' tid₁ a₁ r₁ hsaved
    have hne : tid' ≠ tid := by
      intro heq
      obtain rfl := heq
      exact hno' a r hnew
    have hdrew' := hdraw.mp hdrew
    have hno'' : ∀ a r, ¬PairSaved history tid' a r := fun a r hs => hno' a r (hs.cons _)
    rcases pairSaved_cons_save.mp hsaved with ⟨rfl, rfl, rfl⟩ | hsaved
    · intro heq
      obtain rfl := heq
      exact hne (h.holderUnique ⟨hno'', .inl hdrew'⟩ hholds)
    · exact h.unsaved hdrew' hno'' hsaved
  · intro tid₁ a₁ r₁ tid₂ a₂ r₂ hsaved₁ hsaved₂ hfamily
    rcases pairSaved_cons_save.mp hsaved₁ with ⟨-, -, rfl⟩ | hold₁
    · rcases pairSaved_cons_save.mp hsaved₂ with ⟨-, -, rfl⟩ | hold₂
      · rfl
      · exact howner hold₂ hfamily
    · rcases pairSaved_cons_save.mp hsaved₂ with ⟨-, -, rfl⟩ | hold₂
      · exact (howner hold₁ hfamily.symm).symm
      · exact h.sameOwner hold₁ hold₂ hfamily

/-! ### The invariant along a run -/

variable {cs : clients.State} {gs : grants.State}
  {p : Pool (svc.over (memoryTokens clients grants))}

theorem ValuesFresh.tail (h : ValuesFresh svc (e :: history)) : ValuesFresh svc history where
  families := h.families.sublist ((List.sublist_cons_self e history).filterMap _)
  tokens := h.tokens.sublist ((List.sublist_cons_self e history).filterMap _)

theorem ValuesFresh.not_drew {v : String}
    (h : ValuesFresh svc (.called tid req env ⟨.generateSecureToken 16, v⟩ :: history)) :
    ∀ tid', ¬Drew history tid' v := by
  intro tid' h
  obtain ⟨req', env', hmem⟩ := h
  have hnodup : (v :: history.filterMap familyDrawn).Nodup := h.families
  exact (List.nodup_cons.mp hnodup).1 (List.mem_filterMap.mpr ⟨_, hmem, rfl⟩)

theorem right_of_saving (hdesc : Described history p)
    {t : Thread (svc.over (memoryTokens clients grants))} (ht : p.threads[tid]? = some t)
    {k : Bool → RepoProg} (hrest : t.rest = .call (.saveTokenPair a r) k) :
    (∀ a r, ¬PairSaved history tid a r) ∧
      (Drew history tid r.familyId ∨ ∃ rt, Won history tid rt ∧ SameGrant r rt) := by
  have hanswers := hdesc.answers ht
  rcases TokenService.saveTokenPair_of_reached (TokenService.reached_of_thread t hrest) with
    ⟨x, authCode, now, roles, tokenStr, refreshTokenStr, familyId, -, hchecked⟩ |
    ⟨x, rt, now, tokenStr, refreshTokenStr, -, hchecked⟩
  · constructor
    · intro a r h
      obtain ⟨req, env, ok, hmem⟩ := h
      have hanswer := mem_answersOf.mpr ⟨req, env, hmem⟩
      rw [← hanswers] at hanswer
      exact hchecked.not_saved hanswer
    · obtain ⟨asked, -, heq⟩ := hchecked.answers_eq
      rw [heq] at hanswers
      left
      rw [hchecked.refresh_eq]
      refine mem_answersOf.mp ?_
      rw [← hanswers]
      simp [TokenService.newRefreshToken]
  · rw [hchecked.answers_eq] at hanswers
    constructor
    · intro a r h
      obtain ⟨req, env, ok, hmem⟩ := h
      have := mem_answersOf.mpr ⟨req, env, hmem⟩
      rw [← hanswers] at this
      simp at this
    · right
      refine ⟨rt, ?_, ?_⟩
      · have hwon : (⟨.atomicRevokeRefreshToken (hashToken svc.crypto x.refreshToken), some rt⟩ :
            RepoAnswer) ∈ answersOf tid history := by
          rw [← hanswers]
          simp
        obtain ⟨req, env, hmem⟩ := mem_answersOf.mp hwon
        exact ⟨req, env, _, hmem⟩
      · rw [hchecked.refresh_eq]
        exact ⟨rfl, rfl⟩

theorem familyInv_of_run (hrun : svc.Interleaving (noTokens cs gs) history p)
    (hfresh : ValuesFresh svc history) : FamilyInv history p.shared.tokens.refreshTokens := by
  revert hfresh
  refine Machine.Run.invariant
    (fun h q => ValuesFresh svc h → FamilyInv h q.shared.tokens.refreshTokens) ?_ ?_ hrun
  · intro _
    refine ⟨nofun, nofun, ?_, nofun, ?_, ?_, ?_, ?_⟩
    · intro tid tid' familyId h
      obtain ⟨-, ⟨_, _, hmem⟩ | ⟨_, ⟨_, _, _, hmem⟩, _⟩⟩ := h <;> cases hmem
    · intro tid rt h
      obtain ⟨_, _, _, hmem⟩ := h
      cases hmem
    · intro tid a r h
      obtain ⟨_, _, _, hmem⟩ := h
      cases hmem
    · intro tid familyId h
      obtain ⟨_, _, hmem⟩ := h
      cases hmem
    · intro tid a r tid' a' r' h
      obtain ⟨_, _, _, hmem⟩ := h
      cases hmem
  · intro h q i hq ih _ hfresh
    have hinv := ih hfresh.tail
    change ValuesFresh svc ((Service.step _ q i).2 :: h) at hfresh
    change FamilyInv ((Service.step _ q i).2 :: h)
      (Service.step _ q i).1.shared.tokens.refreshTokens
    rcases step_cases q i with ⟨request, -, hs⟩ | ⟨tid, env, t, op, k, hrest, -, ht, hs⟩ | hs
    · rw [hs]
      exact hinv.frame ⟨by intros; nofun, by intros; nofun, by intros; nofun⟩
    · rw [hs] at hfresh ⊢
      cases op with
      | saveTokenPair a r =>
        obtain ⟨hno, hright⟩ := right_of_saving (described_of_run hq) ht hrest
        exact hinv.save hno hright
      | atomicRevokeRefreshToken token =>
        change FamilyInv (Event.called tid t.request env ⟨.atomicRevokeRefreshToken token,
          (Memory.atomicRevokeRefreshToken token q.shared.tokens).1⟩ :: h)
          (Memory.atomicRevokeRefreshToken token q.shared.tokens).2.refreshTokens
        cases hres : (Memory.atomicRevokeRefreshToken token q.shared.tokens).1 with
        | none =>
          rw [Memory.atomicRevokeRefreshToken_eq_none hres]
          exact hinv.frame ⟨by intros; nofun, by intros; nofun, by intros; nofun⟩
        | some rt =>
          obtain ⟨it, hlookup, hlive, rfl, hstate⟩ :=
            Memory.atomicRevokeRefreshToken_eq_some hres
          rw [hstate]
          exact hinv.win hlookup hlive
      | revokeTokenFamily familyId =>
        refine hinv.neutral ⟨by intros; nofun, by intros; nofun, by intros; nofun⟩ ?_
        intro k r hk
        obtain ⟨it, hlookup, hcases⟩ := Memory.revokeTokenFamily_refreshTokens hk
        rcases hcases with ⟨rfl, -⟩ | rfl
        · exact ⟨r, hlookup, ⟨rfl, rfl⟩, fun hlive => hlive⟩
        · exact ⟨it, hlookup, ⟨rfl, rfl⟩, nofun⟩
      | generateSecureToken n =>
        by_cases hn : n = 16
        · subst hn
          exact hinv.draw hfresh.not_drew
        · refine hinv.frame ⟨by intros; nofun, ?_, by intros; nofun⟩
          intro tid' req' env' v heq
          cases heq
          exact hn rfl
      | _ => exact hinv.frame ⟨by intros; nofun, by intros; nofun, by intros; nofun⟩
    · rw [hs]
      exact hinv.frame ⟨by intros; nofun, by intros; nofun, by intros; nofun⟩

/-! ### Access tokens -/

theorem pairSaved_unique (hrun : svc.Interleaving (noTokens cs gs) history p)
    {a' : OAuth2AccessToken} {r' : OAuth2RefreshToken} (hsaved : PairSaved history tid a r)
    (hsaved' : PairSaved history tid a' r') : a = a' ∧ r = r' := by
  obtain ⟨req, env, ok, hmem⟩ := hsaved
  obtain ⟨req', env', ok', hmem'⟩ := hsaved'
  obtain ⟨post, past, rfl⟩ := List.append_of_mem hmem
  rcases List.mem_append.mp hmem' with hpost | htail
  · obtain ⟨post₁, past₁, rfl⟩ := List.append_of_mem hpost
    rw [List.append_assoc, List.cons_append] at hrun
    exact absurd (List.mem_append_right past₁ List.mem_cons_self)
      (TokenService.not_saved_before hrun _ _ _ _ _)
  · rcases List.mem_cons.mp htail with heq | hpast
    · cases heq
      exact ⟨rfl, rfl⟩
    · exact absurd hpast (TokenService.not_saved_before hrun _ _ _ _ _)

theorem pair_shape (hrun : svc.Interleaving (noTokens cs gs) history p)
    (hsaved : PairSaved history tid a r) :
    r.accessToken = a.token ∧ accessOwner a = refreshOwner r ∧
      ∃ req env v, a.token = hashToken svc.crypto v ∧
        tokenDrawn (.called tid req env ⟨.generateSecureToken 32, v⟩) = some v ∧
        Event.called tid req env ⟨.generateSecureToken 32, v⟩ ∈ history := by
  obtain ⟨req, env, ok, hmem⟩ := hsaved
  obtain ⟨post, past, rfl⟩ := List.append_of_mem hmem
  have hdraw : ∀ {v : String}, (⟨.generateSecureToken 32, v⟩ : RepoAnswer) ∈ answersOf tid past →
      ∃ env', Event.called tid req env' ⟨.generateSecureToken 32, v⟩ ∈
        post ++ Event.called tid req env ⟨.saveTokenPair a r, ok⟩ :: past := by
    intro v hv
    obtain ⟨req', env', hmem'⟩ := mem_answersOf.mp hv
    have hmem'' := List.mem_append_right post
      (List.mem_cons_of_mem (Event.called tid req env ⟨.saveTokenPair a r, ok⟩) hmem')
    obtain rfl := request_unique hrun hmem hmem''
    exact ⟨env', hmem''⟩
  obtain ⟨k, hreached⟩ := TokenService.reached_of_event hrun
  rcases TokenService.saveTokenPair_of_reached hreached with
    ⟨x, authCode, now, roles, tokenStr, refreshTokenStr, familyId, rfl, hchecked⟩ |
    ⟨x, rt, now, tokenStr, refreshTokenStr, rfl, hchecked⟩
  · obtain ⟨asked, -, hanswers⟩ := hchecked.answers_eq
    rw [hanswers] at hdraw
    obtain ⟨env', hmem'⟩ := hdraw (v := tokenStr) (by simp)
    have ha := hchecked.access_eq
    have hr := hchecked.refresh_eq
    exact ⟨by rw [ha, hr]; rfl, by rw [ha, hr]; rfl, .exchange x, env', tokenStr, by rw [ha]; rfl, rfl,
      hmem'⟩
  · rw [hchecked.answers_eq] at hdraw
    obtain ⟨env', hmem'⟩ := hdraw (v := tokenStr) (by simp)
    have ha := hchecked.access_eq
    have hr := hchecked.refresh_eq
    exact ⟨by rw [ha, hr]; rfl, by rw [ha, hr]; rfl, .refresh x, env', tokenStr, by rw [ha]; rfl, rfl,
      hmem'⟩

theorem stored_access (hrun : svc.Interleaving (noTokens cs gs) history p) {k : String}
    {token : OAuth2AccessToken} (hlookup : p.shared.tokens.accessTokens.lookup k = some token) :
    ∃ tid a r, PairSaved history tid a r ∧ a.token = k ∧ accessOwner token = accessOwner a := by
  revert k token
  refine Machine.Run.invariant (fun h q => ∀ {k token},
    q.shared.tokens.accessTokens.lookup k = some token →
    ∃ tid a r, PairSaved h tid a r ∧ a.token = k ∧ accessOwner token = accessOwner a) ?_ ?_ hrun
  · intro k token hlookup
    cases hlookup
  · intro h q i hq ih _ k token hlookup
    have hkeep : ∀ {token'}, q.shared.tokens.accessTokens.lookup k = some token' →
        accessOwner token = accessOwner token' → ∃ tid a r,
          PairSaved ((Service.step _ q i).2 :: h) tid a r ∧ a.token = k ∧
            accessOwner token = accessOwner a := by
      intro token' hold howner
      obtain ⟨tid, a, r, hsaved, hkey, hsame⟩ := ih hold
      exact ⟨tid, a, r, hsaved.cons _, hkey, howner.trans hsame⟩
    change (Service.step _ q i).1.shared.tokens.accessTokens.lookup k = some token at hlookup
    rcases step_cases q i with ⟨request, -, hs⟩ | ⟨tid, env, t, op, kont, hrest, -, ht, hs⟩ | hs
    · rw [hs] at hlookup
      exact hkeep hlookup rfl
    · rw [hs] at hlookup
      cases op with
      | saveTokenPair a r =>
        rcases Memory.saveTokenPair_accessTokens hlookup with ⟨rfl, htoken⟩ | hold
        · refine ⟨tid, a, r, ?_, rfl, by rw [htoken]; rfl⟩
          change PairSaved ((Service.step _ q i).2 :: h) tid a r
          rw [hs]
          exact ⟨_, _, _, List.mem_cons_self⟩
        · exact hkeep hold rfl
      | atomicRevokeRefreshToken token' =>
        change (Memory.atomicRevokeRefreshToken token' q.shared.tokens).2.accessTokens.lookup k =
          some token at hlookup
        cases hres : (Memory.atomicRevokeRefreshToken token' q.shared.tokens).1 with
        | none =>
          rw [Memory.atomicRevokeRefreshToken_eq_none hres] at hlookup
          exact hkeep hlookup rfl
        | some rt =>
          obtain ⟨_, -, -, -, hstate⟩ := Memory.atomicRevokeRefreshToken_eq_some hres
          rw [hstate] at hlookup
          exact hkeep hlookup rfl
      | revokeTokenFamily familyId =>
        obtain ⟨it, hold, htoken⟩ := Memory.revokeTokenFamily_accessTokens hlookup
        exact hkeep hold (by rw [htoken]; rfl)
      | _ => exact hkeep hlookup rfl
    · rw [hs] at hlookup
      exact hkeep hlookup rfl

/-! ### The family invariant of the store -/

/-- Every family has at most one un-revoked refresh token, and all its tokens carry one client,
user and scope. -/
structure FamiliesConsistent (history : List RepoEvent) (tokens : Memory.Tokens) : Prop where
  oneLive : ∀ {k k' r r'}, tokens.refreshTokens.lookup k = some r →
    tokens.refreshTokens.lookup k' = some r' → r.revoked = false → r'.revoked = false →
    r.familyId = r'.familyId → k = k'
  refreshTokens : ∀ {tid a r tid' a' r'}, PairSaved history tid a r →
    PairSaved history tid' a' r' → r.familyId = r'.familyId → refreshOwner r = refreshOwner r'
  accessTokens : ∀ {tid a r tid' a' r'}, PairSaved history tid a r →
    PairSaved history tid' a' r' → r'.accessToken = a.token → accessOwner a = refreshOwner r'
  storedTokens : ∀ {tid a r token}, PairSaved history tid a r →
    tokens.accessTokens.lookup r.accessToken = some token → accessOwner token = refreshOwner r

/-- Whatever the interleaving of exchanges and refreshes, the families stay consistent. -/
theorem families_consistent (hrun : svc.Interleaving (noTokens cs gs) history p)
    (hfresh : ValuesFresh svc history) : FamiliesConsistent history p.shared.tokens := by
  have hinv := familyInv_of_run hrun hfresh
  have haccess : ∀ {tid a r tid' a' r'}, PairSaved history tid a r →
      PairSaved history tid' a' r' → r'.accessToken = a.token →
      accessOwner a = refreshOwner r' := by
    intro tid a r tid' a' r' hsaved hsaved' href
    obtain ⟨-, -, req, env, v, hv, hdrawn, hmem⟩ := pair_shape hrun hsaved
    obtain ⟨href', howner', req', env', v', hv', hdrawn', hmem'⟩ := pair_shape hrun hsaved'
    -- one stored key, so one drawn value, so one request, so one pair
    have hkey : hashToken svc.crypto v' = hashToken svc.crypto v := by
      rw [← hv', ← hv, ← href', href]
    have hsame := eq_of_nodup_filterMap hfresh.tokens hmem hmem'
      (by rw [hdrawn]; rfl) (by rw [hdrawn']; exact congrArg some hkey)
    cases hsame
    obtain ⟨rfl, rfl⟩ := pairSaved_unique hrun hsaved hsaved'
    exact howner'
  refine ⟨hinv.liveUnique, hinv.sameOwner, haccess, ?_⟩
  intro tid a r token hsaved hlookup
  obtain ⟨tid₀, a₀, r₀, hsaved₀, hkey, howner⟩ := stored_access hrun hlookup
  rw [howner]
  exact haccess hsaved₀ hsaved hkey.symm

def sampleRotation : List RepoEvent × Pool
    (knownService.over (memoryTokens Memory.clientRepository Memory.grantRepository)) :=
  let client : OAuth2Client :=
    { clientId := "spa", clientType := .PUBLIC, clientSecretHash := "", salt := ""
      redirectUris := ["https://spa.example.com/callback"], allowedScopes := ["openid"] }
  let authCode := knownService.authCodeOf
    { clientId := "spa", subject := "1", scope := "openid", redirectUri := "" } (knownToken 0) 1000
  Machine.exec (Service.machine _) []
    (Service.start _
      (noTokens (AList.insert "spa" client ∅) (AList.insert authCode.code authCode ∅)))
    [.start (.exchange { code := knownToken 0, clientId := "spa" }),
     .advance 0 {}, .advance 0 {}, .advance 0 { now := 1010 }, .advance 0 {},
     .advance 0 { random := knownToken 1 }, .advance 0 { random := knownToken 2 },
     .advance 0 { random := knownFamily }, .advance 0 { now := 1010 },
     .start (.refresh { refreshToken := knownToken 2, clientId := "spa" }),
     .advance 1 {}, .advance 1 { now := 1020 }, .advance 1 { random := knownToken 3 },
     .advance 1 { random := knownToken 4 }, .advance 1 { now := 1020 }]

theorem families_consistent_sample :
    ValuesFresh knownService sampleRotation.1 ∧
    sampleRotation.2.shared.tokens.refreshTokens.entries.length = 2 ∧
    FamiliesConsistent sampleRotation.1 sampleRotation.2.shared.tokens := by
  have hrun : (sampleRotation.1.filterMap familyDrawn).Nodup ∧
      (sampleRotation.1.filterMap fun e =>
        (tokenDrawn e).map (hashToken knownService.crypto)).Nodup ∧
      sampleRotation.2.shared.tokens.refreshTokens.entries.length = 2 := by
    decide +kernel
  have hfresh : ValuesFresh knownService sampleRotation.1 := ⟨hrun.1, hrun.2.1⟩
  exact ⟨hfresh, hrun.2.2, families_consistent (Machine.run_exec _ _ _) hfresh⟩

end AuthForge.RefreshFamily
