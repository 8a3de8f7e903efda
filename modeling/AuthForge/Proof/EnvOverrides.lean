import AuthForge.Common.ConfigManager

/-!
# Overrides of the configuration

The paths of the overrides part at members with different names, before any of them chooses an item
by its name. So whatever the configuration file holds, no override changes where another one leads:
every variable that is set and whose path exists in the file takes effect, and nothing else of the
file changes. A start is refused unless the values that are checked are the overriding ones.
-/

namespace AuthForge.EnvOverrides

open Jsoncpp Common.ConfigManager
open Jsoncpp.Value (Key)

/-! ### Paths that part -/

/-- The first step of a part, where it does not depend on the value. -/
def firstKey (part : String) : Option Key :=
  if isIndex part then some (.item (digitsValue part.toList))
  else if isNamed part then
    match cutFirst '[' part with
    | none => none
    | some (name, _) => if name = "" then none else some (.member name)
  else some (.member part)

/-- The parts before are the same and choose no item by its name; then the steps differ. -/
def diverge : List String → List String → Bool
  | p :: ps, q :: qs =>
    if p = q then (isIndex p || !isNamed p) && diverge ps qs
    else (firstKey p).isSome && (firstKey q).isSome && firstKey p ≠ firstKey q
  | _, _ => false

/-- The step of a part that chooses no item by its name. -/
theorem follow_plain {part : String} (hplain : (isIndex part || !isNamed part) = true) :
    ∃ k, ∀ v, follow v part = (v.child k).map fun next => ([k], next) := by
  by_cases hindex : isIndex part = true
  · refine ⟨.item (digitsValue part.toList), ?_⟩
    intro v
    rw [follow, if_pos hindex]
  · have hnamed : ¬isNamed part = true := by simpa [hindex] using hplain
    refine ⟨.member part, ?_⟩
    intro v
    rw [follow, if_neg hindex, if_neg hnamed]

/-- A part takes its first step, and what it does then depends on what stands there only. -/
theorem follow_eq {part : String} {k : Key} (hkey : firstKey part = some k) :
    ∃ further : Value → Option (List Key × Value), ∀ v, follow v part =
      (v.child k).bind fun c => (further c).map fun r => (k :: r.1, r.2) := by
  unfold firstKey at hkey
  by_cases hindex : isIndex part = true
  · rw [if_pos hindex] at hkey
    obtain rfl := Option.some.inj hkey
    refine ⟨fun c => some ([], c), ?_⟩
    intro v
    rw [follow, if_pos hindex]
    cases v.child (.item (digitsValue part.toList)) <;> rfl
  rw [if_neg hindex] at hkey
  by_cases hnamed : isNamed part = true
  · rw [if_pos hnamed] at hkey
    cases hcut : cutFirst '[' part with
    | none => simp [hcut] at hkey
    | some found =>
      obtain ⟨name, rest⟩ := found
      simp only [hcut] at hkey
      have hname : ¬name = "" := by
        intro hempty
        simp [hempty] at hkey
      rw [if_neg hname] at hkey
      obtain rfl := Option.some.inj hkey
      refine ⟨fun c => (cutFirst '=' (String.ofList rest.toList.dropLast)).bind fun filter =>
        (namedItem filter.1 filter.2 c).map fun r => ([r.1], r.2), ?_⟩
      intro v
      rw [follow, if_neg hindex, if_pos hnamed, hcut]
      cases hfilter : cutFirst '=' (String.ofList rest.toList.dropLast) with
      | none => cases v.child (.member name) <;> simp [hfilter]
      | some filter =>
        cases hchild : v.child (.member name) with
        | none => simp [hfilter, hname, hchild]
        | some member =>
          cases hitem : namedItem filter.1 filter.2 member <;>
            simp [hfilter, hname, hchild, hitem]
  · rw [if_neg hnamed] at hkey
    obtain rfl := Option.some.inj hkey
    refine ⟨fun c => some ([], c), ?_⟩
    intro v
    rw [follow, if_neg hindex, if_neg hnamed]
    cases v.child (.member part) <;> rfl

section Places

variable {v new : Value} {ps qs : List String} {place : List Key}

theorem getJsonPointer_cons (v : Value) (part : String) (parts : List String) :
    getJsonPointer v (part :: parts) =
      (follow v part).bind fun r => (getJsonPointer r.2 parts).map (r.1 ++ ·) := by
  rw [getJsonPointer]
  cases follow v part with
  | none => rfl
  | some r => cases hrest : getJsonPointer r.2 parts <;> simp [hrest]

theorem getJsonPointer_plain {part : String} {k : Key}
    (hfollow : ∀ v, follow v part = (v.child k).map fun next => ([k], next)) (v : Value)
    (parts : List String) :
    getJsonPointer v (part :: parts) =
      (v.child k).bind fun c => (getJsonPointer c parts).map (k :: ·) := by
  rw [getJsonPointer_cons, hfollow]
  cases v.child k <;> rfl

/-- A path begins with its first step. -/
theorem getJsonPointer_first {part : String} {parts : List String} {k : Key}
    (hkey : firstKey part = some k) (h : getJsonPointer v (part :: parts) = some place) :
    ∃ rest, place = k :: rest := by
  obtain ⟨further, hfollow⟩ := follow_eq hkey
  rw [getJsonPointer_cons, hfollow] at h
  obtain ⟨r, hr, hrest⟩ := Option.bind_eq_some_iff.mp h
  obtain ⟨c, -, hc⟩ := Option.bind_eq_some_iff.mp hr
  obtain ⟨r', -, rfl⟩ := Option.map_eq_some_iff.mp hc
  obtain ⟨rest, -, rfl⟩ := Option.map_eq_some_iff.mp hrest
  exact ⟨_, rfl⟩

/-- Paths that part lead to places that part as well, and setting a value at one of them does not
change where the other leads. -/
theorem getJsonPointer_of_diverge (hdiverge : diverge ps qs = true)
    (h : getJsonPointer v ps = some place) (new : Value) :
    getJsonPointer (v.replace place new) qs = getJsonPointer v qs ∧
      ∀ place', getJsonPointer v qs = some place' → ¬place <+: place' ∧ ¬place' <+: place := by
  induction ps generalizing v qs place with
  | nil => cases hdiverge
  | cons p ps ih =>
    cases qs with
    | nil => cases hdiverge
    | cons q qs =>
      by_cases hsame : p = q
      · subst hsame
        simp only [diverge, if_true, Bool.and_eq_true] at hdiverge
        obtain ⟨hplain, hdiverge⟩ := hdiverge
        obtain ⟨k, hfollow⟩ := follow_plain hplain
        rw [getJsonPointer_plain hfollow] at h
        obtain ⟨c, hc, hmap⟩ := Option.bind_eq_some_iff.mp h
        obtain ⟨rest, hrest, rfl⟩ := Option.map_eq_some_iff.mp hmap
        obtain ⟨hunmoved, hapart⟩ := ih hdiverge hrest
        rw [getJsonPointer_plain hfollow, getJsonPointer_plain hfollow,
          Value.child_replace_self hc, hc]
        refine ⟨by rw [Option.bind_some, Option.bind_some, hunmoved], ?_⟩
        intro place' hplace'
        obtain ⟨rest', hrest', rfl⟩ := Option.map_eq_some_iff.mp hplace'
        obtain ⟨hbelow, habove⟩ := hapart rest' hrest'
        rw [List.cons_prefix_cons, List.cons_prefix_cons]
        exact ⟨fun h => hbelow h.2, fun h => habove h.2⟩
      · simp only [diverge, if_neg hsame, Bool.and_eq_true, decide_eq_true_eq] at hdiverge
        obtain ⟨⟨hp, hq⟩, hdiffer⟩ := hdiverge
        obtain ⟨k, hk⟩ := Option.isSome_iff_exists.mp hp
        obtain ⟨k', hk'⟩ := Option.isSome_iff_exists.mp hq
        have hne : k' ≠ k := by
          rintro rfl
          exact hdiffer (hk.trans hk'.symm)
        obtain ⟨rest, rfl⟩ := getJsonPointer_first hk h
        obtain ⟨further, hfollow⟩ := follow_eq hk'
        refine ⟨?_, ?_⟩
        · rw [getJsonPointer_cons, getJsonPointer_cons, hfollow, hfollow,
            Value.child_replace_ne hne]
        · intro place' hplace'
          obtain ⟨rest', rfl⟩ := getJsonPointer_first hk' hplace'
          rw [List.cons_prefix_cons, List.cons_prefix_cons]
          exact ⟨fun h => hne h.1.symm, fun h => hne h.1⟩

theorem child_of_namedItem {key value : String} {k : Key} {c : Value}
    (h : namedItem key value v = some (k, c)) : v.child k = some c := by
  cases v with
  | array items =>
    obtain ⟨index, -, hitem⟩ := Option.bind_eq_some_iff.mp h
    obtain ⟨item, hfound, hpair⟩ := Option.bind_eq_some_iff.mp hitem
    obtain ⟨rfl, rfl⟩ := Prod.mk.inj (Option.some.inj hpair)
    exact hfound
  | _ => cases h

theorem within_of_follow {part : String} {keys : List Key} {c : Value}
    (h : follow v part = some (keys, c)) : v.within keys = some c := by
  have hsingle {k : Key} (h : (v.child k).map (fun next => ([k], next)) = some (keys, c)) :
      v.within keys = some c := by
    obtain ⟨next, hchild, hpair⟩ := Option.map_eq_some_iff.mp h
    obtain ⟨rfl, rfl⟩ := Prod.mk.inj hpair
    simp [Value.within, hchild]
  unfold follow at h
  split at h
  · exact hsingle h
  split at h
  · obtain ⟨cut, -, h⟩ := Option.bind_eq_some_iff.mp h
    obtain ⟨filter, -, h⟩ := Option.bind_eq_some_iff.mp h
    simp only at h
    split at h
    · obtain ⟨r, hitem, hpair⟩ := Option.bind_eq_some_iff.mp h
      obtain ⟨rfl, rfl⟩ := Prod.mk.inj (Option.some.inj hpair)
      simp [Value.within, child_of_namedItem hitem]
    · obtain ⟨member, hmember, h⟩ := Option.bind_eq_some_iff.mp h
      obtain ⟨r, hitem, hpair⟩ := Option.bind_eq_some_iff.mp h
      obtain ⟨rfl, rfl⟩ := Prod.mk.inj (Option.some.inj hpair)
      simp [Value.within, hmember, child_of_namedItem hitem]
  · exact hsingle h

/-- What a path leads to is there. -/
theorem within_of_getJsonPointer (h : getJsonPointer v ps = some place) :
    ∃ c, v.within place = some c := by
  induction ps generalizing v place with
  | nil =>
    obtain rfl := Option.some.inj h
    exact ⟨v, rfl⟩
  | cons p ps ih =>
    rw [getJsonPointer_cons] at h
    obtain ⟨r, hr, hmap⟩ := Option.bind_eq_some_iff.mp h
    obtain ⟨rest, hrest, rfl⟩ := Option.map_eq_some_iff.mp hmap
    obtain ⟨c, hc⟩ := ih hrest
    refine ⟨c, ?_⟩
    rw [Value.within_append, within_of_follow hr, Option.bind_some, hc]

end Places

/-! ### What the overrides do -/

section Overrides

variable {env : Environment} {rules : List EnvOverride} {config : Value}

/-- The variable of the rule is set, and its path leads to the place. -/
def Overrides (env : Environment) (config : Value) (rule : EnvOverride) (envValue : String)
    (place : List Key) : Prop :=
  getEnvValue env rule.envVar = some envValue ∧
    getJsonPointer config (pathParts rule.configPath) = some place

/-- Every override takes effect, and what no override concerns is as it was. -/
structure Applied (env : Environment) (rules : List EnvOverride) (config config' : Value) :
    Prop where
  effect : ∀ rule ∈ rules, ∀ envValue place, Overrides env config rule envValue place →
    ∀ below, config'.within (place ++ below) = (overriding rule envValue).within below
  frame : ∀ place, (∀ rule ∈ rules, ∀ envValue place', Overrides env config rule envValue place' →
    ¬place' <+: place ∧ ¬place <+: place') → config'.within place = config.within place

def Part (rule rule' : EnvOverride) : Prop :=
  diverge (pathParts rule.configPath) (pathParts rule'.configPath) = true

instance (rule rule' : EnvOverride) : Decidable (Part rule rule') :=
  inferInstanceAs (Decidable (_ = true))

/-- An override leaves the other paths where they are, and leads to a place apart from theirs. -/
theorem overrides_replace_iff {rule rule' : EnvOverride} {envValue envValue' : String}
    {place place' : List Key} (hpart : Part rule rule')
    (h : Overrides env config rule envValue place) (new : Value) :
    (Overrides env (config.replace place new) rule' envValue' place' ↔
        Overrides env config rule' envValue' place') ∧
      (Overrides env config rule' envValue' place' → ¬place <+: place' ∧ ¬place' <+: place) := by
  obtain ⟨hunmoved, hapart⟩ := getJsonPointer_of_diverge hpart h.2 new
  refine ⟨?_, ?_⟩
  · rw [Overrides, Overrides, hunmoved]
  · intro h'
    exact hapart place' h'.2

theorem applyOverride_of_overrides {rule : EnvOverride} {envValue : String} {place : List Key}
    (h : Overrides env config rule envValue place) :
    applyOverride env config rule = config.replace place (overriding rule envValue) := by
  simp only [applyOverride, h.1, h.2]

theorem applyOverride_of_not_overrides {rule : EnvOverride}
    (h : ¬∃ envValue place, Overrides env config rule envValue place) :
    applyOverride env config rule = config := by
  unfold applyOverride
  cases hvar : getEnvValue env rule.envVar with
  | none => rfl
  | some envValue =>
    cases hplace : getJsonPointer config (pathParts rule.configPath) with
    | none => rfl
    | some place => exact absurd ⟨envValue, place, hvar, hplace⟩ h

theorem incomparable_append {place place' : List Key} (below : List Key)
    (h : ¬place <+: place' ∧ ¬place' <+: place) :
    ¬place' <+: place ++ below ∧ ¬place ++ below <+: place' := by
  constructor
  · intro hprefix
    rcases List.prefix_or_prefix_of_prefix hprefix (List.prefix_append place below) with hle | hle
    · exact h.2 hle
    · exact h.1 hle
  · intro hprefix
    exact h.1 ((List.prefix_append place below).trans hprefix)

/-- The later overrides lead to places apart from that of the first. -/
theorem applied_cons {rule : EnvOverride} {envValue : String} {place : List Key} {config' : Value}
    (hpart : ∀ rule' ∈ rules, Part rule rule') (hset : Overrides env config rule envValue place)
    (h : Applied env rules (config.replace place (overriding rule envValue)) config') :
    Applied env (rule :: rules) config config' := by
  constructor
  · rw [List.forall_mem_cons]
    constructor
    · intro envValue' place' hset' below
      obtain rfl := Option.some.inj (hset.1.symm.trans hset'.1)
      obtain rfl := Option.some.inj (hset.2.symm.trans hset'.2)
      obtain ⟨c, hc⟩ := within_of_getJsonPointer hset.2
      rw [h.frame, Value.within_replace_append hc]
      intro rule' hrule' envValue' place' hother
      obtain ⟨hsame, hapart⟩ := overrides_replace_iff (hpart rule' hrule') hset
        (overriding rule envValue)
      exact incomparable_append below (hapart (hsame.mp hother))
    · intro rule' hrule' envValue' place' hother
      apply h.effect rule' hrule' envValue' place'
      exact (overrides_replace_iff (hpart rule' hrule') hset _).1.mpr hother
  · intro place' hapart
    rw [List.forall_mem_cons] at hapart
    obtain ⟨hbelow, habove⟩ := hapart.1 envValue place hset
    rw [h.frame, Value.within_replace_of_incomparable hbelow habove]
    intro rule' hrule' envValue' place'' hother
    apply hapart.2 rule' hrule' envValue' place''
    exact (overrides_replace_iff (hpart rule' hrule') hset _).1.mp hother

theorem applied_cons_unset {rule : EnvOverride} {config' : Value}
    (hunset : ¬∃ envValue place, Overrides env config rule envValue place)
    (h : Applied env rules config config') : Applied env (rule :: rules) config config' := by
  constructor
  · rw [List.forall_mem_cons]
    refine ⟨?_, h.effect⟩
    intro envValue place hset
    exact absurd ⟨envValue, place, hset⟩ hunset
  · intro place hapart
    rw [List.forall_mem_cons] at hapart
    exact h.frame place hapart.2

theorem applied_of_part (hpart : rules.Pairwise Part) (config : Value) :
    Applied env rules config (applyEnvOverrides env rules config) := by
  induction rules generalizing config with
  | nil => exact ⟨fun _ hmem => absurd hmem List.not_mem_nil, fun _ _ => rfl⟩
  | cons rule rules ih =>
    obtain ⟨hhead, htail⟩ := List.pairwise_cons.mp hpart
    change Applied env (rule :: rules) config
      (applyEnvOverrides env rules (applyOverride env config rule))
    by_cases hset : ∃ envValue place, Overrides env config rule envValue place
    · obtain ⟨envValue, place, hset⟩ := hset
      rw [applyOverride_of_overrides hset]
      exact applied_cons hhead hset (ih htail _)
    · rw [applyOverride_of_not_overrides hset]
      exact applied_cons_unset hset (ih htail config)

/-- The parts of the paths of the overrides. -/
def overridePaths : List (List String) :=
  [["db_clients", "0", "host"],
   ["db_clients", "0", "port"],
   ["db_clients", "0", "dbname"],
   ["db_clients", "0", "user"],
   ["db_clients", "0", "passwd"],
   ["redis_clients", "0", "host"],
   ["redis_clients", "0", "port"],
   ["redis_clients", "0", "passwd"],
   ["custom_config", "metadata", "issuer"],
   ["custom_config", "frontend", "url"],
   ["custom_config", "external_auth", "github", "client_id"],
   ["custom_config", "external_auth", "github", "client_secret"],
   ["custom_config", "external_auth", "google", "client_id"],
   ["custom_config", "external_auth", "google", "client_secret"],
   ["custom_config", "external_auth", "google", "redirect_uri"],
   ["listeners", "0", "port"],
   ["vue_client", "secret"],
   ["plugins[name=OAuth2Plugin]", "config", "clients", "vue-client", "redirect_uri"],
   ["custom_config", "cors", "allow_origins"]]

theorem pathParts_oauth2EnvOverrides :
    oauth2EnvOverrides.map (fun rule => pathParts rule.configPath) = overridePaths := by
  decide +kernel

theorem part_oauth2EnvOverrides : oauth2EnvOverrides.Pairwise Part := by
  have hpaths : overridePaths.Pairwise fun ps qs => diverge ps qs = true := by decide +kernel
  rw [← pathParts_oauth2EnvOverrides, List.pairwise_map] at hpaths
  exact hpaths

/-- Whatever the file and the environment are, every variable that is set and whose path exists in
the file takes effect, and the rest of the file is loaded as it is. -/
theorem overrides_applied (env : Environment) (file : Value) :
    Applied env oauth2EnvOverrides file (load env file) :=
  applied_of_part part_oauth2EnvOverrides file

end Overrides

/-! ### What is checked -/

section Checks

variable {env : Environment} {config v : Value} {key : String}

theorem firstError_eq_ok_iff {checks : List (Option Bool × String)} :
    firstError checks = some (.ok ()) ↔ ∀ check ∈ checks, check.1 = some true := by
  induction checks with
  | nil => simp [firstError]
  | cons check checks ih =>
    obtain ⟨holds, errorMessage⟩ := check
    rw [List.forall_mem_cons, ← ih]
    rcases holds with _ | _ | _ <;> simp [firstError]

theorem object_of_child {name : String} (h : v.child (.member name) = some config) :
    ∃ members, v = .object members ∧ members.lookup name = some config := by
  cases v <;> try cases h
  exact ⟨_, rfl, h⟩

theorem firstItem_of_within {name : String}
    (h : config.within [.member key, .item 0, .member name] = some v) :
    ∃ members, firstItem config key = some (.object members) ∧ members.lookup name = some v := by
  obtain ⟨array, harray, h⟩ := Option.bind_eq_some_iff.mp h
  obtain ⟨item, hitem, h⟩ := Option.bind_eq_some_iff.mp h
  obtain ⟨found, hfound, h⟩ := Option.bind_eq_some_iff.mp h
  obtain rfl := Option.some.inj h
  obtain ⟨members, rfl, hlookup⟩ := object_of_child hfound
  refine ⟨members, ?_, hlookup⟩
  cases array <;> try cases hitem
  case array items =>
    cases items with
    | nil => cases hitem
    | cons first items =>
      obtain rfl := Option.some.inj hitem
      simp only [firstItem, harray]

theorem port_checked (h : portInRange config key = some true)
    (hport : config.within [.member key, .item 0, .member "port"] = some v) :
    ∃ n, v.asInt = some n ∧ 1 ≤ n ∧ n ≤ 65535 := by
  obtain ⟨members, hfirst, hlookup⟩ := firstItem_of_within hport
  simp only [portInRange, hfirst, Value.isMember, Value.index, Value.members, Option.map_some,
    hlookup, Option.isSome_some, Option.getD_some] at h
  cases hint : v.asInt with
  | none => simp [hint] at h
  | some n =>
    refine ⟨n, rfl, ?_⟩
    simpa [hint] using h

theorem passwd_checked {bad : List String} (h : passwdIsNot config key bad = some true)
    (hpasswd : config.within [.member key, .item 0, .member "passwd"] = some v) :
    ∃ s, v.asString = some s ∧ s ∉ bad := by
  obtain ⟨members, hfirst, hlookup⟩ := firstItem_of_within hpasswd
  have hstring : (Value.object members).getString "passwd" = v.asString := by
    simp [Value.getString, Value.get, Value.members, hlookup]
  simp only [passwdIsNot, hfirst, hstring] at h
  obtain ⟨s, hs, hbad⟩ := Option.map_eq_some_iff.mp h
  exact ⟨s, hs, by simpa using hbad⟩

theorem issuer_checked (h : (issuerOf config).map isHttps = some true)
    (hissuer : config.within [.member "custom_config", .member "metadata", .member "issuer"] =
      some v) : ∃ s, v.asString = some s ∧ isHttps s = true := by
  obtain ⟨custom, hcustom, hrest⟩ := Option.bind_eq_some_iff.mp hissuer
  obtain ⟨metadata, hmetadata, hrest⟩ := Option.bind_eq_some_iff.mp hrest
  obtain ⟨found, hfound, hrest⟩ := Option.bind_eq_some_iff.mp hrest
  obtain rfl := Option.some.inj hrest
  obtain ⟨members, rfl, hmembers⟩ := object_of_child hcustom
  obtain ⟨members', rfl, hmembers'⟩ := object_of_child hmetadata
  obtain ⟨members'', rfl, hmembers''⟩ := object_of_child hfound
  simp [issuerOf, Value.isMember, Value.index, Value.members, Value.stringAt, hmembers,
    hmembers', hmembers''] at h
  exact h

end Checks

/-! ### Paths without names -/

def keyOf (part : String) : Key :=
  if isIndex part then .item (digitsValue part.toList) else .member part

theorem getJsonPointer_of_within {parts : List String} {v c : Value}
    (hplain : parts.all (fun part => isIndex part || !isNamed part) = true)
    (h : v.within (parts.map keyOf) = some c) :
    getJsonPointer v parts = some (parts.map keyOf) := by
  induction parts generalizing v with
  | nil => rfl
  | cons part parts ih =>
    rw [List.all_cons, Bool.and_eq_true] at hplain
    obtain ⟨d, hd, hrest⟩ := Option.bind_eq_some_iff.mp h
    have hfollow : follow v part = some ([keyOf part], d) := by
      unfold follow keyOf at *
      by_cases hindex : isIndex part = true
      · rw [if_pos hindex] at hd ⊢
        rw [if_pos hindex, hd]
        rfl
      · have hnamed : ¬isNamed part = true := by simpa [hindex] using hplain.1
        rw [if_neg hindex] at hd ⊢
        rw [if_neg hindex, if_neg hnamed, hd]
        rfl
    rw [getJsonPointer_cons, hfollow, Option.bind_some, ih hplain.2 hrest]
    rfl

/-! ### A start that is let through -/

section Start

variable {env : Environment} {file c : Value}

/-- What a variable puts at a place that the file has. -/
theorem within_load (rule : EnvOverride) (parts : List String) {envValue : String}
    (hrule : rule ∈ oauth2EnvOverrides) (hparts : pathParts rule.configPath = parts)
    (hplain : parts.all (fun part => isIndex part || !isNamed part) = true)
    (hset : getEnvValue env rule.envVar = some envValue)
    (hfile : file.within (parts.map keyOf) = some c) :
    (load env file).within (parts.map keyOf) = some (overriding rule envValue) := by
  have hplace := getJsonPointer_of_within hplain hfile
  rw [← hparts] at hplace
  have heffect := (overrides_applied env file).effect rule hrule envValue _ ⟨hset, hplace⟩ []
  rwa [List.append_nil, hparts] at heffect

/-- A text that is no number in range reads as zero. -/
theorem stoi_of_parseInt {text : String} (hpositive : 1 ≤ parseInt text) :
    stoi text = some (parseInt text) := by
  rw [parseInt] at hpositive ⊢
  cases hstoi : stoi text with
  | none => simp [hstoi] at hpositive
  | some n => rfl

theorem toInt_parseInt (text : String) : (Int64.ofInt (parseInt text)).toInt = parseInt text := by
  have hrange : -2 ^ 31 ≤ parseInt text ∧ parseInt text < 2 ^ 31 := by
    rw [parseInt, stoi]
    split
    · decide
    split
    · assumption
    · decide
  apply Int64.toInt_ofInt_of_le <;> omega

/-- A port that was let through and comes from the environment is a number. -/
theorem port_of_env {text key : String}
    (hchecked : portInRange (load env file) key = some true)
    (hport : (load env file).within [.member key, .item 0, .member "port"] =
      some (.int (Int64.ofInt (parseInt text)))) :
    ∃ n, stoi text = some n ∧ 1 ≤ n ∧ n ≤ 65535 := by
  obtain ⟨n, hn, hlow, hhigh⟩ := port_checked hchecked hport
  have hvalue : n = parseInt text := by
    simp only [Value.asInt, Value.asIntIn, toInt_parseInt] at hn
    split at hn
    · exact (Option.some.inj hn).symm
    · cases hn
  subst hvalue
  exact ⟨_, stoi_of_parseInt hlow, hlow, hhigh⟩

/-- The file has a value at the place. -/
def Has (file : Value) (place : List Key) : Prop := ∃ c, file.within place = some c

/-- When a start is let through, the ports that come from the environment are port numbers; in
production the issuer that comes from there is an https address, and no password that comes from
there is a known one. -/
theorem checked_start (hvalid : validate env (load env file) = some (.ok ())) :
    (∀ key envVar text, (key, envVar) ∈
        [("db_clients", "OAUTH2_DB_PORT"), ("redis_clients", "OAUTH2_REDIS_PORT")] →
      getEnvValue env envVar = some text → Has file [.member key, .item 0, .member "port"] →
      ∃ n, stoi text = some n ∧ 1 ≤ n ∧ n ≤ 65535) ∧
    (getEnvValue env "OAUTH2_ENV" = some "production" →
      (∀ text, getEnvValue env "OAUTH2_ISSUER" = some text →
        Has file [.member "custom_config", .member "metadata", .member "issuer"] →
        "https://".toList <+: text.toList) ∧
      (∀ text, getEnvValue env "OAUTH2_DB_PASSWORD" = some text →
        Has file [.member "db_clients", .item 0, .member "passwd"] →
        text ∉ ["", "123456", "password"]) ∧
      ∀ text, getEnvValue env "OAUTH2_REDIS_PASSWORD" = some text →
        Has file [.member "redis_clients", .item 0, .member "passwd"] →
        text ∉ ["123456", "password"]) := by
  rw [validate, firstError_eq_ok_iff, List.forall_mem_append] at hvalid
  obtain ⟨hchecks, hproduction⟩ := hvalid
  simp only [checks, List.forall_mem_cons] at hchecks
  obtain ⟨-, -, hdbPort, hredisPort, -⟩ := hchecks
  constructor
  · intro key envVar text hmem hset
    rintro ⟨c, hc⟩
    rw [List.mem_cons, List.mem_singleton, Prod.mk.injEq, Prod.mk.injEq] at hmem
    rcases hmem with ⟨rfl, rfl⟩ | ⟨rfl, rfl⟩
    · apply port_of_env hdbPort
      exact within_load ⟨"db_clients.0.port", "OAUTH2_DB_PORT", true, false⟩
        ["db_clients", "0", "port"] (by simp [oauth2EnvOverrides]) (by decide +kernel)
        (by decide +kernel) hset hc
    · apply port_of_env hredisPort
      exact within_load ⟨"redis_clients.0.port", "OAUTH2_REDIS_PORT", true, false⟩
        ["redis_clients", "0", "port"] (by simp [oauth2EnvOverrides]) (by decide +kernel)
        (by decide +kernel) hset hc
  · intro henv
    have hprod : isProd env = true := by simpa [isProd] using henv
    rw [if_pos hprod] at hproduction
    simp only [productionChecks, List.forall_mem_cons] at hproduction
    obtain ⟨hissuer, hdb, hredis, -⟩ := hproduction
    refine ⟨?_, ?_, ?_⟩
    · rintro text hset ⟨c, hc⟩
      have hwithin := within_load ⟨"custom_config.metadata.issuer", "OAUTH2_ISSUER", false, false⟩
        ["custom_config", "metadata", "issuer"] (by simp [oauth2EnvOverrides]) (by decide +kernel)
        (by decide +kernel) hset hc
      obtain ⟨s, hs, hhttps⟩ := issuer_checked hissuer hwithin
      obtain rfl := Option.some.inj hs
      exact List.isPrefixOf_iff_prefix.mp hhttps
    · rintro text hset ⟨c, hc⟩
      have hwithin := within_load ⟨"db_clients.0.passwd", "OAUTH2_DB_PASSWORD", false, false⟩
        ["db_clients", "0", "passwd"] (by simp [oauth2EnvOverrides]) (by decide +kernel)
        (by decide +kernel) hset hc
      obtain ⟨s, hs, hbad⟩ := passwd_checked hdb hwithin
      obtain rfl := Option.some.inj hs
      exact hbad
    · rintro text hset ⟨c, hc⟩
      have hwithin := within_load ⟨"redis_clients.0.passwd", "OAUTH2_REDIS_PASSWORD", false, false⟩
        ["redis_clients", "0", "passwd"] (by simp [oauth2EnvOverrides]) (by decide +kernel)
        (by decide +kernel) hset hc
      obtain ⟨s, hs, hbad⟩ := passwd_checked hredis hwithin
      obtain rfl := Option.some.inj hs
      exact hbad

end Start

def knownEnvironment : Environment where
  dotEnv := loadDotEnv
    "OAUTH2_ENV=production\nOAUTH2_DB_PORT = \"5433\"\nOAUTH2_ISSUER=https://id"
  system name := if name = "OAUTH2_DB_PASSWORD" then some "secret" else none

def knownFile : Value :=
  .object
    [("db_clients", .array [.object [("port", .int 5432), ("passwd", .string "123456")]]),
     ("redis_clients", .array []),
     ("custom_config", .object [("metadata", .object [("issuer", .string "http://localhost")])])]

theorem checked_start_known :
    validate knownEnvironment (load knownEnvironment knownFile) = some (.ok ()) ∧
      (∃ n, stoi "5433" = some n ∧ 1 ≤ n ∧ n ≤ 65535) ∧
      "https://".toList <+: "https://id".toList := by
  have hvalid : validate knownEnvironment (load knownEnvironment knownFile) = some (.ok ()) := rfl
  obtain ⟨hports, hproduction⟩ := checked_start hvalid
  refine ⟨hvalid, ?_, ?_⟩
  · exact hports "db_clients" "OAUTH2_DB_PORT" "5433" (by decide) (by decide +kernel) ⟨_, rfl⟩
  · exact (hproduction (by decide +kernel)).1 "https://id" (by decide +kernel) ⟨_, rfl⟩

end AuthForge.EnvOverrides
