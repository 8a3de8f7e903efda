import AuthForge.Base.Conninfo

/-!
# The connection string of the migration run

`buildPgConnInfo` writes the values of the configuration between its keywords as they are. What libpq
reads from that is the configuration exactly if no value needs quoting and none but the password is
empty: the string is just long enough for the five assignments, so none of them can lose a
character.
-/

namespace AuthForge.ConnectionInfo

open Conninfo

/-- The first entry of `db_clients`, with the defaults of the reader. -/
structure DbClientConfig where
  host : String := "localhost"
  port : Int := 5432
  dbname : String := ""
  user : String := ""
  passwd : String := ""

def buildPgConnInfo (db : DbClientConfig) : String :=
  "host=" ++ db.host ++ " port=" ++ toString db.port ++ " dbname=" ++ db.dbname ++
    " user=" ++ db.user ++ " password=" ++ db.passwd

def hostKey : List Char := "host".toList
def portKey : List Char := "port".toList
def dbnameKey : List Char := "dbname".toList
def userKey : List Char := "user".toList
def passwordKey : List Char := "password".toList

/-- What the server itself is configured with. -/
def configured (db : DbClientConfig) : List (List Char × List Char) :=
  [(hostKey, db.host.toList), (portKey, (toString db.port).toList), (dbnameKey, db.dbname.toList),
    (userKey, db.user.toList), (passwordKey, db.passwd.toList)]

/-- libpq reads the configured values back, and no other keyword. -/
def RoundTrips (db : DbClientConfig) : Prop :=
  ∃ es, parse (buildPgConnInfo db).toList = some es ∧
    ∀ k, setting es k = setting (configured db) k

/-- Values that need no quotes. -/
structure NeedsNoQuotes (db : DbClientConfig) : Prop where
  host : Clean db.host.toList
  dbname : Clean db.dbname.toList
  user : Clean db.user.toList
  passwd : Clean db.passwd.toList
  host_ne_empty : db.host ≠ ""
  dbname_ne_empty : db.dbname ≠ ""
  user_ne_empty : db.user ≠ ""

variable {db : DbClientConfig} {es : List (List Char × List Char)}

/-! ### The text -/

def passwordText (db : DbClientConfig) : List Char := passwordKey ++ '=' :: db.passwd.toList

def userText (db : DbClientConfig) : List Char :=
  userKey ++ '=' :: (db.user.toList ++ ' ' :: passwordText db)

def dbnameText (db : DbClientConfig) : List Char :=
  dbnameKey ++ '=' :: (db.dbname.toList ++ ' ' :: userText db)

def portText (db : DbClientConfig) : List Char :=
  portKey ++ '=' :: ((toString db.port).toList ++ ' ' :: dbnameText db)

theorem toList_fields {host port dbname user password : String} (db : DbClientConfig)
    (hhost : host.toList = hostKey ++ ['=']) (hport : port.toList = ' ' :: (portKey ++ ['=']))
    (hdbname : dbname.toList = ' ' :: (dbnameKey ++ ['=']))
    (huser : user.toList = ' ' :: (userKey ++ ['=']))
    (hpassword : password.toList = ' ' :: (passwordKey ++ ['='])) :
    (host ++ db.host ++ port ++ toString db.port ++ dbname ++ db.dbname ++ user ++ db.user ++
      password ++ db.passwd).toList = hostKey ++ '=' :: (db.host.toList ++ ' ' :: portText db) := by
  simp only [String.toList_append, hhost, hport, hdbname, huser, hpassword, portText, dbnameText,
    userText, passwordText, List.append_assoc, List.cons_append, List.nil_append]

/-- The keywords as the text spells them: different names without white space or `=`. -/
theorem keys_spelled :
    ("host=".toList = hostKey ++ ['='] ∧ " port=".toList = ' ' :: (portKey ++ ['=']) ∧
      " dbname=".toList = ' ' :: (dbnameKey ++ ['=']) ∧
      " user=".toList = ' ' :: (userKey ++ ['=']) ∧
      " password=".toList = ' ' :: (passwordKey ++ ['='])) ∧
    [hostKey, portKey, dbnameKey, userKey, passwordKey].Nodup ∧
    hostKey.all isNameChar = true ∧ portKey.all isNameChar = true ∧
    dbnameKey.all isNameChar = true ∧ userKey.all isNameChar = true ∧
    passwordKey.all isNameChar = true := by
  decide +kernel

theorem toList_buildPgConnInfo (db : DbClientConfig) :
    (buildPgConnInfo db).toList = hostKey ++ '=' :: (db.host.toList ++ ' ' :: portText db) := by
  obtain ⟨hhost, hport, hdbname, huser, hpassword⟩ := keys_spelled.1
  exact toList_fields db hhost hport hdbname huser hpassword

theorem length_buildPgConnInfo (db : DbClientConfig) :
    (buildPgConnInfo db).toList.length + 1 = ((configured db).map weight).sum := by
  rw [toList_buildPgConnInfo]
  simp only [configured, weight, portText, dbnameText, userText, passwordText, List.length_append,
    List.length_cons, List.map_cons, List.map_nil, List.sum_cons, List.sum_nil]
  omega

theorem clean_of_digits {v : List Char} (h : ∀ c ∈ v, c.isDigit = true ∨ c = '-') : Clean v := by
  have hne : ∀ d : Char, d.isDigit = false → d ≠ '-' → d ∉ v := by
    intro d hdigit hminus hd
    rcases h d hd with hd | hd
    · rw [hdigit] at hd
      cases hd
    · exact hminus hd
  refine ⟨?_, hne '\\' (by decide) (by decide), ?_⟩
  · intro c hc
    rcases h c hc with hdigit | rfl
    · obtain ⟨hge, -⟩ := isDigit_iff_toNat.mp hdigit
      rw [isSpace, Bool.or_eq_false_iff, Bool.and_eq_false_iff, decide_eq_false_iff_not,
        decide_eq_false_iff_not, decide_eq_false_iff_not]
      refine ⟨?_, .inr ?_⟩
      · rintro rfl
        exact absurd hge (by decide)
      · intro hle
        have hnat : c.toNat ≤ 13 := hle
        omega
    · decide
  · intro hhead
    exact hne '\'' (by decide) (by decide) (List.mem_of_mem_head? hhead)

theorem clean_port (port : Int) : Clean (toString port).toList ∧ (toString port).toList ≠ [] := by
  rcases intToString_cases port with ⟨m, -, hm⟩ | ⟨m, -, hm⟩
  · rw [hm]
    refine ⟨clean_of_digits fun c hc => .inl (isDigit_of_mem_natToString hc), ?_⟩
    rw [Nat.toString_eq_repr, Nat.toList_repr]
    exact Nat.toDigits_ne_nil
  · rw [hm]
    refine ⟨clean_of_digits ?_, List.cons_ne_nil _ _⟩
    intro c hc
    rcases List.mem_cons.mp hc with rfl | hc
    · exact .inr rfl
    · exact .inl (isDigit_of_mem_natToString hc)

theorem nodup_keys (db : DbClientConfig) : ((configured db).map Prod.fst).Nodup := by
  have hkeys : (configured db).map Prod.fst = [hostKey, portKey, dbnameKey, userKey, passwordKey] :=
    rfl
  rw [hkeys]
  exact keys_spelled.2.1

theorem isNameChar_of_mem {k : List Char} (h : k.all isNameChar = true) :
    ∀ c ∈ k, isNameChar c = true := List.all_eq_true.mp h

/-- A field with a clean value that is not empty is read, and the rest after it. -/
theorem parse_field {k v rest : List Char} (hk : k.all isNameChar = true) (hv : Clean v)
    (hne : v ≠ []) :
    parse (k ++ '=' :: (v ++ ' ' :: rest)) = (parse rest).map ((k, v) :: ·) :=
  parse_assign (isNameChar_of_mem hk) (hv.value_blank hne rest)

theorem roundTrips_of_needsNoQuotes (h : NeedsNoQuotes db) : RoundTrips db := by
  obtain ⟨hport, hportne⟩ := clean_port db.port
  have hempty : ∀ s : String, s ≠ "" → s.toList ≠ [] := fun s hs hnil =>
    hs (String.toList_inj.mp hnil)
  obtain ⟨hhost, hportKey, hdbname, huser, hpassword⟩ := keys_spelled.2.2
  refine ⟨configured db, ?_, fun _ => rfl⟩
  rw [toList_buildPgConnInfo, parse_field hhost h.host (hempty _ h.host_ne_empty), portText,
    parse_field hportKey hport hportne, dbnameText,
    parse_field hdbname h.dbname (hempty _ h.dbname_ne_empty), userText,
    parse_field huser h.user (hempty _ h.user_ne_empty), passwordText,
    parse_assign (isNameChar_of_mem hpassword) h.passwd.value_end, parse_of_blank rfl]
  rfl

/-! ### What a round trip takes -/

/-- No value is empty before another keyword: it would be read as that keyword. -/
theorem value_ne_nil {part : List (List Char × List Char)} {k v cs : List Char} {c : Char}
    (hperm : es.Perm (configured db)) (hsub : part ⊆ es) (hv : (k, v) ∈ configured db)
    (hk : k.all isNameChar = true) (hc : isNameChar c = true) (hquote : c ≠ '\'')
    (hescape : c ≠ '\\') (hpart : parse (k ++ '=' :: (v ++ ' ' :: c :: cs)) = some part) :
    v ≠ [] := by
  rintro rfl
  obtain ⟨w, hw⟩ := parse_empty (isNameChar_of_mem hk) hc hquote hescape hpart
  have hsame := setting_of_mem (nodup_keys db) (hperm.mem_iff.mp (hsub hw))
  rw [setting_of_mem (nodup_keys db) hv] at hsame
  cases hsame

/-- What is left to parse after a field, as part of the whole. -/
theorem parse_rest {part : List (List Char × List Char)} {k v rest : List Char}
    (hsub : part ⊆ es) (hk : k.all isNameChar = true) (hv : Clean v) (hne : v ≠ [])
    (hpart : parse (k ++ '=' :: (v ++ ' ' :: rest)) = some part) :
    ∃ more, more ⊆ es ∧ parse rest = some more := by
  rw [parse_field hk hv hne] at hpart
  obtain ⟨more, hmore, rfl⟩ := Option.map_eq_some_iff.mp hpart
  exact ⟨more, List.Subset.trans (List.subset_cons_self _ _) hsub, hmore⟩

theorem needsNoQuotes_of_roundTrips (h : RoundTrips db) : NeedsNoQuotes db := by
  obtain ⟨es, hparse, hset⟩ := h
  obtain ⟨hperm, hclean⟩ :=
    clean_of_settings hparse (nodup_keys db) (length_buildPgConnInfo db) hset
  have hhost : (hostKey, db.host.toList) ∈ configured db := .head _
  have hdbname : (dbnameKey, db.dbname.toList) ∈ configured db := .tail _ (.tail _ (.head _))
  have huser : (userKey, db.user.toList) ∈ configured db :=
    .tail _ (.tail _ (.tail _ (.head _)))
  have hpasswd : (passwordKey, db.passwd.toList) ∈ configured db :=
    .tail _ (.tail _ (.tail _ (.tail _ (.head _))))
  obtain ⟨hportClean, hportne⟩ := clean_port db.port
  obtain ⟨hhostKey, hportKey, hdbnameKey, huserKey, -⟩ := keys_spelled.2.2
  rw [toList_buildPgConnInfo] at hparse
  have hhostne := value_ne_nil hperm (List.Subset.refl _) hhost hhostKey (by decide) (by decide)
    (by decide) hparse
  obtain ⟨part, hsub, hpart⟩ := parse_rest (List.Subset.refl _) hhostKey (hclean _ hhost) hhostne
    hparse
  obtain ⟨part, hsub, hpart⟩ := parse_rest hsub hportKey hportClean hportne hpart
  have hdbnamene := value_ne_nil hperm hsub hdbname hdbnameKey (by decide) (by decide)
    (by decide) hpart
  obtain ⟨part, hsub, hpart⟩ := parse_rest hsub hdbnameKey (hclean _ hdbname) hdbnamene hpart
  have huserne := value_ne_nil hperm hsub huser huserKey (by decide) (by decide) (by decide) hpart
  have hempty : ∀ s : String, s.toList ≠ [] → s ≠ "" := by
    rintro s hs rfl
    exact hs rfl
  exact ⟨hclean _ hhost, hclean _ hdbname, hclean _ huser, hclean _ hpasswd, hempty _ hhostne,
    hempty _ hdbnamene, hempty _ huserne⟩

/-- libpq reads the configuration back if and only if no value has white space or a backslash or
begins with a quote, and host, database and user are not empty. -/
theorem conninfo_read_back_iff (db : DbClientConfig) : RoundTrips db ↔ NeedsNoQuotes db :=
  ⟨needsNoQuotes_of_roundTrips, roundTrips_of_needsNoQuotes⟩

/-- The password `s3cret sslmode=disable` is read as `s3cret` and one more keyword. -/
theorem password_sets_sslmode :
    ¬RoundTrips ⟨"db", 5432, "authforge", "app", "s3cret sslmode=disable"⟩ := by
  intro h
  have hblank := (needsNoQuotes_of_roundTrips h).passwd.blank ' '
  revert hblank
  decide +kernel

end AuthForge.ConnectionInfo
