import AuthForge.Admin.TokenManagement

/-!
# Revoking by prefix

The prefix goes into the pattern as it is. It stands for itself if it is plain; otherwise some table
loses a token that does not begin with it.
-/

namespace AuthForge.PrefixRevocation

open Admin OAuth2 Storage.Postgres

/-- What revoking by prefix has to do to a table: the rows that begin with the prefix go, and no
others. -/
def RevokesPrefix (tokenPrefix : String) (s s' : TokenTables) : Prop :=
  s'.oauth2RefreshTokens = s.oauth2RefreshTokens ∧
    ∀ token, s'.oauth2AccessTokens.lookup token =
      if tokenPrefix.toList <+: token.toList then none else s.oauth2AccessTokens.lookup token

def tableOf (row : OAuth2AccessToken) : TokenTables where
  oauth2AccessTokens := AList.singleton row.token row
  oauth2RefreshTokens := ∅

theorem toList_pattern (tokenPrefix : String) :
    (tokenPrefix ++ "%").toList = tokenPrefix.toList ++ ['%'] := String.toList_append

/-- A table with one token tells what a pattern selects. -/
theorem like_of_revokes {tokenPrefix : String}
    (h : ∀ s, RevokesPrefix tokenPrefix s (deleteLike (tokenPrefix ++ "%") s).2)
    (text : List Char) :
    Like.like (tokenPrefix.toList ++ ['%']) text = true ↔ tokenPrefix.toList <+: text := by
  obtain ⟨row, hrow⟩ : ∃ row : OAuth2AccessToken, row.token.toList = text :=
    ⟨{ token := String.ofList text, clientId := "", userId := "", scope := "", expiresAt := 0 },
      String.toList_ofList⟩
  have hlookup := (h (tableOf row)).2 row.token
  rw [lookup_deleteLike, toList_pattern, hrow] at hlookup
  have hstored : (tableOf row).oauth2AccessTokens.lookup row.token ≠ none := by
    have hsome : (tableOf row).oauth2AccessTokens.lookup row.token = some row :=
      List.dlookup_cons_eq _ _ _
    rw [hsome]
    nofun
  by_cases hstart : tokenPrefix.toList <+: text
  · rw [if_pos hstart] at hlookup
    refine iff_of_true ?_ hstart
    by_contra hlike
    rw [if_neg hlike] at hlookup
    exact hstored hlookup
  · rw [if_neg hstart] at hlookup
    refine iff_of_false ?_ hstart
    intro hlike
    rw [if_pos hlike] at hlookup
    exact hstored hlookup.symm

/-- Revoking by prefix removes exactly what begins with the prefix, from every table, if and only if
the prefix has no percent sign, no underscore and no backslash. -/
theorem revokes_prefix_iff_plain (env : TokenAdminEnv) (tokenPrefix : String)
    (hstart : tokenPrefix ≠ "") (hconnected : env.connected = true) (hfails : env.fails = false) :
    (∀ s, RevokesPrefix tokenPrefix s (revokeToken env tokenPrefix s).2) ↔
      Like.Plain tokenPrefix.toList := by
  simp only [revokeToken_tables hconnected hfails hstart]
  constructor
  · intro h
    exact (Like.like_prefix_iff _).mp (like_of_revokes h)
  · intro hplain s
    refine ⟨rfl, ?_⟩
    intro token
    rw [lookup_deleteLike, toList_pattern]
    exact if_congr ((Like.like_prefix_iff _).mpr hplain token.toList) rfl rfl

theorem revokes_prefix_iff_plain_hex :
    (∀ s, RevokesPrefix "3fa9" s (revokeToken {} "3fa9" s).2) ↔ Like.Plain "3fa9".toList :=
  revokes_prefix_iff_plain {} "3fa9" (by decide) rfl rfl

/-- An underscore alone removes every token. -/
theorem underscore_removes_other :
    ¬RevokesPrefix "_" (tableOf ⟨"3fa9", "app", "7", "openid", 100, false, 0, "", "", 0, 0, 0, ""⟩)
      (revokeToken {} "_"
        (tableOf ⟨"3fa9", "app", "7", "openid", 100, false, 0, "", "", 0, 0, 0, ""⟩)).2 := by
  intro h
  have hlookup := h.2 "3fa9"
  revert hlookup
  decide +kernel

end AuthForge.PrefixRevocation
