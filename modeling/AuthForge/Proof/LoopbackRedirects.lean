import AuthForge.Base.Regex
import AuthForge.Base.Uri
import AuthForge.Http.Validation

/-!
# Plain http stays on the loopback

The shape of a redirect URI leaves no room for user information between its scheme and its host, so
the literal that an accepted plain URI begins with is its whole host.
-/

namespace AuthForge.LoopbackRedirects

open Http Regex

/-! ### The shape -/

/-- A literal in brackets, or a name. -/
def IsHost (host : List UInt8) : Prop :=
  (∃ literal, host = bytes "[" ++ literal ++ bytes "]" ∧ literal ≠ [] ∧
    ∀ b ∈ literal, (isHex b || oneOf ":." b) = true) ∨
  (host ≠ [] ∧ ∀ b ∈ host, (isAlnum b || oneOf ".-" b) = true)

def IsPort (port : List UInt8) : Prop :=
  port = [] ∨ ∃ digits, port = bytes ":" ++ digits ∧ ∀ b ∈ digits, inRange '0' '9' b = true

/-- What the pattern allows, byte by byte; the tail is a path up to the end. -/
structure Shape (text : List UInt8) (scheme host port tail : List UInt8) : Prop where
  text_eq : text = scheme ++ bytes "://" ++ host ++ port ++ tail
  scheme : scheme = bytes "http" ∨ scheme = bytes "https"
  host : IsHost host
  port : IsPort port
  tail : tail = [] ∨ ∃ path, tail = bytes "/" ++ path

theorem exists_shape {text : List UInt8} (h : REDIRECT_URI_PATTERN.accepts text = true) :
    ∃ scheme host port tail, Shape text scheme host port tail := by
  rw [accepts_iff] at h
  unfold REDIRECT_URI_PATTERN seqs at h
  obtain ⟨http, hhttp, rest₁, hrest₁, rfl⟩ := mem_seq_iff.mp h
  obtain ⟨s, hs, rest₂, hrest₂, rfl⟩ := mem_seq_iff.mp hrest₁
  obtain ⟨mark, hmark, rest₃, hrest₃, rfl⟩ := mem_seq_iff.mp hrest₂
  obtain ⟨host, hhost, rest₄, hrest₄, rfl⟩ := mem_seq_iff.mp hrest₃
  obtain ⟨port, hport, tail, htail, rfl⟩ := mem_seq_iff.mp hrest₄
  obtain rfl := mem_literal_iff.mp hhttp
  obtain rfl := mem_literal_iff.mp hmark
  refine ⟨bytes "http" ++ s, host, port, tail, ?_, ?_, ?_, ?_, ?_⟩
  · simp only [List.append_assoc]
  · rcases mem_opt_iff.mp hs with hs | rfl
    · obtain rfl := mem_literal_iff.mp hs
      exact .inr (by decide)
    · exact .inl (List.append_nil _)
  · rcases (Language.mem_add _ _ _).mp hhost with hhost | hhost
    · obtain ⟨opening, hopening, rest, hrest, rfl⟩ := mem_seq_iff.mp hhost
      obtain ⟨inner, hinner, closing, hclosing, rfl⟩ := mem_seq_iff.mp hrest
      obtain rfl := mem_literal_iff.mp hopening
      obtain rfl := mem_literal_iff.mp hclosing
      obtain ⟨hne, hall⟩ := mem_plus_sat_iff.mp hinner
      exact .inl ⟨inner, (List.append_assoc _ _ _).symm, hne, hall⟩
    · exact .inr (mem_plus_sat_iff.mp hhost)
  · rcases mem_opt_iff.mp hport with hport | rfl
    · obtain ⟨colon, hcolon, digits, hdigits, rfl⟩ := mem_seq_iff.mp hport
      obtain rfl := mem_literal_iff.mp hcolon
      exact .inr ⟨digits, rfl, (mem_plus_sat_iff.mp hdigits).2⟩
    · exact .inl rfl
  · rcases mem_opt_iff.mp htail with htail | rfl
    · obtain ⟨slash, hslash, path, -, rfl⟩ := mem_seq_iff.mp htail
      obtain rfl := mem_literal_iff.mp hslash
      exact .inr ⟨path, rfl⟩
    · exact .inl rfl

/-! ### Characters -/

theorem ascii_of_all {l : List UInt8} (h : (l.all fun b => decide (b.toNat < 128)) = true) :
    ∀ b ∈ l, b.toNat < 128 :=
  fun b hb => of_decide_eq_true (List.all_eq_true.mp h b hb)

theorem range_of_literal {b : UInt8} (h : (isHex b || oneOf ":." b) = true) :
    (48 ≤ b.toNat ∧ b.toNat ≤ 58) ∨ (65 ≤ b.toNat ∧ b.toNat ≤ 70) ∨
      (97 ≤ b.toNat ∧ b.toNat ≤ 102) ∨ b.toNat = 46 := by
  have hbytes : bytes ":." = [58, 46] := by decide
  simp only [isHex, inRange, oneOf, hbytes, Bool.or_eq_true, Bool.and_eq_true, decide_eq_true_eq,
    List.mem_cons, List.not_mem_nil, or_false, Char.reduceToNat, ← UInt8.toNat_inj] at h
  change _ ∨ (_ = 58 ∨ _ = 46) at h
  omega

theorem range_of_name {b : UInt8} (h : (isAlnum b || oneOf ".-" b) = true) :
    (48 ≤ b.toNat ∧ b.toNat ≤ 57) ∨ (65 ≤ b.toNat ∧ b.toNat ≤ 90) ∨
      (97 ≤ b.toNat ∧ b.toNat ≤ 122) ∨ b.toNat = 46 ∨ b.toNat = 45 := by
  have hbytes : bytes ".-" = [46, 45] := by decide
  simp only [isAlnum, inRange, oneOf, hbytes, Bool.or_eq_true, Bool.and_eq_true,
    decide_eq_true_eq, List.mem_cons, List.not_mem_nil, or_false, Char.reduceToNat,
    ← UInt8.toNat_inj] at h
  change _ ∨ (_ = 46 ∨ _ = 45) at h
  omega

theorem range_of_digit {b : UInt8} (h : inRange '0' '9' b = true) :
    48 ≤ b.toNat ∧ b.toNat ≤ 57 := by
  simp only [inRange, Bool.and_eq_true, decide_eq_true_eq, Char.reduceToNat] at h
  exact h

/-- A character that neither ends an authority nor a user information. -/
def Plain (c : Char) : Prop := c ≠ '@' ∧ Uri.endsAuthority c = false

theorem plain_of_toNat {c : Char} (h : c.toNat ≠ 64 ∧ c.toNat ≠ 47 ∧ c.toNat ≠ 63 ∧ c.toNat ≠ 35) :
    Plain c := by
  obtain ⟨hat, hslash, hquery, hhash⟩ := h
  refine ⟨fun heq => hat (by rw [heq]; rfl), ?_⟩
  have hslash' : c ≠ '/' := fun heq => hslash (by rw [heq]; rfl)
  have hquery' : c ≠ '?' := fun heq => hquery (by rw [heq]; rfl)
  have hhash' : c ≠ '#' := fun heq => hhash (by rw [heq]; rfl)
  unfold Uri.endsAuthority
  rw [decide_eq_false hslash', decide_eq_false hquery', decide_eq_false hhash']
  rfl

/-- The shape, character by character. -/
structure CharShape (text scheme host port tail : List Char) : Prop where
  text_eq : text = scheme ++ ':' :: '/' :: '/' :: (host ++ port ++ tail)
  scheme : scheme = "http".toList ∨ scheme = "https".toList
  host : (∃ literal, host = '[' :: (literal ++ [']']) ∧ ∀ c ∈ literal, Plain c ∧ c ≠ ']') ∨
    (host ≠ [] ∧ ∀ c ∈ host, Plain c ∧ c ≠ ':' ∧ c ≠ '[')
  port : port = [] ∨ ∃ digits, port = ':' :: digits ∧ ∀ c ∈ digits, c.isDigit = true
  tail : tail = [] ∨ ∃ path, tail = '/' :: path

theorem charHost_of_isHost {host : List UInt8} (h : IsHost host) :
    (∀ b ∈ host, b.toNat < 128) ∧
      ((∃ literal, host.map asciiChar = '[' :: (literal ++ [']']) ∧
          ∀ c ∈ literal, Plain c ∧ c ≠ ']') ∨
        (host.map asciiChar ≠ [] ∧ ∀ c ∈ host.map asciiChar, Plain c ∧ c ≠ ':' ∧ c ≠ '[')) := by
  rcases h with ⟨literal, rfl, -, hall⟩ | ⟨hne, hall⟩
  · constructor
    · intro b hb
      rcases List.mem_append.mp hb with hb | hb
      · rcases List.mem_append.mp hb with hb | hb
        · exact ascii_of_all (by decide : (bytes "[").all _ = true) b hb
        · have hrange := range_of_literal (hall b hb)
          omega
      · exact ascii_of_all (by decide : (bytes "]").all _ = true) b hb
    · refine .inl ⟨literal.map asciiChar, ?_, ?_⟩
      · rw [List.map_append, List.map_append, List.append_assoc]
        rfl
      · intro c hc
        obtain ⟨b, hb, rfl⟩ := List.mem_map.mp hc
        have hrange := range_of_literal (hall b hb)
        have hnat := toNat_asciiChar (b := b) (by omega)
        refine ⟨plain_of_toNat (by omega), ?_⟩
        intro heq
        rw [heq] at hnat
        change 93 = _ at hnat
        omega
  · constructor
    · intro b hb
      have hrange := range_of_name (hall b hb)
      omega
    · refine .inr ⟨fun hnil => hne (List.map_eq_nil_iff.mp hnil), ?_⟩
      intro c hc
      obtain ⟨b, hb, rfl⟩ := List.mem_map.mp hc
      have hrange := range_of_name (hall b hb)
      have hnat := toNat_asciiChar (b := b) (by omega)
      refine ⟨plain_of_toNat (by omega), ?_, ?_⟩
      · intro heq
        rw [heq] at hnat
        change 58 = _ at hnat
        omega
      · intro heq
        rw [heq] at hnat
        change 91 = _ at hnat
        omega

theorem charPort_of_isPort {port : List UInt8} (h : IsPort port) :
    (∀ b ∈ port, b.toNat < 128) ∧
      (port.map asciiChar = [] ∨
        ∃ digits, port.map asciiChar = ':' :: digits ∧ ∀ c ∈ digits, c.isDigit = true) := by
  rcases h with rfl | ⟨digits, rfl, hall⟩
  · exact ⟨nofun, .inl rfl⟩
  · constructor
    · intro b hb
      rcases List.mem_append.mp hb with hb | hb
      · exact ascii_of_all (by decide : (bytes ":").all _ = true) b hb
      · have hrange := range_of_digit (hall b hb)
        omega
    · refine .inr ⟨digits.map asciiChar, ?_, ?_⟩
      · rw [List.map_append]
        rfl
      · intro c hc
        obtain ⟨b, hb, rfl⟩ := List.mem_map.mp hc
        have hrange := range_of_digit (hall b hb)
        have hnat := toNat_asciiChar (b := b) (by omega)
        rw [isDigit_iff_toNat]
        omega

theorem exists_charShape {text : List Char}
    (h : REDIRECT_URI_PATTERN.accepts (text.flatMap String.utf8EncodeChar) = true) :
    ∃ scheme host port tail, CharShape text scheme host port tail := by
  obtain ⟨scheme, host, port, tail, hshape⟩ := exists_shape h
  obtain ⟨hhost, hchars⟩ := charHost_of_isHost hshape.host
  obtain ⟨hport, hdigits⟩ := charPort_of_isPort hshape.port
  have hscheme : (∀ b ∈ scheme, b.toNat < 128) ∧
      (scheme.map asciiChar = "http".toList ∨ scheme.map asciiChar = "https".toList) := by
    rcases hshape.scheme with rfl | rfl
    · exact ⟨ascii_of_all (by decide), by decide⟩
    · exact ⟨ascii_of_all (by decide), by decide⟩
  have hmark : ∀ b ∈ bytes "://", b.toNat < 128 := ascii_of_all (by decide)
  have hascii : ∀ b ∈ scheme ++ bytes "://" ++ host ++ port, b.toNat < 128 := by
    simp only [List.mem_append]
    rintro b (((hb | hb) | hb) | hb)
    · exact hscheme.1 b hb
    · exact hmark b hb
    · exact hhost b hb
    · exact hport b hb
  obtain ⟨rest, rfl, hrest⟩ := exists_of_flatMap_eq_append hshape.text_eq hascii
  refine ⟨scheme.map asciiChar, host.map asciiChar, port.map asciiChar, rest, ?_, hscheme.2, hchars,
    hdigits, ?_⟩
  · simp only [List.map_append, List.append_assoc]
    rfl
  · rcases hshape.tail with rfl | ⟨path, rfl⟩
    · left
      cases rest with
      | nil => rfl
      | cons c rest =>
        rw [List.flatMap_cons, List.append_eq_nil_iff] at hrest
        exact absurd hrest.1 String.utf8EncodeChar_ne_nil
    · right
      obtain ⟨rest', rfl, -⟩ := exists_of_flatMap_eq_append hrest (ascii_of_all (by decide))
      exact ⟨rest', rfl⟩

/-! ### Its components -/

section Parse

variable {text scheme host port tail : List Char}

theorem stops_tail (h : tail = [] ∨ ∃ path, tail = '/' :: path) :
    Uri.Stops (fun c => !Uri.endsAuthority c) tail := by
  intro c hc
  rcases h with rfl | ⟨path, rfl⟩
  · cases hc
  · obtain rfl := Option.some.inj hc
    rfl

theorem CharShape.plain (h : CharShape text scheme host port tail) : ∀ c ∈ host ++ port, Plain c := by
  intro c hc
  rcases List.mem_append.mp hc with hc | hc
  · rcases h.host with ⟨literal, rfl, hall⟩ | ⟨-, hall⟩
    · rcases List.mem_cons.mp hc with rfl | hc
      · exact plain_of_toNat (by decide)
      rcases List.mem_append.mp hc with hc | hc
      · exact (hall c hc).1
      · obtain rfl := List.mem_singleton.mp hc
        exact plain_of_toNat (by decide)
    · exact (hall c hc).1
  · rcases h.port with rfl | ⟨digits, rfl, hall⟩
    · cases hc
    · rcases List.mem_cons.mp hc with rfl | hc
      · exact plain_of_toNat (by decide)
      · have hdigit := isDigit_iff_toNat.mp (hall c hc)
        exact plain_of_toNat (by omega)

theorem CharShape.cutHost_eq (h : CharShape text scheme host port tail) :
    Authority.cutHost (host ++ port) = some (host, port) := by
  rcases h.host with ⟨literal, rfl, hall⟩ | ⟨hne, hall⟩
  · have hliteral : ∀ c ∈ literal, decide (c ≠ ']') = true := fun c hc =>
      decide_eq_true (hall c hc).2
    obtain ⟨htake, hdrop⟩ := Uri.takeWhile_append_of_stops (b := ']' :: port) hliteral
      (fun c hc => by rw [← Option.some.inj hc]; rfl)
    have hsplit : '[' :: (literal ++ [']']) ++ port = '[' :: (literal ++ ']' :: port) := by simp
    rw [hsplit, Authority.cutHost, htake, hdrop]
    rfl
  · obtain ⟨c, host, rfl⟩ := List.exists_cons_of_ne_nil hne
    have hname : ∀ c' ∈ c :: host, decide (c' ≠ ':') = true := fun c' hc =>
      decide_eq_true (hall c' hc).2.1
    have hstops : Uri.Stops (fun c => decide (c ≠ ':')) port := by
      intro c' hc'
      rcases h.port with rfl | ⟨digits, rfl, -⟩
      · cases hc'
      · rw [← Option.some.inj hc']
        rfl
    obtain ⟨htake, hdrop⟩ := Uri.takeWhile_append_of_stops hname hstops
    have hfirst : c ≠ '[' := (hall c List.mem_cons_self).2.2
    unfold Authority.cutHost
    split
    · rename_i heq
      exact absurd (List.cons.inj heq).1 hfirst
    · rw [htake, hdrop]

theorem CharShape.parse_eq (h : CharShape text scheme host port tail) :
    ∃ p, Uri.parse text = some { scheme, authority := { host, port := p }, tail } := by
  have hends : ∀ c ∈ host ++ port, (!Uri.endsAuthority c) = true := fun c hc => by
    rw [(h.plain c hc).2]
    rfl
  obtain ⟨htake, hdrop⟩ := Uri.takeWhile_append_of_stops hends (stops_tail h.tail)
  have hat : '@' ∉ host ++ port := fun hmem => (h.plain '@' hmem).1 rfl
  have hport : ∃ p, Authority.parsePort port = some p := by
    rcases h.port with rfl | ⟨digits, rfl, hall⟩
    · exact ⟨none, rfl⟩
    · exact ⟨some digits, if_pos (List.all_eq_true.mpr hall)⟩
  obtain ⟨p, hp⟩ := hport
  have hscheme : Uri.isScheme scheme = true ∧ ':' ∉ scheme := by
    rcases h.scheme with rfl | rfl <;> decide
  refine ⟨p, ?_⟩
  rw [h.text_eq, Uri.parse_append hscheme.1 hscheme.2, htake, hdrop, Authority.parse]
  simp only [if_neg hat]
  rw [h.cutHost_eq, Option.bind_some, hp]
  rfl

end Parse

/-! ### Plain http -/

section Loopback

variable {scheme host port tail rest : List Char} {uri : String}

/-- The URI goes on after a literal at its end, with a port or with a path. -/
theorem exists_of_isLoopbackHost {start : String} (h : RuleEngine.isLoopbackHost uri start = true) :
    ∃ rest, uri.toList = start.toList ++ rest ∧
      Uri.Stops (fun c => c ≠ ':' && c ≠ '/') rest := by
  unfold RuleEngine.isLoopbackHost at h
  obtain ⟨hstart, hnext⟩ := (Bool.and_eq_true _ _).mp h
  obtain ⟨rest, hrest⟩ := List.isPrefixOf_iff_prefix.mp hstart
  refine ⟨rest, hrest.symm, ?_⟩
  rw [← hrest, List.drop_append_of_le_length (Nat.le_of_eq String.length_toList.symm),
    List.drop_of_length_le (Nat.le_of_eq String.length_toList), List.nil_append] at hnext
  intro c hc
  cases rest with
  | nil => cases hc
  | cons d rest =>
    obtain rfl := Option.some.inj hc
    rcases (Bool.or_eq_true _ _).mp hnext with heq | heq
    · rw [of_decide_eq_true heq]
      rfl
    · rw [of_decide_eq_true heq]
      rfl

/-- A plain URI and one that starts with a loopback literal agree after the scheme. -/
theorem after_scheme {text : List Char} (after : List Char)
    (h : CharShape text scheme host port tail) (htext : text = "http://".toList ++ after) :
    scheme = "http".toList ∧ host ++ port ++ tail = after := by
  have heq := h.text_eq.symm.trans htext
  rcases h.scheme with rfl | rfl
  · exact ⟨rfl, (List.append_right_inj "http://".toList).mp heq⟩
  · have hfifth : some 's' = some ':' := congrArg (fun l => l[4]?) heq
    exact absurd hfifth (by decide)

variable {text : List Char}

theorem host_eq_ipv4 (h : CharShape text scheme host port tail)
    (heq : host ++ port ++ tail = "127.0.0.1".toList ++ rest)
    (hrest : Uri.Stops (fun c => c ≠ ':' && c ≠ '/') rest) : host = "127.0.0.1".toList := by
  rcases h.host with ⟨literal, rfl, -⟩ | ⟨-, hall⟩
  · have hfirst : some '[' = some '1' := congrArg List.head? heq
    exact absurd hfirst (by decide)
  · have hname : ∀ c ∈ host, (c ≠ ':' && c ≠ '/') = true := by
      intro c hc
      obtain ⟨⟨-, hends⟩, hcolon, -⟩ := hall c hc
      have hslash : c ≠ '/' := by
        rintro rfl
        cases hends
      rw [decide_eq_true hcolon, decide_eq_true hslash]
      rfl
    have hstops : Uri.Stops (fun c => c ≠ ':' && c ≠ '/') (port ++ tail) := by
      intro c hc
      rcases h.port with rfl | ⟨digits, rfl, -⟩
      · rcases h.tail with rfl | ⟨path, rfl⟩
        · cases hc
        · rw [← Option.some.inj hc]
          rfl
      · rw [← Option.some.inj hc]
        rfl
    rw [← (Uri.takeWhile_append_of_stops hname hstops).1, ← List.append_assoc, heq]
    exact (Uri.takeWhile_append_of_stops (List.all_eq_true.mp (by decide)) hrest).1

theorem host_eq_ipv6 (h : CharShape text scheme host port tail)
    (heq : host ++ port ++ tail = "[::1]".toList ++ rest) : host = "[::1]".toList := by
  rcases h.host with ⟨literal, rfl, hall⟩ | ⟨hne, hall⟩
  · have hliteral : ∀ c ∈ literal, decide (c ≠ ']') = true := fun c hc =>
      decide_eq_true (hall c hc).2
    have hinner : literal ++ ']' :: (port ++ tail) = "::1".toList ++ ']' :: rest := by
      have htail := congrArg List.tail heq
      rw [List.append_assoc, List.cons_append, List.append_assoc] at htail
      exact htail
    have hstops (l : List Char) : Uri.Stops (fun c => decide (c ≠ ']')) (']' :: l) := by
      intro c hc
      rw [← Option.some.inj hc]
      rfl
    have heq' : literal = "::1".toList := by
      rw [← (Uri.takeWhile_append_of_stops hliteral (hstops (port ++ tail))).1, hinner]
      exact (Uri.takeWhile_append_of_stops (List.all_eq_true.mp (by decide)) (hstops rest)).1
    rw [heq']
    rfl
  · obtain ⟨c, host, rfl⟩ := List.exists_cons_of_ne_nil hne
    have hfirst : some c = some '[' := congrArg List.head? heq
    exact absurd (Option.some.inj hfirst) (hall c List.mem_cons_self).2.2

end Loopback

/-- An accepted URI has a host, and it is https or is plain http, without user information, to one of
the two loopback literals. -/
theorem plain_http_is_loopback (uri : String)
    (h : RuleEngine.validateRedirectUri false uri = none) :
    ("https://".toList <+: uri.toList ∨
      ∃ u, Uri.parse uri.toList = some u ∧ u.scheme = "http".toList ∧
        u.authority.userinfo = none ∧
        (u.authority.host = "127.0.0.1".toList ∨ u.authority.host = "[::1]".toList)) ∧
    ∃ u, Uri.parse uri.toList = some u ∧ u.authority.host ≠ [] := by
  unfold RuleEngine.validateRedirectUri RuleEngine.validatePattern at h
  split at h
  · rename_i hempty
    rw [hempty] at h
    cases h
  split at h
  · cases h
  rename_i haccepts
  split at h
  · rename_i hextra
    exact absurd h hextra
  rename_i hscheme
  have hexists : ∃ scheme host port tail, CharShape uri.toList scheme host port tail :=
    exists_charShape (Bool.eq_true_of_not_eq_false haccepts)
  obtain ⟨scheme, host, port, tail, hshape⟩ := hexists
  obtain ⟨p, hparse⟩ := hshape.parse_eq
  refine ⟨?_, _, hparse, ?_⟩
  · rw [not_not] at hscheme
    unfold RuleEngine.validateRedirectUriScheme at hscheme
    split at hscheme
    · rename_i hhttps
      exact .inl (List.isPrefixOf_iff_prefix.mp hhttps)
    · split at hscheme
      · rename_i hloopback
        right
        rcases hloopback.2 with hipv4 | hipv6 | hallowed
        · obtain ⟨rest, hrest, hstops⟩ := exists_of_isLoopbackHost hipv4
          obtain ⟨rfl, heq⟩ := after_scheme ("127.0.0.1".toList ++ rest) hshape hrest
          exact ⟨_, hparse, rfl, rfl, .inl (host_eq_ipv4 hshape heq hstops)⟩
        · obtain ⟨rest, hrest, -⟩ := exists_of_isLoopbackHost hipv6
          obtain ⟨rfl, heq⟩ := after_scheme ("[::1]".toList ++ rest) hshape hrest
          exact ⟨_, hparse, rfl, rfl, .inr (host_eq_ipv6 hshape heq)⟩
        · cases hallowed
      · cases hscheme
  · rcases hshape.host with ⟨literal, rfl, -⟩ | ⟨hne, -⟩
    · exact List.cons_ne_nil _ _
    · exact hne

theorem plain_http_is_loopback_callback :
    ∃ u, Uri.parse "http://[::1]:8080/callback".toList = some u ∧ u.authority.host ≠ [] :=
  (plain_http_is_loopback "http://[::1]:8080/callback" (by decide +kernel)).2

end AuthForge.LoopbackRedirects
