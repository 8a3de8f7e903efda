import AuthForge.Admin.ClientRegistration
import AuthForge.Base.Uri

/-!
# Internal addresses as targets of back-channel logout

The check of a `backchannel_logout_uri` compares texts of its host. It knows every dotted quad, and
every text of a unique-local or link-local IPv6 address. Of the texts of loopback, the unspecified
address and the mapped IPv4 addresses it knows the shortest; the others pass.
-/

namespace AuthForge.LogoutTargets

open Admin.ClientRegistration

/-- The host is the literal of a loopback, unspecified, private, unique-local or link-local
address. -/
inductive InternalHost : List Char → Prop
  | ipv4 {host : List Char} {q : Ipv4} (h : Ipv4.parse host = some q) (hq : q.Internal) :
      InternalHost host
  | ipv6 {text : List Char} {gs : List Nat} (h : Ipv6.Text text gs) (hgs : Ipv6.Internal gs) :
      InternalHost ('[' :: (text ++ [']']))

/-- The URI is refused whatever its host is. -/
def Refused (allowHttp : Bool) (uri : String) (u : Uri) : Prop :=
  512 < byteLength uri ∨
    (RuleSet.startsWith uri "https://" = false ∧
      (RuleSet.startsWith uri "http://" = false ∨ allowHttp = false)) ∨
    '#' ∈ uri.toList ∨ u.authority.userinfo ≠ none

/-- The texts that the check knows, in any letter case. -/
def KnownText (text : List Char) : Prop :=
  (∃ gs, Ipv6.Text text gs ∧ (Ipv6.UniqueLocal gs ∨ Ipv6.LinkLocal gs)) ∨
    text.map Char.toLower = "::1".toList ∨ text.map Char.toLower = "::".toList ∨
    ∃ quad q, text.map Char.toLower = "::ffff:".toList ++ quad ∧ Ipv4.parse quad = some q

def Known (host : List Char) : Prop :=
  (∃ q, Ipv4.parse host = some q) ∨ ∃ text, host = '[' :: (text ++ [']']) ∧ KnownText text

/-! ### Dotted quads -/

variable {host text field : List Char} {q : Ipv4} {gs : List Nat} {g : Nat}

theorem isPrivateIpv4_of_internal (h : Ipv4.parse host = some q) (hq : q.Internal) :
    RuleSet.isPrivateIpv4 host = true := by
  obtain ⟨a, b, c, d, hsplit, ha, hb, hc, hd⟩ := Ipv4.parse_eq_some_iff.mp h
  obtain ⟨hane, halen, hadig, ha, hale⟩ := Ipv4.octet?_eq_some_iff.mp ha
  obtain ⟨hbne, hblen, hbdig, hb, hble⟩ := Ipv4.octet?_eq_some_iff.mp hb
  obtain ⟨hcne, hclen, hcdig, hc, hcle⟩ := Ipv4.octet?_eq_some_iff.mp hc
  obtain ⟨hdne, hdlen, hddig, hd, hdle⟩ := Ipv4.octet?_eq_some_iff.mp hd
  have hrange : q.a = 0 ∨ q.a = 10 ∨ q.a = 127 ∨ (q.a = 172 ∧ 16 ≤ q.b ∧ q.b ≤ 31) ∨
      (q.a = 192 ∧ q.b = 168) ∨ (q.a = 169 ∧ q.b = 254) := by
    rcases hq with h | rfl | h | h | h | h
    · exact .inr (.inr (.inl h))
    · exact .inl rfl
    · exact .inr (.inl h)
    · exact .inr (.inr (.inr (.inl h)))
    · exact .inr (.inr (.inr (.inr (.inl h))))
    · exact .inr (.inr (.inr (.inr (.inr h))))
  unfold RuleSet.isPrivateIpv4
  rw [hsplit]
  dsimp only
  rw [Bool.and_eq_true]
  constructor
  · simp only [List.all_cons, List.all_nil, hane, halen, hadig, ha, hale, hbne, hblen, hbdig, hb,
      hble, hcne, hclen, hcdig, hc, hcle, hdne, hdlen, hddig, hd, hdle, ne_eq, not_false_eq_true,
      decide_true, Bool.and_true]
  · rw [ha, hb]
    simpa only [Bool.or_eq_true, Bool.and_eq_true, decide_eq_true_eq, or_assoc, and_assoc]
      using hrange

theorem parse_of_isPrivateIpv4 (h : RuleSet.isPrivateIpv4 host = true) :
    ∃ q, Ipv4.parse host = some q := by
  unfold RuleSet.isPrivateIpv4 at h
  split at h
  · rename_i a b c d hsplit
    have hoctet : ∀ token ∈ [a, b, c, d], Ipv4.octet? token = some (digitsValue token) := by
      intro token htoken
      have hall := List.all_eq_true.mp (Bool.and_eq_true_iff.mp h).1 token htoken
      simp only [Bool.and_eq_true, decide_eq_true_eq, ne_eq] at hall
      obtain ⟨⟨⟨hne, hlen⟩, hdig⟩, hle⟩ := hall
      exact Ipv4.octet?_eq_some_iff.mpr ⟨hne, hlen, hdig, rfl, hle⟩
    refine ⟨⟨digitsValue a, digitsValue b, digitsValue c, digitsValue d⟩, ?_⟩
    exact Ipv4.parse_eq_some_iff.mpr ⟨a, b, c, d, hsplit, hoctet a (by simp), hoctet b (by simp),
      hoctet c (by simp), hoctet d (by simp)⟩
  · cases h

/-! ### The first digits of a group -/

def starts : List String := ["fc", "fd", "fe8", "fe9", "fea", "feb"]

def LocalStart (text : List Char) : Prop := ∃ start ∈ starts, start.toList <+: text

theorem LocalStart.append (h : LocalStart text) (rest : List Char) : LocalStart (text ++ rest) := by
  obtain ⟨start, hmem, hstart⟩ := h
  exact ⟨start, hmem, hstart.trans (List.prefix_append text rest)⟩

/-- Four digits, the first of them of a unique-local or link-local address. -/
theorem localStart_of_field (h : Ipv6.field? field = some g)
    (hg : (0xfc00 ≤ g ∧ g ≤ 0xfdff) ∨ (0xfe80 ≤ g ∧ g ≤ 0xfebf)) :
    LocalStart (field.map Char.toLower) := by
  obtain ⟨-, hlength, hvalue⟩ := Ipv6.field?_eq_some_iff.mp h
  have hfour : field.length = 4 := by
    obtain ⟨-, hlt⟩ := Ipv6.hexValue_bounds hvalue
    by_contra hne
    have hle : field.length ≤ 3 := by omega
    have hpow : 16 ^ field.length ≤ 16 ^ 3 := Nat.pow_le_pow_right (by decide) hle
    omega
  obtain ⟨a, b, c, d, rfl⟩ : ∃ a b c d, field = [a, b, c, d] := by
    match field, hfour with
    | [a, b, c, d], _ => exact ⟨a, b, c, d, rfl⟩
  obtain ⟨va, ha, hvalue⟩ := Ipv6.hexValue_cons hvalue
  obtain ⟨vb, hb, hvalue⟩ := Ipv6.hexValue_cons hvalue
  obtain ⟨vc, hc, hvalue⟩ := Ipv6.hexValue_cons hvalue
  obtain ⟨vd, hd, hvalue⟩ := Ipv6.hexValue_cons hvalue
  have hsum := Option.some.inj hvalue
  obtain ⟨halt, hal⟩ := Ipv6.toLower_of_hexDigit? ha
  obtain ⟨hblt, hbl⟩ := Ipv6.toLower_of_hexDigit? hb
  obtain ⟨hclt, hcl⟩ := Ipv6.toLower_of_hexDigit? hc
  obtain ⟨hdlt, -⟩ := Ipv6.toLower_of_hexDigit? hd
  obtain rfl : va = 15 := by omega
  have hcases : vb = 12 ∨ vb = 13 ∨ (vb = 14 ∧ (vc = 8 ∨ vc = 9 ∨ vc = 10 ∨ vc = 11)) := by omega
  rw [List.map_cons, List.map_cons, List.map_cons, hal, hbl, hcl]
  rcases hcases with rfl | rfl | ⟨rfl, rfl | rfl | rfl | rfl⟩
  · exact ⟨"fc", by decide, ⟨_, rfl⟩⟩
  · exact ⟨"fd", by decide, ⟨_, rfl⟩⟩
  · exact ⟨"fe8", by decide, ⟨_, rfl⟩⟩
  · exact ⟨"fe9", by decide, ⟨_, rfl⟩⟩
  · exact ⟨"fea", by decide, ⟨_, rfl⟩⟩
  · exact ⟨"feb", by decide, ⟨_, rfl⟩⟩

/-- A group that starts so is none of those of loopback, the unspecified address or a mapped one. -/
theorem field_of_localStart (h : Ipv6.field? field = some g) (hstart : LocalStart field) :
    1 < g ∧ g < 0xffff := by
  obtain ⟨-, hlength, hvalue⟩ := Ipv6.field?_eq_some_iff.mp h
  obtain ⟨start, hmem, more, rfl⟩ := hstart
  rw [Ipv6.hexValue_append] at hvalue
  obtain ⟨n, hn, hvalue⟩ := Option.bind_eq_some_iff.mp hvalue
  obtain ⟨hlow, hhigh⟩ := Ipv6.hexValue_bounds hvalue
  have hstarts : ∀ start ∈ starts, 2 ≤ start.toList.length ∧
      ∀ n ∈ Ipv6.hexValue 0 start.toList,
        1 < n ∧ (n + 1) * 16 ^ (4 - start.toList.length) ≤ 0xffff := by decide
  obtain ⟨-, hn⟩ := hstarts start hmem
  obtain ⟨hn, hle⟩ := hn n ‹_›
  rw [List.length_append] at hlength
  have hpow : 16 ^ more.length ≤ 16 ^ (4 - start.toList.length) :=
    Nat.pow_le_pow_right (by decide) (by omega)
  constructor
  · calc 1 < n * 1 := by omega
      _ ≤ n * 16 ^ more.length := Nat.mul_le_mul_left n (Nat.one_le_pow _ _ (by decide))
      _ ≤ g := hlow
  · calc g < (n + 1) * 16 ^ more.length := hhigh
      _ ≤ (n + 1) * 16 ^ (4 - start.toList.length) := Nat.mul_le_mul_left _ hpow
      _ ≤ 0xffff := hle

theorem localStart_field {rest : List Char} (h : Ipv6.field? field = some g)
    (hrest : rest = [] ∨ ∃ text, rest = ':' :: text) (hstart : LocalStart (field ++ rest)) :
    LocalStart field := by
  obtain ⟨start, hmem, more, hmore⟩ := hstart
  have hcolon : ∀ start ∈ starts, start.toList.all (· ≠ ':') = true := by decide
  obtain ⟨htake, -⟩ := Ipv6.cut_field? h hrest
  rw [← hmore, List.takeWhile_append_of_pos (List.all_eq_true.mp (hcolon start hmem))] at htake
  exact ⟨start, hmem, _, htake⟩

theorem LocalStart.cons {c : Char} {rest : List Char} (h : LocalStart (c :: rest)) : c = 'f' := by
  obtain ⟨start, hmem, more, hmore⟩ := h
  have hstarts : ∀ start ∈ starts, ∃ tail, start.toList = 'f' :: tail := by
    intro start hmem
    have hhead : ∀ start ∈ starts, start.toList.head? = some 'f' := by decide
    exact List.head?_eq_some_iff.mp (hhead start hmem)
  obtain ⟨tail, htail⟩ := hstarts start hmem
  rw [htail] at hmore
  exact (List.cons.inj hmore).1.symm

theorem not_localStart_nil : ¬LocalStart [] := by
  rintro ⟨start, hmem, hprefix⟩
  have hne : ∀ start ∈ starts, start.toList ≠ [] := by decide
  exact hne start hmem (List.prefix_nil.mp hprefix)

/-! ### Groups of internal addresses -/

theorem local_of_find? (hgs : Ipv6.Internal gs) (hfind : gs.find? (· ≠ 0) = some g) (hone : 1 < g)
    (hffff : g < 0xffff) : Ipv6.UniqueLocal gs ∨ Ipv6.LinkLocal gs := by
  rcases hgs with rfl | rfl | hunique | hlink | ⟨hi, lo, rfl, -⟩
  · obtain rfl : 1 = g := Option.some.inj hfind
    omega
  · cases hfind
  · exact .inl hunique
  · exact .inr hlink
  · obtain rfl : 0xffff = g := Option.some.inj hfind
    omega

theorem internal_of_mapped {hi lo : Nat} (h : Ipv6.Internal [0, 0, 0, 0, 0, 0xffff, hi, lo]) :
    (Ipv4.ofGroups hi lo).Internal := by
  rcases h with h | h | ⟨g, hg, hle, -⟩ | ⟨g, hg, hle, -⟩ | ⟨hi', lo', heq, hq⟩
  · cases h
  · cases h
  · obtain rfl : 0 = g := Option.some.inj hg
    omega
  · obtain rfl : 0 = g := Option.some.inj hg
    omega
  · cases heq
    exact hq

/-! ### Texts of IPv6 addresses -/

theorem isPrivateIpv6_of_mapped {quad : List Char} (htext : text = "::ffff:".toList ++ quad) :
    RuleSet.isPrivateIpv6 text = RuleSet.isPrivateIpv4 quad := by
  subst htext
  have hneither : ¬("::ffff:".toList ++ quad = "::1".toList ∨
      "::ffff:".toList ++ quad = "::".toList) := by
    rintro (h | h)
    · have hdrop : 'f' :: _ = ['1'] := congrArg (List.drop 2) h
      cases hdrop
    · have hdrop : 'f' :: _ = [] := congrArg (List.drop 2) h
      cases hdrop
  have hprefix : "::ffff:".toList.isPrefixOf ("::ffff:".toList ++ quad) = true :=
    List.isPrefixOf_iff_prefix.mpr (List.prefix_append _ _)
  unfold RuleSet.isPrivateIpv6
  dsimp only
  rw [if_neg hneither, if_pos hprefix]
  rfl

theorem isPrivateIpv6_of_not_mapped (h : ¬"::ffff:".toList <+: text) :
    RuleSet.isPrivateIpv6 text = true ↔ text = "::1".toList ∨ text = "::".toList ∨
      LocalStart (if "::".toList.isPrefixOf text then text.drop 2 else text) := by
  unfold RuleSet.isPrivateIpv6
  dsimp only
  split
  · rename_i heq
    exact iff_of_true rfl (heq.imp_right .inl)
  · rename_i hne
    rw [not_or] at hne
    rw [if_neg (mt List.isPrefixOf_iff_prefix.mp h), List.any_eq_true]
    simp only [List.isPrefixOf_iff_prefix, hne.1, hne.2, false_or]
    rfl

/-- A text that starts with a group. -/
theorem isPrivateIpv6_of_field {rest : List Char} (h : Ipv6.field? field = some g)
    (htext : text = field ++ ':' :: rest) :
    RuleSet.isPrivateIpv6 text = true ↔ LocalStart field := by
  have hcolon : ∀ rest, text ≠ ':' :: rest := by
    intro rest
    rw [htext]
    exact Ipv6.ne_colon_of_field? h
  have hmapped : ¬"::ffff:".toList <+: text := fun ⟨more, hmore⟩ => hcolon _ hmore.symm
  have hleading : ¬"::".toList.isPrefixOf text = true := by
    intro hprefix
    obtain ⟨more, hmore⟩ := List.isPrefixOf_iff_prefix.mp hprefix
    exact hcolon _ hmore.symm
  rw [isPrivateIpv6_of_not_mapped hmapped, if_neg hleading]
  constructor
  · rintro (heq | heq | hstart)
    · exact absurd heq (hcolon _)
    · exact absurd heq (hcolon _)
    · exact localStart_field h (.inr ⟨rest, rfl⟩) (htext ▸ hstart)
  · exact fun hstart => .inr (.inr (htext ▸ hstart.append (':' :: rest)))

/-- The address starts with the groups after two colons, and zeros before them. -/
theorem find?_of_localStart {gr : List Nat} (h : Ipv6.Side true text gr) (hstart : LocalStart text) :
    ∃ g, 1 < g ∧ g < 0xffff ∧
      (List.replicate (8 - gr.length) 0 ++ gr).find? (· ≠ 0) = some g := by
  cases h with
  | empty => exact absurd hstart not_localStart_nil
  | groups hgroups =>
    rcases hgroups.first with ⟨-, q, hq, -⟩ | ⟨field, rest, g, gs', rfl, hg, rfl, hrest⟩
    · obtain ⟨c, rest, rfl, -⟩ := Ipv4.text_of_parse hq
      obtain rfl := hstart.cons
      cases Ipv4.isDigit_of_parse hq
    · obtain ⟨hone, hffff⟩ := field_of_localStart hg (localStart_field hg
        (hrest.imp And.left fun ⟨text, htext, _⟩ => ⟨text, htext⟩) hstart)
      refine ⟨g, hone, hffff, ?_⟩
      have hne : g ≠ 0 := by omega
      rw [List.find?_append, List.find?_replicate]
      simp [hne]

theorem known_of_isPrivateIpv6 (h : Ipv6.Text text gs) (hgs : Ipv6.Internal gs)
    (hprivate : RuleSet.isPrivateIpv6 (text.map Char.toLower) = true) : KnownText text := by
  by_cases hmapped : "::ffff:".toList <+: text.map Char.toLower
  · obtain ⟨quad, hquad⟩ := hmapped
    rw [isPrivateIpv6_of_mapped hquad.symm] at hprivate
    obtain ⟨q, hq⟩ := parse_of_isPrivateIpv4 hprivate
    exact .inr (.inr (.inr ⟨quad, q, hquad.symm, hq⟩))
  · rcases h.map_toLower.start with
      ⟨right, gr, heq, hright, rfl, -⟩ | ⟨field, rest, g, gs', heq, hg, rfl⟩
    · rcases (isPrivateIpv6_of_not_mapped hmapped).mp hprivate with hone | hzero | hstart
      · exact .inr (.inl hone)
      · exact .inr (.inr (.inl hzero))
      · rw [heq] at hstart
        obtain ⟨g, hone, hffff, hfind⟩ := find?_of_localStart hright hstart
        exact .inl ⟨_, h, local_of_find? hgs hfind hone hffff⟩
    · obtain ⟨hone, hffff⟩ :=
        field_of_localStart hg ((isPrivateIpv6_of_field hg heq).mp hprivate)
      have hne : decide (g ≠ 0) = true := decide_eq_true (by omega)
      exact .inl ⟨_, h, local_of_find? hgs (List.find?_cons_of_pos hne) hone hffff⟩

theorem isPrivateIpv6_of_local (h : Ipv6.Text text gs)
    (hlocal : Ipv6.UniqueLocal gs ∨ Ipv6.LinkLocal gs) :
    RuleSet.isPrivateIpv6 (text.map Char.toLower) = true := by
  have hhead : ∃ g, gs.head? = some g ∧ ((0xfc00 ≤ g ∧ g ≤ 0xfdff) ∨ (0xfe80 ≤ g ∧ g ≤ 0xfebf)) := by
    rcases hlocal with ⟨g, hg, hrange⟩ | ⟨g, hg, hrange⟩
    · exact ⟨g, hg, .inl hrange⟩
    · exact ⟨g, hg, .inr hrange⟩
  obtain ⟨g, hhead, hrange⟩ := hhead
  rcases h.start with ⟨right, gr, -, -, rfl, hlength⟩ | ⟨field, rest, g', gs', rfl, hg, rfl⟩
  · obtain ⟨n, hn⟩ : ∃ n, 8 - gr.length = n + 1 := ⟨7 - gr.length, by omega⟩
    rw [hn, List.replicate_succ] at hhead
    obtain rfl : 0 = g := Option.some.inj hhead
    omega
  · obtain rfl : g' = g := Option.some.inj hhead
    rw [List.map_append, List.map_cons]
    exact (isPrivateIpv6_of_field (Ipv6.field?_map_toLower hg) rfl).mpr
      (localStart_of_field hg hrange)

theorem isPrivateIpv6_of_known (h : Ipv6.Text text gs) (hgs : Ipv6.Internal gs)
    (hknown : KnownText text) : RuleSet.isPrivateIpv6 (text.map Char.toLower) = true := by
  rcases hknown with ⟨gs', h', hlocal⟩ | hone | hzero | ⟨quad, q, hquad, hq⟩
  · exact isPrivateIpv6_of_local h' hlocal
  · rw [hone]
    decide
  · rw [hzero]
    decide
  · have hlower := h.map_toLower
    rw [hquad] at hlower
    have hmapped := hlower.mapped hq
    subst hmapped
    have hq' := internal_of_mapped hgs
    rw [Ipv4.ofGroups_of_parse hq] at hq'
    rw [isPrivateIpv6_of_mapped hquad]
    exact isPrivateIpv4_of_internal hq hq'

/-! ### The host of a URI -/

theorem colon_mem_text (h : Ipv6.Text text gs) : ':' ∈ text := by
  rcases h.start with ⟨right, gr, rfl, -⟩ | ⟨field, rest, g, gs', rfl, -⟩
  · exact List.mem_cons_self
  · exact List.mem_append_right field List.mem_cons_self

theorem isPrivateOrLoopbackHost_of_colon (h : ':' ∈ text.map Char.toLower) :
    RuleSet.isPrivateOrLoopbackHost text = RuleSet.isPrivateIpv6 (text.map Char.toLower) := by
  have hname : ¬(text.map Char.toLower = "localhost".toList ∨
      text.map Char.toLower = "localhost.".toList) := by
    rintro (heq | heq)
    · exact absurd (heq ▸ h) (by decide)
    · exact absurd (heq ▸ h) (by decide)
  unfold RuleSet.isPrivateOrLoopbackHost
  dsimp only
  rw [if_neg hname, if_pos h]

theorem isPrivateOrLoopbackHost_of_quad (h : Ipv4.parse host = some q) (hq : q.Internal) :
    RuleSet.isPrivateOrLoopbackHost host = true := by
  unfold RuleSet.isPrivateOrLoopbackHost
  dsimp only
  rw [Ipv4.map_toLower_of_parse h, if_neg (Ipv4.colon_notMem_of_parse h)]
  split
  · rfl
  · exact isPrivateIpv4_of_internal h hq

/-- The host that the check takes from an authority is that of the URI, without the brackets. -/
theorem hostOf_of_cutHost {authority rest : List Char}
    (h : Authority.cutHost authority = some (host, rest)) :
    (∃ text, host = '[' :: (text ++ [']']) ∧ RuleSet.hostOf authority = some text) ∨
      ((∀ text, host ≠ '[' :: text) ∧ RuleSet.hostOf authority = some host) := by
  unfold Authority.cutHost at h
  split at h
  · rename_i literal
    split at h
    · cases h
    · rename_i close more hdrop
      have hclose : close = ']' := by
        have hnot := List.head?_dropWhile_not (fun c => decide (c ≠ ']')) literal
        rw [hdrop, List.head?_cons] at hnot
        simpa using hnot
      have hmem : ']' ∈ literal := by
        rw [← hclose]
        exact (List.dropWhile_suffix _).mem (hdrop ▸ List.mem_cons_self)
      obtain ⟨rfl, -⟩ := Prod.mk.inj (Option.some.inj h)
      rw [hclose]
      exact .inl ⟨_, rfl, if_pos hmem⟩
  · rename_i hbracket
    obtain ⟨rfl, -⟩ := Prod.mk.inj (Option.some.inj h)
    refine .inr ⟨?_, ?_⟩
    · intro text heq
      obtain ⟨more, hmore⟩ := List.takeWhile_prefix (l := authority) fun c => decide (c ≠ ':')
      rw [heq] at hmore
      exact hbracket _ hmore.symm
    · unfold RuleSet.hostOf
      split
      · exact absurd rfl (hbracket _)
      · rfl

/-- The check finds the literal of an internal address in exactly the texts it knows. -/
theorem host_of_internal {authority rest : List Char}
    (h : Authority.cutHost authority = some (host, rest)) (hhost : InternalHost host) :
    ∃ text, RuleSet.hostOf authority = some text ∧ text ≠ [] ∧
      (RuleSet.isPrivateOrLoopbackHost text = true ↔ Known host) := by
  cases hhost with
  | @ipv4 _ q hq hinternal =>
    rcases hostOf_of_cutHost h with ⟨text, rfl, -⟩ | ⟨-, hhostOf⟩
    · cases Ipv4.isDigit_of_parse hq
    · obtain ⟨c, digits, rfl, -⟩ := Ipv4.text_of_parse hq
      exact ⟨_, hhostOf, List.cons_ne_nil _ _,
        iff_of_true (isPrivateOrLoopbackHost_of_quad hq hinternal) (.inl ⟨q, hq⟩)⟩
  | @ipv6 text gs htext hgs =>
    rcases hostOf_of_cutHost h with ⟨text', heq, hhostOf⟩ | ⟨hne, -⟩
    · obtain rfl := List.append_cancel_right (List.cons.inj heq).2
      have hcolon := colon_mem_text htext
      refine ⟨text, hhostOf, List.ne_nil_of_mem hcolon, ?_⟩
      rw [isPrivateOrLoopbackHost_of_colon (List.mem_map.mpr ⟨':', hcolon, rfl⟩)]
      constructor
      · exact fun hprivate => .inr ⟨text, rfl, known_of_isPrivateIpv6 htext hgs hprivate⟩
      · rintro (⟨q, hq⟩ | ⟨text', heq, hknown⟩)
        · cases Ipv4.isDigit_of_parse hq
        · obtain rfl := List.append_cancel_right (List.cons.inj heq).2
          exact isPrivateIpv6_of_known htext hgs hknown
    · exact absurd rfl (hne _)

theorem takeWhile_endsAuthority {rest : List Char} (h : '#' ∉ rest) :
    (rest.takeWhile fun c => c ≠ '/' && c ≠ '?') =
      rest.takeWhile fun c => !Uri.endsAuthority c := by
  induction rest with
  | nil => rfl
  | cons c rest ih =>
    rw [List.mem_cons, not_or] at h
    have hsame : (c ≠ '/' && c ≠ '?' : Bool) = !Uri.endsAuthority c := by
      simp [Uri.endsAuthority, Ne.symm h.1]
    rw [List.takeWhile_cons, List.takeWhile_cons, hsame, ih h.2]

/-- The authority that the check cuts out is that of the URI. -/
theorem authority_of_parse {uri : String} {u : Uri} {scheme rest : List Char}
    (hu : Uri.parse uri.toList = some u) (huri : uri.toList = scheme ++ ':' :: '/' :: '/' :: rest)
    (hscheme : Uri.isScheme scheme = true) (hcolon : ':' ∉ scheme) (hhash : '#' ∉ uri.toList) :
    Authority.parse (rest.takeWhile fun c => c ≠ '/' && c ≠ '?') = some u.authority := by
  have hrest : '#' ∉ rest := by
    intro hmem
    apply hhash
    rw [huri]
    simp [hmem]
  rw [huri, Uri.parse_append hscheme hcolon, ← takeWhile_endsAuthority hrest] at hu
  obtain ⟨authority, hauthority, rfl⟩ := Option.map_eq_some_iff.mp hu
  exact hauthority

theorem scheme_of_startsWith {uri : String}
    (h : ¬(RuleSet.startsWith uri "https://" = false ∧ RuleSet.startsWith uri "http://" = false)) :
    ∃ scheme, uri.toList = scheme ++ ':' :: '/' :: '/' ::
        uri.toList.drop (if RuleSet.startsWith uri "https://" then 8 else 7) ∧
      Uri.isScheme scheme = true ∧ ':' ∉ scheme := by
  cases hhttps : RuleSet.startsWith uri "https://" with
  | true =>
    obtain ⟨rest, hrest⟩ := List.isPrefixOf_iff_prefix.mp hhttps
    refine ⟨"https".toList, ?_, by decide, by decide⟩
    rw [← hrest]
    rfl
  | false =>
    have hhttp : RuleSet.startsWith uri "http://" = true := by
      cases hhttp : RuleSet.startsWith uri "http://" with
      | true => rfl
      | false => exact absurd ⟨hhttps, hhttp⟩ h
    obtain ⟨rest, hrest⟩ := List.isPrefixOf_iff_prefix.mp hhttp
    refine ⟨"http".toList, ?_, by decide, by decide⟩
    rw [← hrest]
    rfl

theorem cutHost_of_parse {text : List Char} {a : Authority} (h : Authority.parse text = some a) :
    (a.userinfo ≠ none ↔ '@' ∈ text) ∧
      ('@' ∉ text → ∃ rest, Authority.cutHost text = some (a.host, rest)) := by
  obtain ⟨⟨host, rest⟩, hcut, hport⟩ := Option.bind_eq_some_iff.mp h
  obtain ⟨port, -, rfl⟩ := Option.map_eq_some_iff.mp hport
  by_cases hat : '@' ∈ text
  · refine ⟨iff_of_true ?_ hat, fun hnot => absurd hat hnot⟩
    dsimp only
    rw [if_pos hat]
    exact Option.some_ne_none _
  · rw [if_neg hat] at hcut
    refine ⟨iff_of_false ?_ hat, fun _ => ⟨rest, hcut⟩⟩
    dsimp only
    rw [if_neg hat]
    exact not_not_intro rfl

/-- A URI whose host is an internal address is refused exactly where something else is wrong with
it or the check knows the text of the host. -/
theorem internal_refused_iff (allowHttp : Bool) (uri : String) (u : Uri)
    (hu : Uri.parse uri.toList = some u) (hhost : InternalHost u.authority.host) :
    RuleSet.validateBackchannelLogoutUri allowHttp false uri ≠ none ↔
      Refused allowHttp uri u ∨ Known u.authority.host := by
  have hempty : uri ≠ "" := by
    rintro rfl
    cases hu
  unfold RuleSet.validateBackchannelLogoutUri
  dsimp only
  rw [if_neg hempty]
  by_cases hlength : byteLength uri > 512
  · rw [if_pos hlength]
    exact iff_of_true (Option.some_ne_none _) (.inl (.inl hlength))
  rw [if_neg hlength]
  by_cases hscheme : RuleSet.startsWith uri "https://" = false ∧
      (RuleSet.startsWith uri "http://" = false ∨ allowHttp = false)
  · rw [if_pos hscheme]
    exact iff_of_true (Option.some_ne_none _) (.inl (.inr (.inl hscheme)))
  rw [if_neg hscheme]
  by_cases hhash : '#' ∈ uri.toList
  · rw [if_pos hhash]
    exact iff_of_true (Option.some_ne_none _) (.inl (.inr (.inr (.inl hhash))))
  rw [if_neg hhash]
  obtain ⟨scheme, huri, hisScheme, hcolon⟩ :=
    scheme_of_startsWith (fun h => hscheme ⟨h.1, .inl h.2⟩)
  have hauthority := authority_of_parse hu huri hisScheme hcolon hhash
  generalize (uri.toList.drop (if RuleSet.startsWith uri "https://" = true then 8 else 7)).takeWhile
    (fun c => c ≠ '/' && c ≠ '?') = authority at hauthority ⊢
  obtain ⟨huserinfo, hcut⟩ := cutHost_of_parse hauthority
  by_cases hat : '@' ∈ authority
  · rw [if_pos hat]
    exact iff_of_true (Option.some_ne_none _) (.inl (.inr (.inr (.inr (huserinfo.mpr hat)))))
  rw [if_neg hat]
  have hrefused : ¬Refused allowHttp uri u := by
    rintro (h | h | h | h)
    · exact hlength h
    · exact hscheme h
    · exact hhash h
    · exact hat (huserinfo.mp h)
  rw [or_iff_right hrefused]
  obtain ⟨rest, hcut⟩ := hcut hat
  obtain ⟨text, hhostOf, hne, hknown⟩ := host_of_internal hcut hhost
  rw [hhostOf, ← hknown]
  dsimp only
  rw [if_neg hne]
  split
  · rename_i hprivate
    exact iff_of_true (Option.some_ne_none _) hprivate.1
  · rename_i hpublic
    exact iff_of_false (not_not_intro rfl) fun hprivate => hpublic ⟨hprivate, rfl⟩

/-- A mapped IPv4 address is known where it is written as a dotted quad. -/
theorem internal_refused_iff_mapped :
    RuleSet.validateBackchannelLogoutUri false false "https://[::FFFF:10.0.0.1]/bc" ≠ none ↔
      Refused false "https://[::FFFF:10.0.0.1]/bc"
          ⟨"https".toList, ⟨none, "[::FFFF:10.0.0.1]".toList, none⟩, "/bc".toList⟩ ∨
        Known "[::FFFF:10.0.0.1]".toList :=
  internal_refused_iff false "https://[::FFFF:10.0.0.1]/bc"
    ⟨"https".toList, ⟨none, "[::FFFF:10.0.0.1]".toList, none⟩, "/bc".toList⟩ (by decide)
    (.ipv6 (.compressed .empty
        (.groups (.cons (by decide : Ipv6.field? "FFFF".toList = some 0xffff)
          (.ipv4 rfl (by decide : Ipv4.parse "10.0.0.1".toList = some ⟨10, 0, 0, 1⟩))))
        (by decide))
      (.inr (.inr (.inr (.inr ⟨_, _, rfl, .inr (.inr (.inl rfl))⟩)))))

/-- The metadata address 169.254.169.254, written in hexadecimal groups. -/
theorem mapped_groups_accepted :
    ¬∀ (allowHttp : Bool) (uri : String) (u : Uri), Uri.parse uri.toList = some u →
      InternalHost u.authority.host →
        RuleSet.validateBackchannelLogoutUri allowHttp false uri ≠ none := by
  intro h
  have hhost : InternalHost "[::ffff:a9fe:a9fe]".toList :=
    .ipv6 (.compressed .empty
        (.groups (.cons (by decide : Ipv6.field? "ffff".toList = some 0xffff)
          (.cons (by decide : Ipv6.field? "a9fe".toList = some 0xa9fe)
            (.field (by decide : Ipv6.field? "a9fe".toList = some 0xa9fe)))))
        (by decide))
      (.inr (.inr (.inr (.inr ⟨_, _, rfl, .inr (.inr (.inr (.inr (.inr (by decide)))))⟩))))
  exact h false "https://[::ffff:a9fe:a9fe]/latest"
    ⟨"https".toList, ⟨none, "[::ffff:a9fe:a9fe]".toList, none⟩, "/latest".toList⟩ (by decide) hhost
    (by decide)

end AuthForge.LogoutTargets
