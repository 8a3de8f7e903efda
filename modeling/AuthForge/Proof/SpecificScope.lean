import AuthForge.Proof.ScopeGate

/-!
# The most specific requirement

A lookup returns the requirement of the first template that matches, in the order of the
declarations, whether its segments are literal or parameters. Among the prefixes the longest wins, but
the search starts from length zero, which one without segments does not exceed.
-/

namespace AuthForge.SpecificScope

open Authz ScopeGate

def templateFound (path : String) (method : HttpMethod) (e : StoredEntry) : Bool :=
  e.method = method && templateMatches e.templateSegs (splitPath path)

/-- The template has no parameters and spells the path. -/
def Literal (path : String) (e : StoredEntry) : Prop :=
  e.templateSegs = splitPath path ∧ ∀ seg ∈ e.templateSegs, isParam seg = false

def PrefixFound (path : String) (pe : PrefixEntry) : Prop := pe.segs <+: splitPath path

def withEndpoints (d : Deployment) (endpoints : List EndpointInfo) : Deployment :=
  { d with endpoints }

structure MostSpecific (d : Deployment) (path : String) (method : HttpMethod) : Prop where
  order_free : ∀ endpoints, endpoints.Perm d.endpoints →
    (withEndpoints d endpoints).registry.lookup path method = d.registry.lookup path method
  literal_first : ∀ e ∈ d.registry.entries, templateFound path method e = true → Literal path e →
    ∃ e' ∈ d.registry.entries, templateFound path method e' = true ∧ Literal path e' ∧
      d.registry.lookup path method = some e'.requirement
  longest_prefix : (∀ e ∈ d.registry.entries, templateFound path method e = false) →
    ∀ pe ∈ d.registry.prefixEntries, PrefixFound path pe →
      ∃ pe' ∈ d.registry.prefixEntries, PrefixFound path pe' ∧
        (∀ pe'' ∈ d.registry.prefixEntries, PrefixFound path pe'' →
          pe''.segs.length ≤ pe'.segs.length) ∧
        d.registry.lookup path method = some pe'.requirement

/-- All templates that match the path require the same. -/
def OneRequirement (d : Deployment) (path : String) (method : HttpMethod) : Prop :=
  ∀ e ∈ d.registry.entries, templateFound path method e = true →
    ∀ e' ∈ d.registry.entries, templateFound path method e' = true →
      e.requirement = e'.requirement

/-- A path that no template matches is not left to prefixes without segments alone. -/
def PrefixWithSegments (d : Deployment) (path : String) (method : HttpMethod) : Prop :=
  (∀ e ∈ d.registry.entries, templateFound path method e = false) →
    ∀ pe ∈ d.registry.prefixEntries, PrefixFound path pe →
      ∃ pe' ∈ d.registry.prefixEntries, PrefixFound path pe' ∧ pe'.segs ≠ []

/-! ### The first template that matches -/

variable {d : Deployment} {path : String} {method : HttpMethod}

theorem entries_withEndpoints (d : Deployment) (endpoints : List EndpointInfo) :
    (withEndpoints d endpoints).registry.entries = endpoints.filterMap storedEntry :=
  registerAll_entries

theorem prefixEntries_withEndpoints (d : Deployment) (endpoints : List EndpointInfo) :
    (withEndpoints d endpoints).registry.prefixEntries = d.registry.prefixEntries := by
  unfold Deployment.registry
  rw [registerAll_prefixEntries, registerAll_prefixEntries]
  rfl

theorem lookup_of_found {reg : Registry} {e : StoredEntry}
    (h : reg.entries.find? (templateFound path method) = some e) :
    reg.lookup path method = some e.requirement := by
  have hfind : reg.findTemplate (splitPath path) method = some e := h
  unfold Registry.lookup
  rw [hfind]

theorem lookup_of_none {reg : Registry}
    (h : reg.entries.find? (templateFound path method) = none) :
    reg.lookup path method =
      (Registry.longestPrefix (splitPath path) reg.prefixEntries (none, 0)).1.map
        PrefixEntry.requirement := by
  have hfind : reg.findTemplate (splitPath path) method = none := h
  unfold Registry.lookup
  rw [hfind]

/-- Where all matches agree, the first one is as good as any other. -/
theorem lookup_of_agree {reg : Registry} {e : StoredEntry} (he : e ∈ reg.entries)
    (hfound : templateFound path method e = true)
    (hagree : ∀ e' ∈ reg.entries, templateFound path method e' = true →
      e'.requirement = e.requirement) :
    reg.lookup path method = some e.requirement := by
  cases hfirst : reg.entries.find? (templateFound path method) with
  | none => exact absurd hfound (List.find?_eq_none.mp hfirst e he)
  | some e' =>
    rw [lookup_of_found hfirst,
      hagree e' (List.mem_of_find?_eq_some hfirst) (List.find?_some hfirst)]

/-- A declaration that is put first decides. -/
theorem exists_first {e : StoredEntry} (he : e ∈ d.registry.entries)
    (hfound : templateFound path method e = true) :
    ∃ endpoints, endpoints.Perm d.endpoints ∧
      (withEndpoints d endpoints).registry.lookup path method = some e.requirement := by
  have hentries : d.registry.entries = d.endpoints.filterMap storedEntry := registerAll_entries
  rw [hentries] at he
  obtain ⟨ep, hep, hstored⟩ := List.mem_filterMap.mp he
  obtain ⟨before, after, hsplit⟩ := List.append_of_mem hep
  refine ⟨ep :: (before ++ after), ?_, ?_⟩
  · rw [hsplit]
    exact List.perm_middle.symm
  · apply lookup_of_found
    rw [entries_withEndpoints, List.filterMap_cons_some hstored]
    exact List.find?_cons_of_pos hfound

theorem mem_entries_perm {endpoints : List EndpointInfo} (hperm : endpoints.Perm d.endpoints)
    (e : StoredEntry) :
    e ∈ (withEndpoints d endpoints).registry.entries ↔ e ∈ d.registry.entries := by
  have hentries : d.registry.entries = d.endpoints.filterMap storedEntry := registerAll_entries
  rw [entries_withEndpoints, hentries]
  exact (hperm.filterMap storedEntry).mem_iff

theorem oneRequirement_of_order_free
    (h : ∀ endpoints, endpoints.Perm d.endpoints →
      (withEndpoints d endpoints).registry.lookup path method = d.registry.lookup path method) :
    OneRequirement d path method := by
  have hfirst : ∀ e ∈ d.registry.entries, templateFound path method e = true →
      d.registry.lookup path method = some e.requirement := by
    intro e he hfound
    obtain ⟨endpoints, hperm, hlookup⟩ := exists_first he hfound
    rw [← h endpoints hperm, hlookup]
  intro e he hfound e' he' hfound'
  exact Option.some.inj ((hfirst e he hfound).symm.trans (hfirst e' he' hfound'))

theorem order_free_of_oneRequirement (h : OneRequirement d path method)
    {endpoints : List EndpointInfo} (hperm : endpoints.Perm d.endpoints) :
    (withEndpoints d endpoints).registry.lookup path method = d.registry.lookup path method := by
  have hmem := mem_entries_perm hperm
  cases hfirst : d.registry.entries.find? (templateFound path method) with
  | some e =>
    have he := List.mem_of_find?_eq_some hfirst
    have hfound := List.find?_some hfirst
    rw [lookup_of_found hfirst]
    refine lookup_of_agree ((hmem e).mpr he) hfound ?_
    exact fun e' he' hfound' => h e' ((hmem e').mp he') hfound' e he hfound
  | none =>
    have hnone : (withEndpoints d endpoints).registry.entries.find?
        (templateFound path method) = none :=
      List.find?_eq_none.mpr fun e he => List.find?_eq_none.mp hfirst e ((hmem e).mp he)
    rw [lookup_of_none hfirst, lookup_of_none hnone, prefixEntries_withEndpoints]

/-! ### The longest prefix -/

/-- What the search keeps: the longest of the prefixes seen that has segments. -/
structure Longest (segs : List Segment) (seen : List PrefixEntry)
    (best : Option PrefixEntry × Nat) : Prop where
  none_length : best.1 = none → best.2 = 0
  some_spec : ∀ pe, best.1 = some pe →
    pe ∈ seen ∧ pe.segs <+: segs ∧ pe.segs.length = best.2 ∧ pe.segs ≠ []
  max : ∀ pe ∈ seen, pe.segs <+: segs → pe.segs.length ≤ best.2

theorem Longest.step {segs : List Segment} {seen : List PrefixEntry}
    {best : Option PrefixEntry × Nat} (h : Longest segs seen best) (pe : PrefixEntry) :
    Longest segs (seen ++ [pe])
      (if pe.segs.isPrefixOf segs && pe.segs.length > best.2 then (some pe, pe.segs.length)
        else best) := by
  by_cases hwins : (pe.segs.isPrefixOf segs && pe.segs.length > best.2) = true
  · rw [if_pos hwins]
    simp only [Bool.and_eq_true, List.isPrefixOf_iff_prefix, decide_eq_true_eq, gt_iff_lt] at hwins
    refine ⟨nofun, ?_, ?_⟩
    · intro pe' heq
      obtain rfl := Option.some.inj heq
      refine ⟨by simp, hwins.1, rfl, ?_⟩
      exact List.ne_nil_of_length_pos (Nat.lt_of_le_of_lt (Nat.zero_le _) hwins.2)
    · intro pe' hmem hprefix
      rcases List.mem_append.mp hmem with hmem | hmem
      · exact Nat.le_trans (h.max pe' hmem hprefix) (Nat.le_of_lt hwins.2)
      · rw [List.mem_singleton.mp hmem]
  · rw [if_neg hwins]
    simp only [Bool.and_eq_true, List.isPrefixOf_iff_prefix, decide_eq_true_eq, gt_iff_lt,
      not_and, not_lt] at hwins
    refine ⟨h.none_length, ?_, ?_⟩
    · intro pe' heq
      obtain ⟨hmem, hspec⟩ := h.some_spec pe' heq
      exact ⟨List.mem_append_left _ hmem, hspec⟩
    · intro pe' hmem hprefix
      rcases List.mem_append.mp hmem with hmem | hmem
      · exact h.max pe' hmem hprefix
      · rw [List.mem_singleton.mp hmem] at hprefix ⊢
        exact hwins hprefix

theorem Longest.run {segs : List Segment} {entries seen : List PrefixEntry}
    {best : Option PrefixEntry × Nat} (h : Longest segs seen best) :
    Longest segs (seen ++ entries) (Registry.longestPrefix segs entries best) := by
  induction entries generalizing seen best with
  | nil =>
    rw [List.append_nil]
    exact h
  | cons pe rest ih =>
    have hrest := ih (h.step pe)
    rw [List.append_assoc] at hrest
    exact hrest

theorem longest_longestPrefix (segs : List Segment) (entries : List PrefixEntry) :
    Longest segs entries (Registry.longestPrefix segs entries (none, 0)) := by
  have hnothing : Longest segs [] (none, 0) := ⟨fun _ => rfl, nofun, nofun⟩
  exact hnothing.run

/-! ### When the most specific requirement is found -/

theorem find?_eq_none_of {reg : Registry}
    (h : ∀ e ∈ reg.entries, templateFound path method e = false) :
    reg.entries.find? (templateFound path method) = none :=
  List.find?_eq_none.mpr fun e he => by simp [h e he]

theorem prefixWithSegments_of_mostSpecific (h : MostSpecific d path method) :
    PrefixWithSegments d path method := by
  intro hnone pe hmem hprefix
  obtain ⟨pe', -, -, -, hlookup⟩ := h.longest_prefix hnone pe hmem hprefix
  have hlongest := longest_longestPrefix (splitPath path) d.registry.prefixEntries
  rw [lookup_of_none (find?_eq_none_of hnone)] at hlookup
  obtain ⟨best, hbest, -⟩ := Option.map_eq_some_iff.mp hlookup
  obtain ⟨hmem', hprefix', -, hne⟩ := hlongest.some_spec best hbest
  exact ⟨best, hmem', hprefix', hne⟩

theorem mostSpecific_of (hone : OneRequirement d path method)
    (hsegs : PrefixWithSegments d path method) : MostSpecific d path method where
  order_free _ hperm := order_free_of_oneRequirement hone hperm
  literal_first e he hfound hliteral :=
    ⟨e, he, hfound, hliteral,
      lookup_of_agree he hfound fun e' he' hfound' => hone e' he' hfound' e he hfound⟩
  longest_prefix hnone pe hmem hprefix := by
    obtain ⟨pe', hmem', hprefix', hne⟩ := hsegs hnone pe hmem hprefix
    have hlongest := longest_longestPrefix (splitPath path) d.registry.prefixEntries
    have hlookup := lookup_of_none (find?_eq_none_of hnone)
    cases hbest : (Registry.longestPrefix (splitPath path) d.registry.prefixEntries (none, 0)).1 with
    | none =>
      have hle := hlongest.max pe' hmem' hprefix'
      rw [hlongest.none_length hbest] at hle
      exact absurd (List.length_eq_zero_iff.mp (Nat.le_zero.mp hle)) hne
    | some best =>
      obtain ⟨hbestmem, hbestprefix, hlength, -⟩ := hlongest.some_spec best hbest
      refine ⟨best, hbestmem, hbestprefix, ?_, ?_⟩
      · intro pe'' hmem'' hprefix''
        rw [hlength]
        exact hlongest.max pe'' hmem'' hprefix''
      · rw [hlookup, hbest]
        rfl

/-- A lookup finds the most specific requirement exactly where all templates that match require the
same and a path without a template is not left to prefixes without segments. -/
theorem mostSpecific_iff (d : Deployment) (path : String) (method : HttpMethod) :
    MostSpecific d path method ↔
      OneRequirement d path method ∧ PrefixWithSegments d path method := by
  constructor
  · intro h
    exact ⟨oneRequirement_of_order_free h.order_free, prefixWithSegments_of_mostSpecific h⟩
  · rintro ⟨hone, hsegs⟩
    exact mostSpecific_of hone hsegs

def overlapping : Deployment where
  handlers := []
  endpoints :=
    [{ path := "/api/admin/users/{userId}", method := "GET", requiredScopes := ["users:read"] },
     { path := "/api/admin/users/export", method := "GET", requiredScopes := ["users:write"] }]

/-- The requirement of the parameter template is returned, for it is declared first. -/
theorem parameter_declared_first :
    ¬∀ (d : Deployment) (path : String) (method : HttpMethod), MostSpecific d path method := by
  intro h
  have hspecific := h overlapping "/api/admin/users/export" .Get
  have hfree := hspecific.order_free overlapping.endpoints.reverse (List.reverse_perm _)
  revert hfree
  decide

end AuthForge.SpecificScope
