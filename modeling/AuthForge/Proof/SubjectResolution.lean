import AuthForge.Http.Runs
import AuthForge.Identity.Resolution

/-!
# Do consents and roles speak of the same user?

The scope engine resolves a subject through the mappings, the token service reads roles for it
directly. For the internal id and the public subject of a live user they agree exactly where the
mappings lead from the subject, under the provider `local`, to the user. Nothing in the login, the
registration or the GitHub login writes such a row.
-/

namespace AuthForge.SubjectResolution

open Http Identity Identity.IdentityTables

/-- The resolver finds the user, and the roles of the subject are the roles of the user. -/
def Agrees (t : IdentityTables) (fails : ResolutionStatement → Bool) (id : Int) (sub : String) :
    Prop :=
  t.resolve fails sub = some id ∧ t.getRolesOfSubject fails sub = t.getRoles fails id

/-- The mappings lead to the user, and the statements of the two ways succeed. Where the lookup of a
public subject fails, no harm is done to a user without roles. -/
def Mapped (t : IdentityTables) (fails : ResolutionStatement → Bool) (id : Int) (sub : String) :
    Prop :=
  t.mappings.lookup ("local", sub) = some id ∧ fails .findMapping = false ∧
    fails .findLive = false ∧
    (fails .findBySubject = false ∨ sub = toString id ∨ t.readsRole fails id = false)

variable {t : IdentityTables} {fails : ResolutionStatement → Bool} {id : Int} {sub : String}

/-- The roles of a subject of a live user are those of the user, unless the lookup of the public
subject fails and keeps roles back. -/
theorem getRolesOfSubject_iff (h : t.Issued id sub) :
    t.getRolesOfSubject fails sub = t.getRoles fails id ↔
      fails .findBySubject = false ∨ sub = toString id ∨ t.readsRole fails id = false := by
  obtain ⟨p, hlookup, hdeleted, rfl | rfl⟩ := h.live
  · exact iff_of_true (getRolesOfSubject_toString hlookup) (.inr (.inl rfl))
  · have huuid := t.users.publicSubs_uuid _ (AList.mem_lookup_iff.mp hlookup)
    have hne : p.publicSub ≠ toString id := (ne_toString_of_isUuid huuid id).symm
    rw [getRolesOfSubject_publicSub hlookup hdeleted]
    cases hfails : fails .findBySubject with
    | false => simp
    | true =>
      simp only [if_true, hne, false_or, Bool.true_eq_false]
      rw [← getRoles_eq_nil_iff]
      exact eq_comm

/-- For every subject that the issuing paths use for a live user, resolution and roles agree on the
user if and only if the subject is mapped to the user. -/
theorem agrees_iff_mapped (t : IdentityTables) (fails : ResolutionStatement → Bool) {id : Int}
    {sub : String} (hissued : t.Issued id sub) : Agrees t fails id sub ↔ Mapped t fails id sub := by
  unfold Agrees Mapped
  rw [resolve_iff hissued, getRolesOfSubject_iff hissued, and_assoc, and_assoc]

/-! ### The administrator of the seed data and a user who registered later -/

/-- The seed maps the internal id of the administrator; nothing maps a subject of the others. -/
def seededTables : IdentityTables where
  users := knownUsers.profiles
  userRoles := [(1, 1), (1, 2), (3, 2)]
  roles := AList.insert 1 "admin" (AList.insert 2 "user" ∅)
  mappings := AList.insert ("local", "1") 1 ∅
  ids_int := by decide +kernel

def noFailure : ResolutionStatement → Bool := fun _ => false

/-- The administrator has the role under both subjects, but only the mapped one resolves; the user
who registered later has a role, and no subject that resolves. -/
theorem seededTables_disagree :
    (seededTables.Issued 1 "11111111-1111-4111-8111-111111111111" ∧
      seededTables.getRolesOfSubject noFailure "11111111-1111-4111-8111-111111111111" =
        ["admin", "user"] ∧
      seededTables.resolve noFailure "11111111-1111-4111-8111-111111111111" = none ∧
      ¬Agrees seededTables noFailure 1 "11111111-1111-4111-8111-111111111111") ∧
    seededTables.Issued 3 "3" ∧ seededTables.getRolesOfSubject noFailure "3" = ["user"] ∧
      seededTables.resolve noFailure "3" = none ∧ ¬Agrees seededTables noFailure 3 "3" := by
  obtain ⟨hadmin, hadminRoles, hlater, hlaterRoles⟩ :
      seededTables.resolve noFailure "11111111-1111-4111-8111-111111111111" = none ∧
        seededTables.getRolesOfSubject noFailure "11111111-1111-4111-8111-111111111111" =
          ["admin", "user"] ∧
        seededTables.resolve noFailure "3" = none ∧
        seededTables.getRolesOfSubject noFailure "3" = ["user"] := by
    decide +kernel
  refine ⟨⟨⟨⟨_, rfl, rfl, .inr rfl⟩⟩, hadminRoles, hadmin, ?_⟩,
    ⟨⟨_, rfl, rfl, .inl rfl⟩⟩, hlaterRoles, hlater, ?_⟩
  · intro h
    cases hadmin.symm.trans h.1
  · intro h
    cases hlater.symm.trans h.1

theorem agrees_iff_mapped_seeded :
    seededTables.Issued 1 "1" ∧ Agrees seededTables noFailure 1 "1" ∧
      seededTables.getRoles noFailure 1 = ["admin", "user"] := by
  have hissued : seededTables.Issued 1 "1" := ⟨⟨_, rfl, rfl, .inl rfl⟩⟩
  have hmapped : Mapped seededTables noFailure 1 "1" := by
    refine ⟨by decide +kernel, rfl, rfl, .inl rfl⟩
  exact ⟨hissued, (agrees_iff_mapped seededTables noFailure hissued).mpr hmapped,
    by decide +kernel⟩

end AuthForge.SubjectResolution
