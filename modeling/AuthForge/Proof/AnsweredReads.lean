import AuthForge.Storage.CacheCallbacks

/-!
# When a cached read answers once

Redis may invoke both callbacks of the command of a read, in either order, and the wrapped
repository answers at any time. The flag of `getClient`, `getAccessToken` and `introspectToken`
makes any number of working callbacks end in one answer; `validateClient` has none and takes exactly
one. A callback does not work when reading the cached value throws.
-/

namespace AuthForge.AnsweredReads

open OAuth2 Jsoncpp SharedCallback Storage.CacheCallbacks

variable {parse : String → Option Value} {sha256Hex : String → String} {hasRedis : Bool}

abbrev ReadEvent (read : CachedRead) := Event RedisResult read.Answer

abbrev readMachine (parse : String → Option Value) (sha256Hex : String → String)
    (read : CachedRead) : Machine (Shared read.Answer) (ReadEvent read) (ReadEvent read) :=
  machine (handlers parse sha256Hex read)

/-- Of the callbacks that Redis invokes, at least one, and for `validateClient` exactly one, does
not throw. -/
def Meets (parse : String → Option Value) (sha256Hex : String → String) (read : CachedRead)
    (history : List (ReadEvent read)) : Prop :=
  let works := working (reading parse sha256Hex read) history
  match read with
  | .validateClient _ _ => works = 1
  | _ => 0 < works

theorem withRedis_answeredOnce_iff (read : CachedRead) {history : List (ReadEvent read)}
    {s : Shared read.Answer}
    (hrun : (readMachine parse sha256Hex read).Run (Enabled true) {} history s)
    (hcomplete : Complete true history s) :
    AnsweredOnce s ↔ Meets parse sha256Hex read history := by
  cases read with
  | getClient clientId => exact guarded_answeredOnce_iff hrun hcomplete
  | validateClient clientId clientSecret => exact unguarded_answeredOnce_iff hrun hcomplete
  | getAccessToken token => exact guarded_answeredOnce_iff hrun hcomplete
  | introspectToken token => exact guarded_answeredOnce_iff hrun hcomplete

theorem withoutRedis_answeredOnce (read : CachedRead) {history : List (ReadEvent read)}
    {s : Shared read.Answer}
    (hrun : (readMachine parse sha256Hex read).Run (Enabled false) (withoutRedis read) history s)
    (hcomplete : Complete false history s) : AnsweredOnce s := by
  cases read with
  | getClient clientId => exact unsent_answeredOnce (.inr ⟨rfl, rfl⟩) hrun hcomplete
  | validateClient clientId clientSecret => exact unsent_answeredOnce (.inl rfl) hrun hcomplete
  | getAccessToken token => exact unsent_answeredOnce (.inl rfl) hrun hcomplete
  | introspectToken token => exact unsent_answeredOnce (.inl rfl) hrun hcomplete

/-- In every order of the callbacks of Redis and the answers of the wrapped repository. -/
theorem cachedRead_answeredOnce_iff (read : CachedRead) {history : List (ReadEvent read)}
    {s : Shared read.Answer}
    (hrun : (readMachine parse sha256Hex read).Run (Enabled hasRedis) (start hasRedis read)
      history s)
    (hcomplete : Complete hasRedis history s) :
    AnsweredOnce s ↔ (hasRedis = true → Meets parse sha256Hex read history) := by
  cases hasRedis with
  | false => exact iff_of_true (withoutRedis_answeredOnce read hrun hcomplete) nofun
  | true =>
    rw [withRedis_answeredOnce_iff read hrun hcomplete]
    exact ⟨fun h _ => h, fun h => h rfl⟩

/-! ### Torn connections -/

/-- A read at a Redis that holds nothing but empty arrays. -/
def executed (read : CachedRead) (inputs : List (ReadEvent read)) :
    List (ReadEvent read) × Shared read.Answer :=
  (readMachine (fun _ => some (.array [])) id read).exec [] (start true read) inputs

/-- Redis answers that there is nothing, and fails; both calls of the wrapped repository are
answered. -/
def torn (read : CachedRead) (a : read.Answer) : List (ReadEvent read) :=
  [.success .nil, .failure, .answered 0 a, .answered 0 a]

theorem run_torn (read : CachedRead) (a : read.Answer) :
    (readMachine (fun _ => some (.array [])) id read).Run (Enabled true) (start true read)
        (executed read (torn read a)).1 (executed read (torn read a)).2 ∧
      Complete true (executed read (torn read a)).1 (executed read (torn read a)).2 := by
  refine ⟨Machine.Run.exec_of_guarded .init _ ⟨⟨rfl, nofun⟩, ⟨rfl, ?_⟩, ?_, ?_, trivial⟩, ?_⟩
  · simp [machine]
  · cases read <;> exact Nat.zero_lt_two
  · cases read <;> exact Nat.zero_lt_one
  · refine ⟨fun _ => .inr ?_, ?_⟩
    · simp [executed, torn, Machine.exec, machine]
    · cases read <;> rfl

theorem torn_getClient_answeredOnce :
    AnsweredOnce (executed (.getClient "web") (torn (.getClient "web") none)).2 :=
  (cachedRead_answeredOnce_iff (.getClient "web") (run_torn (.getClient "web") none).1
    (run_torn (.getClient "web") none).2).mpr fun _ => Nat.zero_lt_two

/-- The same torn connection makes `validateClient` invoke an empty function object, and a cached
array without a failure leaves `getClient` unanswered. -/
theorem torn_validateClient_empty :
    (executed (.validateClient "web" "key") (torn (.validateClient "web" "key") true)).2 =
        { moved := true, answers := [true], emptyInvocations := 1 } ∧
    (∃ history s, (readMachine (fun _ => some (.array [])) id (.validateClient "web" "key")).Run
        (Enabled true) (start true (.validateClient "web" "key")) history s ∧
      Complete true history s ∧ ¬AnsweredOnce s) ∧
    ∃ history s, (readMachine (fun _ => some (.array [])) id (.getClient "web")).Run
        (Enabled true) (start true (.getClient "web")) history s ∧
      Complete true history s ∧ ¬AnsweredOnce s := by
  refine ⟨rfl, ⟨_, _, (run_torn (.validateClient "web" "key") true).1,
    (run_torn (.validateClient "web" "key") true).2, ?_⟩, ?_⟩
  · intro h
    cases h.2
  · have henabled : Enabled true [] (start true (.getClient "web"))
        (.success (.string "[]") : ReadEvent (.getClient "web")) := ⟨rfl, nofun⟩
    refine ⟨_, _, Machine.Run.next _ .init henabled, ⟨?_, rfl⟩, ?_⟩
    · exact fun _ => .inl ⟨_, List.mem_cons_self⟩
    · intro h
      cases h.1

end AuthForge.AnsweredReads
