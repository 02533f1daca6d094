import MappedStore.Proofs.Refusals

/-!
# Errors and the codes that they stand for

The conditions of the engine have consecutive codes, in the order in which `Condition.all` lists
them, so a code is that of a condition exactly if it lies between the first and the last. Decoding
a code loses nothing, and no error of the handle layer can be mistaken for one of the engine: by
its code, by its name, or by the calls behind it (`Error.taxonomy_faithful`). The code of success is
the only one that lets an action go on, but for a search that has found nothing
(`System.settles_act`).
-/

namespace MappedStore

namespace Condition

variable {condition other : Condition} {code : Code}

/-- Every condition is listed. -/
theorem mem_all (condition : Condition) : condition ∈ all := by
  cases condition <;> decide

/-- The codes of the conditions follow each other in the order of the list. -/
theorem toInt_code (condition : Condition) :
    condition.code.toInt = all.idxOf condition - 30799 := by
  cases condition <;> decide

/-- The condition at a place of the list has the code of that place. -/
theorem toInt_code_getElem {n : Nat} (h : n < all.length) : (all[n]).code.toInt = n - 30799 := by
  have hnodup : all.Nodup := by decide
  rw [toInt_code, hnodup.idxOf_getElem n h]

/-- A condition is found for exactly the codes of the range that they share. -/
theorem ofCode?_eq_none_iff : ofCode? code = none ↔ code < -30799 ∨ -30780 < code := by
  have hfirst : (-30799 : Code).toInt = -30799 := by decide
  have hlast : (-30780 : Code).toInt = -30780 := by decide
  rw [Int32.lt_iff_toInt_lt, Int32.lt_iff_toInt_lt, hfirst, hlast]
  constructor
  · intro hnone
    by_contra hinside
    -- a code within the range names a place in the list, and the condition there has the code
    obtain ⟨n, hn⟩ : ∃ n : Nat, code.toInt = n - 30799 :=
      ⟨(code.toInt + 30799).toNat, by omega⟩
    have hlength : n < all.length := by
      show n < 20
      omega
    have hcode : (all[n]).code = code :=
      Int32.toInt_inj.mp ((toInt_code_getElem hlength).trans hn.symm)
    rw [← hcode, ofCode?_code] at hnone
    cases hnone
  · intro houtside
    refine Option.eq_none_iff_forall_ne_some.mpr fun condition hfound ↦ ?_
    have hplace : all.idxOf condition < 20 := List.idxOf_lt_length_iff.mpr (mem_all condition)
    rw [← code_of_ofCode? hfound, toInt_code] at houtside
    omega

/-- No two conditions share a name. -/
theorem name_injective : Function.Injective name := by
  have hnodup : (all.map name).Nodup := by decide
  exact fun condition other h ↦ List.inj_on_of_nodup_map hnodup (mem_all _) (mem_all _) h

end Condition

namespace Error

variable {error : Error} {code : Code} {condition : Condition}

/-- A code is decoded as a condition, or kept as it is. -/
theorem ofCode_cases (code : Code) :
    (∃ condition, Condition.ofCode? code = some condition ∧ ofCode code = .engine condition) ∨
      Condition.ofCode? code = none ∧ ofCode code = .native code := by
  unfold ofCode
  cases h : Condition.ofCode? code with
  | some condition => exact .inl ⟨condition, rfl, rfl⟩
  | none => exact .inr ⟨rfl, rfl⟩

/-- Different codes are decoded as different errors. -/
theorem ofCode_injective : Function.Injective ofCode := fun first second h ↦ by
  simpa only [code_ofCode, Option.some.injEq] using congrArg Error.code h

/-- A code is kept as it is exactly if no condition has it. -/
theorem ofCode_eq_native_iff :
    (∃ kept, ofCode code = .native kept) ↔ code < -30799 ∨ -30780 < code := by
  rw [← Condition.ofCode?_eq_none_iff]
  rcases ofCode_cases code with ⟨condition, hsome, heq⟩ | ⟨hnone, heq⟩
  · simp [heq, hsome]
  · simp [heq, hnone]

/-- The errors without a code are those that are neither a condition nor a code. -/
theorem code_eq_none_iff :
    error.code = none ↔
      (∀ condition, error ≠ .engine condition) ∧ ∀ code, error ≠ .native code := by
  cases error <;> simp [Error.code]

/-- Only a condition goes by its own name. -/
theorem eq_engine_of_name (h : error.name = condition.name) : error = .engine condition := by
  have hlisted : condition.name ∈ Condition.all.map Condition.name :=
    List.mem_map_of_mem (Condition.mem_all condition)
  rw [← h] at hlisted
  cases error with
  | engine other => exact congrArg Error.engine (Condition.name_injective h)
  | _ => exact absurd hlisted (by simp only [Error.name]; decide)

end Error

/-- Whether an action looks for something, so that finding nothing is an answer. -/
def Action.searches : Action → Bool
  | .get .. | .del .. => true
  | _ => false

/-- The codes that the calls of an action may return if the action succeeds. -/
def Action.Allows (action : Action) (code : Code) : Prop :=
  code = 0 ∨ action.searches = true ∧ code = Condition.notFound.code

namespace System

open Error (ofCode)

variable {α β : Type} {system : System} {action : Action} {error : Error} {codes : Code → Prop}

/-- A failure is one of the calls that it made, or the engine has no part in it. -/
theorem Inert.code {calls : List Called} {after : System} (h : Inert system error calls after) :
    error.code = none ∧ calls = [] ∨ ∃ made ∈ calls, error = ofCode made.code := by
  cases h with
  | own hcode => exact .inl ⟨hcode, rfl⟩
  | engine herror => exact .inr ⟨_, List.mem_singleton_self _, herror⟩

/-- A commit that the engine refuses fails with the code that it has returned. -/
theorem code_of_commit {txn : TxnId} (h : (system.commit txn).result = .error (.error error))
    (hcode : error.code ≠ none) :
    ∃ made ∈ (system.commit txn).calls, error = ofCode made.code := by
  have houtcome := system.commit_outcome txn
  generalize system.commit txn = outcome at h houtcome ⊢
  cases houtcome with
  | unready hfault =>
      cases h
      exact absurd (code_of_lifecycleFault hfault) hcode
  | failed =>
      cases h
      exact ⟨_, List.mem_singleton_self _, rfl⟩
  | committed => cases h

/-- An open that fails does so with the code that the engine has returned. -/
theorem code_of_openWith {path : Bytes} {flags : EnvFlags} {config : Config} {kind : ViewKind}
    (h : (system.openWith path flags config kind).result = .error (.error error)) :
    ∃ made ∈ (system.openWith path flags config kind).calls, error = ofCode made.code := by
  have houtcome := system.openWith_outcome path flags config kind
  generalize system.openWith path flags config kind = outcome at h houtcome ⊢
  cases houtcome with
  | failed =>
      cases h
      exact ⟨_, List.mem_cons_self, rfl⟩
  | opened => cases h

/-- An action that fails names a code that one of its calls has returned, or it has called nothing
and its error has no code. -/
theorem code_of_act (h : (system.act action).result = .error (.error error)) :
    error.code = none ∧ (system.act action).calls = [] ∨
      ∃ made ∈ (system.act action).calls, error = ofCode made.code := by
  by_cases hopening : action.isOpening = true
  · cases action with
    | openEnvironment => exact .inr (code_of_openWith (map_eq_error.mp h))
    | _ => cases hopening
  by_cases hcommit : ∃ txn, action = .commit txn ∧ error.code ≠ none
  · obtain ⟨txn, rfl, hcode⟩ := hcommit
    exact .inr (code_of_commit (map_eq_error.mp h) hcode)
  · refine (inert_act (Bool.eq_false_of_not_eq_true hopening) h fun txn haction ↦ ?_).code
    by_contra hcode
    exact hcommit ⟨txn, haction, hcode⟩

/-! ## Actions that succeed -/

/-- If an operation succeeds, all its calls have returned one of these codes. -/
structure Settles (codes : Code → Prop) (outcome : Outcome α) : Prop where
  /-- The code of each call. -/
  code : ∀ value, outcome.result = .ok value → ∀ made ∈ outcome.calls, codes made.code

/-- An operation that does not succeed. -/
theorem settles_error {outcome : Outcome α} {refusal : Refusal}
    (h : outcome.result = .error refusal) : Settles codes outcome where
  code _ hvalue := by cases h.symm.trans hvalue

/-- An operation without a call. -/
theorem settles_silent {outcome : Outcome α} (h : outcome.calls = []) :
    Settles codes outcome where
  code _ _ made hmade := by
    rw [h] at hmade
    cases hmade

/-- An operation with a single call, which has returned one of the codes. -/
theorem settles_single {outcome : Outcome α} {made : Called} (h : outcome.calls = [made])
    (hcode : codes made.code) : Settles codes outcome where
  code _ _ other hother := by
    rw [h] at hother
    rwa [List.mem_singleton.mp hother]

/-- An operation whose result is passed on in another form. -/
theorem Settles.map {outcome : Outcome α} (h : Settles codes outcome) (change : α → β) :
    Settles codes (outcome.map change) where
  code _ hresult := by
    obtain ⟨value, hvalue, -⟩ := map_eq_ok.mp hresult
    exact h.code value hvalue

/-- An operation after events that are no calls. -/
theorem Settles.preceded {outcome : Outcome α} (h : Settles codes outcome) {events : List Event}
    (hevents : events.filterMap Event.called? = []) :
    Settles codes (outcome.after events) where
  code value hresult := by
    have hcalls : (outcome.after events).calls = outcome.calls := by
      rw [Outcome.calls, Outcome.after, List.filterMap_append, hevents, List.nil_append]
      rfl
    rw [hcalls]
    exact h.code value hresult

/-- An operation that is followed by one without a call. -/
theorem Settles.andThen {outcome : Outcome α} (h : Settles codes outcome)
    {following : α → System → Outcome β}
    (hfollowing : ∀ value middle, (following value middle).calls = []) :
    Settles codes (outcome.andThen following) where
  code value hresult := by
    cases hfirst : outcome.result with
    | error refusal => cases (andThen_of_error following hfirst).1.symm.trans hresult
    | ok first =>
        have hcalls : (outcome.andThen following).calls = outcome.calls := by
          rw [Outcome.andThen, hfirst]
          dsimp only
          rw [Outcome.calls, List.filterMap_append]
          exact (congrArg _ (hfollowing first outcome.state)).trans (List.append_nil _)
        rw [hcalls]
        exact h.code first hfirst

/-- A use of a database behind the gate. -/
theorem settles_withAccess {txn : TxnId} {access : Access} {use : Transaction → Outcome α}
    (h : Settles codes (use (system.transaction txn))) :
    Settles codes (system.withAccess txn access use) := by
  have houtcome := system.withAccess_outcome txn access use
  generalize system.withAccess txn access use = outcome at houtcome ⊢
  cases houtcome with
  | guarded | objected => exact settles_error rfl
  | admitted => exact h.preceded rfl

/-- An operation on an environment that is open. -/
theorem settles_whileOpen {env : EnvId} {use : Environment → Outcome α}
    (h : Settles codes (use (system.environment env))) :
    Settles codes (system.whileOpen env use) := by
  rcases system.whileOpen_cases env use with ⟨-, hrefused⟩ | ⟨-, hallowed⟩
  · exact settles_error (by rw [hrefused]; rfl)
  · rwa [hallowed]

/-- A use of the engine whose result is passed on. -/
theorem settles_relay [Inhabited α] (hzero : codes 0) (env : EnvId) (call : Call)
    (run : Engine → Engine.Answer Engine α) : Settles codes (system.relay env call run) := by
  rcases system.relay_ends env call run with ⟨code, -, heq⟩ | ⟨value, heq⟩
  · exact settles_error (by rw [heq])
  · rw [heq]
    exact settles_single rfl hzero

/-- A search. -/
theorem settles_seek (hzero : codes 0) (hmissed : codes Condition.notFound.code) (env : EnvId)
    (call : Call) (run : Engine → Engine.Answer Engine α) :
    Settles codes (system.seek env call run) := by
  rcases system.seek_cases env call run with
    ⟨value, engine, -, heq⟩ | ⟨engine, -, heq⟩ | ⟨code, engine, -, -, heq⟩
  · rw [heq]
    exact settles_single rfl hzero
  · rw [heq]
    exact settles_single rfl hmissed
  · exact settles_error (by rw [heq])

/-- The end of a transaction. -/
theorem settles_end {txn : TxnId} {outcome : Outcome Unit} (h : EndOutcome system txn outcome)
    (hzero : codes 0) : Settles codes outcome where
  code _ _ made hmade := by
    rw [h.calls_eq] at hmade
    split at hmade
    · cases hmade
    · rwa [List.mem_singleton.mp hmade]

/-- The calls of an action that succeeds have all returned the code of success, but for a search
that has found nothing. -/
theorem settles_act (system : System) (action : Action) :
    Settles action.Allows (system.act action) := by
  have hzero : action.Allows 0 := .inl rfl
  cases action with
  | changeFiles | endThread => exact settles_silent rfl
  | openEnvironment path flags config kind =>
      have houtcome := system.openWith_outcome path flags config kind
      refine Settles.map ?_ _
      generalize system.openWith path flags config kind = outcome at houtcome ⊢
      cases houtcome with
      | failed => exact settles_error rfl
      | opened => exact settles_single rfl hzero
  | close env =>
      have houtcome := system.close_outcome env
      refine Settles.map ?_ _
      generalize system.close env = outcome at houtcome ⊢
      cases houtcome with
      | busy => exact settles_error rfl
      | idle => exact settles_silent rfl
      | closed => exact settles_single rfl hzero
  | copy env destination flags thread =>
      have houtcome := system.copy_outcome env destination flags thread
      refine Settles.map ?_ _
      generalize system.copy env destination flags thread = outcome at houtcome ⊢
      cases houtcome with
      | closed | unfit | unusable | waits | failed => exact settles_error rfl
      | copied => exact settles_single rfl hzero
  | statEnvironment | info | readerCheck =>
      exact (settles_whileOpen (settles_relay hzero ..)).map _
  | sync env =>
      have houtcome := system.sync_outcome env
      refine Settles.map ?_ _
      generalize system.sync env = outcome at houtcome ⊢
      cases houtcome with
      | closed | objected | failed => exact settles_error rfl
      | flushed => exact settles_single rfl hzero
  | begin env parent flags thread =>
      have houtcome := system.begin_outcome env parent flags thread
      refine Settles.map ?_ _
      generalize system.begin env parent flags thread = outcome at houtcome ⊢
      cases houtcome with
      | refused | waits | failed => exact settles_error rfl
      | begun => exact settles_single rfl hzero
  | commit txn =>
      have houtcome := system.commit_outcome txn
      refine Settles.map ?_ _
      generalize system.commit txn = outcome at houtcome ⊢
      cases houtcome with
      | unready | failed => exact settles_error rfl
      | committed => exact settles_single rfl hzero
  | abort txn => exact (settles_end (system.abort_outcome txn) hzero).map _
  | drop txn => exact (settles_end (system.dropTransaction_outcome txn) hzero).map _
  | reset txn =>
      have houtcome := system.reset_outcome txn
      refine Settles.map ?_ _
      generalize system.reset txn = outcome at houtcome ⊢
      cases houtcome with
      | unready | writer => exact settles_error rfl
      | reset => exact settles_single rfl hzero
  | renew txn =>
      have houtcome := system.renew_outcome txn
      refine Settles.map ?_ _
      generalize system.renew txn = outcome at houtcome ⊢
      cases houtcome with
      | active | finished | failed => exact settles_error rfl
      | renewed => exact settles_single rfl hzero
  | openDatabase txn name flags =>
      have houtcome := system.openThrough_outcome txn name flags
      refine Settles.map ?_ _
      generalize system.openThrough txn name flags = outcome at houtcome ⊢
      cases houtcome with
      | unready | misnamed | failed => exact settles_error rfl
      | reopened | opened => exact settles_single rfl hzero
  | get txn database key =>
      rw [act, get_eq_seek]
      exact (settles_withAccess (settles_seek hzero (.inr ⟨rfl, rfl⟩) ..)).map _
  | del txn database key item =>
      rw [act, del_eq_seek]
      exact (settles_withAccess ((settles_seek hzero (.inr ⟨rfl, rfl⟩) ..).map _)).map _
  | stat | clear => exact (settles_withAccess (settles_relay hzero ..)).map _
  | put => exact (settles_withAccess ((settles_relay hzero ..).preceded rfl)).map _
  | reserve =>
      exact Settles.map (Settles.andThen
        (settles_withAccess ((settles_relay hzero ..).map _)) fun _ _ ↦ rfl) _
  | dropDatabase =>
      refine Settles.map (settles_withAccess
        ((settles_relay hzero ..).andThen fun _ middle ↦ ?_)) _
      split <;> rfl

end System

namespace Error

/-- Every code can be told from the error that it is decoded as, and no two codes are decoded as the
same one. A code is kept as it is exactly if it lies outside the range of the conditions; within, it
gives the condition whose place in the list it names, and no other error goes by the name of that.
An error that a code was decoded as is decoded from its code again. All other errors, those of the
handle layer, have no code, so an action that fails with one of them has called nothing; one that
fails with an error of the engine has made a call that returned its code. Zero, and only zero, is
success: an action succeeds only if all its calls have returned it, but for a search that has found
nothing. -/
theorem taxonomy_faithful :
    (∀ code, (ofCode code).code = some code) ∧
      Function.Injective ofCode ∧
      (∀ code, (∃ kept, ofCode code = .native kept) ↔ code < -30799 ∨ -30780 < code) ∧
      (∀ code condition, ofCode code = .engine condition →
        code.toInt = Condition.all.idxOf condition - 30799 ∧
          ∀ error : Error, error.name = condition.name → error = ofCode code) ∧
      (∀ error, (∃ code, ofCode code = error) → error.code.map ofCode = some error) ∧
      (∀ error : Error, error.code = none ↔
        (∀ condition, error ≠ .engine condition) ∧ ∀ code, error ≠ .native code) ∧
      (∀ code, (check code = .ok () ↔ code = 0) ∧
        (code ≠ 0 → check code = .error (ofCode code))) ∧
      (∀ (system : System) action error, (system.act action).result = .error (.error error) →
        error.code = none ∧ (system.act action).calls = [] ∨
          ∃ made ∈ (system.act action).calls, error = ofCode made.code) ∧
      ∀ (system : System) action response, (system.act action).result = .ok response →
        ∀ made ∈ (system.act action).calls,
          made.code = 0 ∨ action.searches = true ∧ made.code = Condition.notFound.code := by
  refine ⟨code_ofCode, ofCode_injective, fun code ↦ ofCode_eq_native_iff,
    fun code condition hcode ↦ ⟨?_, fun error hname ↦ ?_⟩, ?_, fun error ↦ code_eq_none_iff,
    fun code ↦ ⟨?_, check_of_ne_zero⟩, fun system action error ↦ System.code_of_act,
    fun system action ↦ (system.settles_act action).code⟩
  · obtain rfl : condition.code = code := by
      simpa [hcode, Error.code] using code_ofCode code
    exact condition.toInt_code
  · rw [hcode]
    exact eq_engine_of_name hname
  · rintro error ⟨code, rfl⟩
    rw [code_ofCode, Option.map_some]
  · constructor
    · intro hcheck
      by_contra hne
      rw [check_of_ne_zero hne] at hcheck
      cases hcheck
    · rintro rfl
      rfl

/-- The open of an environment in a directory that does not exist fails with an error of the engine,
which has answered the call with its code; a commit after the commit fails with one of the handle
layer. -/
theorem taxonomy_faithful_sample :
    let opening := System.sample.act
      (.openEnvironment (Bytes.ofText "$W/none") .empty {} .default)
    let commit := System.sample.act (.commit 0)
    opening.result = .error (.error (.native 2)) ∧
      (∃ made ∈ opening.calls, native 2 = ofCode made.code) ∧
      commit.result = .error (.error .txnFinished) ∧ commit.calls = [] := by
  intro opening commit
  obtain ⟨-, -, -, -, -, -, -, hact, -⟩ := taxonomy_faithful
  have hopening : opening.result = .error (.error (.native 2)) := by decide +kernel
  have hcommit : commit.result = .error (.error .txnFinished) := by decide +kernel
  refine ⟨hopening, ?_, hcommit, ?_⟩
  · rcases hact _ _ _ hopening with ⟨hcode, -⟩ | hmade
    · cases hcode
    · exact hmade
  · rcases hact _ _ _ hcommit with ⟨-, hcalls⟩ | ⟨made, -, hmade⟩
    · exact hcalls
    · have hcode := congrArg Error.code hmade
      rw [code_ofCode] at hcode
      cases hcode

end Error

end MappedStore
