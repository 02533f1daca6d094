import MappedStore.Proofs.Disuse
import MappedStore.Proofs.Linkage

/-!
# Commits that fail

A commit that the engine refuses leaves the process as an abort of the same transaction does, with
one difference: if the transaction is nested in another, the engine has broken that one too
(`System.breakThrough`). Nothing can be done through a broken transaction but to abort it, and the
abort leaves the process as if it had never been broken (`System.failed_commit`).
-/

namespace MappedStore.System

variable {system : System} {action : Action} {env : EnvId} {txn parent : TxnId}

/-! ## Engines in place -/

/-- Of two engines put in place for the same environment the second stays. -/
theorem setEngine_setEngine (system : System) (env : EnvId) (first second : Engine) :
    (system.setEngine env first).setEngine env second = system.setEngine env second :=
  system.modifyEngine_setEngine env first fun _ ↦ second

/-- It makes no difference whether an engine is put in place before or after a transaction of its
environment ends. -/
theorem finish_setEngineOf (system : System) (txn : TxnId) (engine : Engine) (state : TxnState) :
    (system.finish txn state).setEngine (system.transaction txn).env engine
      = (system.setEngineOf txn engine).finish txn state := by
  have htransaction : (system.setEngineOf txn engine).transaction txn = system.transaction txn := rfl
  unfold finish
  rw [htransaction]
  dsimp only
  cases (system.transaction txn).parent <;>
    simp [setEngineOf, setEngine, modifyEnvironment, modifyTransaction, List.modify_modify_eq,
      Function.comp_def]

/-- The process in which the engine has broken a transaction. -/
def breakThrough (system : System) (txn : TxnId) : System :=
  system.setEngineOf txn ((system.engineOf txn).breakTxn (system.native txn))

/-! ## Breaking through -/

/-- A transaction that an engine does not know it cannot break. -/
theorem breakThrough_of_none (h : (system.engineOf txn).txn? (system.native txn) = none) :
    system.breakThrough txn = system := by
  unfold breakThrough
  rw [Engine.breakTxn_of_none h]
  exact system.setEngine_engine _

/-- A broken transaction that can write and has none nested in it is disused. -/
theorem disused_breakThrough (hreachable : Reachable system)
    (htxn : txn < system.transactions.length)
    (hwriter : (system.transaction txn).readOnly = false)
    (hchildren : (system.transaction txn).children = 0) :
    Disused (system.breakThrough txn) txn := by
  have hsound := hreachable.sound
  have hengine : (system.breakThrough txn).engineOf txn
      = (system.engineOf txn).breakTxn (system.native txn) :=
    engine_setEngine _ (hsound.anchored.env_lt txn htxn)
  rw [Disused, hengine]
  refine Engine.disused_breakTxn fun found hfound ↦ ?_
  have hroster := hsound.anchored.roster (system.transaction txn).env
  have hfoundWriter := hsound.writer_of_found htxn hwriter hfound
  have hwrites : Writes system txn :=
    ⟨htxn, found, hroster.mem_writers hfound hfoundWriter, Engine.handle_of_txn? hfound⟩
  have hfault : (system.transaction txn).lifecycleFault = none := by
    rw [Transaction.lifecycleFault, (hsound.of_writes hwrites).2, hchildren]
    rfl
  obtain ⟨writer, rest, hwriters, hhandle⟩ :=
    ((linked_iff_writes hreachable).mpr hwrites).innermost hreachable hfault
  have hsame := hroster.eq_of_handle (List.mem_append_left _ (by simp [hwriters])) hfound hhandle
  exact ⟨hfoundWriter, by rw [engineOf, hwriters, hsame]; rfl⟩

/-- An engine knows no transaction that can write and has ended. -/
theorem Sound.unknown_of_finished (h : Sound system) (htxn : txn < system.transactions.length)
    (hwriter : (system.transaction txn).readOnly = false)
    (hfinished : (system.transaction txn).state.isFinished = true) :
    (system.engineOf txn).txn? (system.native txn) = none := by
  cases hfound : (system.engineOf txn).txn? (system.native txn) with
  | none => rfl
  | some found =>
      have hmem := (h.anchored.roster _).mem_writers hfound (h.writer_of_found htxn hwriter hfound)
      have hactive := (h.of_writes ⟨htxn, found, hmem, Engine.handle_of_txn? hfound⟩).2
      rw [hactive] at hfinished
      cases hfinished

/-- The abort of a broken transaction leaves the process as if it had not been broken. -/
theorem abort_breakThrough (hsound : Sound system) (htxn : txn < system.transactions.length)
    (hwriter : (system.transaction txn).readOnly = false) :
    (system.breakThrough txn).after (.abort txn) = system.after (.abort txn) := by
  have habort : (system.breakThrough txn).after (.abort txn)
      = ((system.breakThrough txn).abort txn).state := rfl
  have hplain : system.after (.abort txn) = (system.abort txn).state := rfl
  have hsame : (system.breakThrough txn).transaction txn = system.transaction txn := rfl
  rw [habort, hplain, abort_state, abort_state, hsame]
  split
  · rename_i hfinished
    exact breakThrough_of_none (hsound.unknown_of_finished htxn hwriter hfinished)
  · have hengine : (system.breakThrough txn).engineOf txn
        = (system.engineOf txn).breakTxn (system.native txn) :=
      engine_setEngine _ (hsound.anchored.env_lt txn htxn)
    have hengineAborted : ((system.engineOf txn).breakTxn (system.native txn)).abort
        (system.native txn) = (system.engineOf txn).abort (system.native txn) :=
      (hsound.anchored.roster _).abort_breakTxn fun found hfound ↦
        hsound.writer_of_found htxn hwriter hfound
    rw [hengine]
    refine congrArg (finish · txn .aborted) ?_
    refine (setEngine_setEngine system _ _ _).trans ?_
    exact congrArg (system.setEngineOf txn) hengineAborted

/-! ## Failed commits -/

/-- Behind the innermost writer of an engine is the transaction that it is nested in. -/
theorem Sound.parent_of_innermost (h : Sound system) (htxn : txn < system.transactions.length)
    {writer : Engine.Txn} {outer : List Engine.Txn}
    (hwriters : (system.engineOf txn).writers = writer :: outer)
    (hhandle : writer.handle = system.native txn) :
    (system.transaction txn).parent.map system.native = outer.head?.map (·.handle) := by
  obtain ⟨ids, hchain⟩ := h.chained (system.transaction txn).env
  have hwriters' : (system.engineOf txn).writers = [] ++ writer :: outer := hwriters
  obtain ⟨before, rest, rfl, hhandles⟩ := hchain.split h.anchored htxn rfl hwriters' hhandle
  have hparent := (hchain.nested.suffix (List.suffix_append before (txn :: rest))).1
  rw [hparent, ← List.head?_map, ← List.head?_map, hhandles]

/-- An engine that does not know a transaction that has not ended does not know the one either that
it is nested in. -/
theorem unknown_parent (hreachable : Reachable system)
    (hunknown : (system.engineOf txn).txn? (system.native txn) = none)
    (hunfinished : (system.transaction txn).state.isFinished = false)
    (hparent : (system.transaction txn).parent = some parent) :
    (system.engineOf txn).txn? (system.native parent) = none := by
  have hsound := hreachable.sound
  have henv := hsound.anchored.parent_env txn parent hparent
  have hengine : system.engineOf parent = system.engineOf txn := by rw [engineOf, engineOf, henv]
  have hlt := Nat.lt_trans (hsound.anchored.parent_lt txn parent hparent) (lt_of_parent hparent)
  cases hfound : (system.engineOf txn).txn? (system.native parent) with
  | none => rfl
  | some found =>
      -- otherwise both are linked, and the engine knows whatever is linked
      rw [← hengine] at hfound
      have hwriter := hsound.writer_of_found hlt (hreachable.writer_of_parent hparent) hfound
      have hwrites : Writes system parent := ⟨hlt, found,
        (hsound.anchored.roster _).mem_writers hfound hwriter, Engine.handle_of_txn? hfound⟩
      have hlinked := ((linked_iff_writes hreachable).mpr hwrites).child hsound hparent hunfinished
      obtain ⟨-, writer, hmem, hhandle⟩ := hreachable.enlisted _ txn hlinked
      have hknown := (hsound.anchored.roster _).txn?_handle (List.mem_append_left _ hmem)
      rw [hhandle] at hknown
      exact absurd (hunknown.symm.trans hknown) (Option.some_ne_none _).symm

/-- What a failed commit makes of the engine: as much as an abort, and the transaction around is
broken. -/
theorem commit_refused (hreachable : Reachable system)
    (hfault : (system.transaction txn).lifecycleFault = none) {code : Code} {engine : Engine}
    (hcommit : (system.engineOf txn).commit (system.native txn) = (.error code, engine)) :
    engine = match (system.transaction txn).parent with
      | none => (system.engineOf txn).abort (system.native txn)
      | some parent => ((system.engineOf txn).abort (system.native txn)).breakTxn
          (system.native parent) := by
  have hsound := hreachable.sound
  have htxn := lt_of_lifecycleFault hfault
  have hroster := hsound.anchored.roster (system.transaction txn).env
  cases hfound : (system.engineOf txn).txn? (system.native txn) with
  | none =>
      -- The engine does not know the transaction, which it has ended with one around it. It does
      -- not know the parent either, so there is nothing to break.
      have habort : (system.engineOf txn).abort (system.native txn) = system.engineOf txn := by
        simp [Engine.abort, hfound]
      rw [Engine.commit, hfound] at hcommit
      cases hcommit
      rw [habort]
      cases hparent : (system.transaction txn).parent with
      | none => rfl
      | some parent =>
          have hunknown := unknown_parent hreachable hfound (unfinished_of_lifecycleFault hfault)
            hparent
          exact (Engine.breakTxn_of_none hunknown).symm
  | some found =>
      cases hreader : found.readOnly with
      | true =>
          rw [Engine.commit, hfound] at hcommit
          simp [hreader] at hcommit
      | false =>
          have hwrites : Writes system txn :=
            ⟨htxn, found, hroster.mem_writers hfound hreader, Engine.handle_of_txn? hfound⟩
          obtain ⟨writer, outer, hwriters, hhandle⟩ :=
            ((linked_iff_writes hreachable).mpr hwrites).innermost hreachable hfault
          have hparent := hsound.parent_of_innermost htxn hwriters hhandle
          have hwriters' : (system.engineOf txn).writers = writer :: outer := hwriters
          rw [Engine.commit, hfound] at hcommit
          simp only [hreader, hwriters', hhandle, Bool.false_eq_true, if_true, if_false] at hcommit
          cases outer with
          | nil =>
              rw [Option.map_eq_none_iff.mp hparent, ← hhandle]
              exact hroster.commitWriter_root hwriters hcommit
          | cons around rest =>
              obtain ⟨parent, hsome, hnative⟩ := Option.map_eq_some_iff.mp hparent
              rw [hsome, ← hhandle]
              dsimp only
              rw [hnative]
              exact hroster.commitWriter_nested hwriters hcommit

/-- A commit that fails although the transaction can be used is one that the engine refuses. -/
theorem refused_of_error (hfault : (system.transaction txn).lifecycleFault = none)
    {refusal : Refusal} (hcommit : (system.commit txn).result = .error refusal) :
    ∃ code engine, (system.engineOf txn).commit (system.native txn) = (.error code, engine) ∧
      refusal = .error (.ofCode code) ∧
      (system.commit txn).state = (system.setEngineOf txn engine).finish txn .aborted := by
  have houtcome := system.commit_outcome txn
  generalize system.commit txn = outcome at hcommit houtcome ⊢
  cases houtcome with
  | unready hunready =>
      rw [hfault] at hunready
      cases hunready
  | @failed code engine _ hrefused =>
      exact ⟨code, engine, hrefused, (Except.error.inj hcommit).symm, rfl⟩
  | committed => cases hcommit

/-- The process that the abort of a transaction that can be used leaves. -/
theorem after_abort (hfault : (system.transaction txn).lifecycleFault = none) :
    system.after (.abort txn) = (system.setEngineOf txn
      ((system.engineOf txn).abort (system.native txn))).finish txn .aborted := by
  have hplain : system.after (.abort txn) = (system.abort txn).state := rfl
  rw [hplain, abort_state, unfinished_of_lifecycleFault hfault, if_neg Bool.false_ne_true]

/-- The process that a failed commit leaves is the one that an abort leaves, with the transaction
around broken. -/
theorem commit_failed (hreachable : Reachable system)
    (hfault : (system.transaction txn).lifecycleFault = none) {refusal : Refusal}
    (hcommit : (system.commit txn).result = .error refusal) :
    (system.commit txn).state = match (system.transaction txn).parent with
      | none => system.after (.abort txn)
      | some parent => (system.after (.abort txn)).breakThrough parent := by
  have hsound := hreachable.sound
  have habort := after_abort hfault
  obtain ⟨code, engine, hrefused, -, hstate⟩ := refused_of_error hfault hcommit
  rw [hstate, commit_refused hreachable hfault hrefused]
  cases hparent : (system.transaction txn).parent with
  | none => exact habort.symm
  | some parent =>
      dsimp only
      have hlt := Nat.lt_trans (hsound.anchored.parent_lt txn parent hparent) (lt_of_parent hparent)
      have hidentity := (hsound.transition (.abort txn)).identity hlt
      have henv : ((system.after (.abort txn)).transaction parent).env
          = (system.transaction txn).env :=
        (congrArg (·.1) hidentity).trans (hsound.anchored.parent_env txn parent hparent)
      have hnative : (system.after (.abort txn)).native parent = system.native parent :=
        congrArg (·.2.1) hidentity
      have hengine : (system.after (.abort txn)).engine (system.transaction txn).env
          = (system.engineOf txn).abort (system.native txn) := by
        rw [habort, engine_finish]
        exact engine_setEngine _ (hsound.anchored.env_lt txn (lt_of_parent hparent))
      unfold breakThrough setEngineOf engineOf
      rw [henv, hnative, hengine, habort]
      refine Eq.trans ?_ (finish_setEngineOf (system.setEngineOf txn _) txn _ .aborted).symm
      exact congrArg (finish · txn .aborted) (setEngine_setEngine system _ _ _).symm

/-- A commit that fails although the transaction could be used ends it as aborted, and hands nothing
over: what is retained, and what every transaction has opened and dropped, is as before. The process
is the one that an abort would have left, if the transaction is a root. If it is nested in another,
the engine has broken that one besides, and nothing else is different. Whatever happens afterwards,
nothing can be done through the broken transaction but to abort or to drop it. Once it is aborted,
there is no difference any more. -/
theorem failed_commit (h : Reachable system)
    (hfault : (system.transaction txn).lifecycleFault = none) {refusal : Refusal}
    (hcommit : (system.commit txn).result = .error refusal) :
    ((system.after (.commit txn)).transaction txn).state = .aborted ∧
      (∀ env, (system.after (.commit txn)).retained env = system.retained env) ∧
      (∀ other, (system.after (.commit txn)).scope other = system.scope other) ∧
      ((system.transaction txn).parent = none →
        system.after (.commit txn) = system.after (.abort txn)) ∧
      ∀ parent, (system.transaction txn).parent = some parent →
        system.after (.commit txn) = (system.after (.abort txn)).breakThrough parent ∧
        (∀ later, Run anything (system.after (.commit txn)) later →
          (∀ action, action.through? = some parent → action ≠ .abort parent →
            action ≠ .drop parent → ∃ error, (later.act action).result = .error (.error error)) ∧
          ∀ env flags thread, ∃ error,
            (later.act (.begin env (some parent) flags thread)).result = .error (.error error)) ∧
        (system.after (.commit txn)).after (.abort parent)
          = (system.after (.abort txn)).after (.abort parent) := by
  have hplain : system.after (.commit txn) = (system.commit txn).state := rfl
  have hleft := commit_failed h hfault hcommit
  obtain ⟨code, engine, hrefused, -, hstate⟩ := refused_of_error hfault hcommit
  refine ⟨?_, ?_, ?_, fun hparent ↦ ?_, fun parent hparent ↦ ?_⟩
  · rw [hplain, hstate]
    exact field_finish_self (·.state) (fun _ _ ↦ by rfl) .aborted (lt_of_lifecycleFault hfault)
  · intro env
    rw [hplain, hstate, retained_finish]
    exact retained_setEngine engine env
  · intro other
    rw [hplain, hstate, scope_finish]
    rfl
  · rw [hplain, hleft, hparent]
  · rw [hparent] at hleft
    have hsound := (h.act (.abort txn)).sound
    have hlt := Nat.lt_trans (h.sound.anchored.parent_lt txn parent hparent) (lt_of_parent hparent)
    have hafter := (h.sound.transition (.abort txn)).lt_length hlt
    have hidentity := (h.sound.transition (.abort txn)).identity hlt
    have hwriter : ((system.after (.abort txn)).transaction parent).readOnly = false :=
      (congrArg (·.2.2.1) hidentity).trans (h.writer_of_parent hparent)
    have hchildren : ((system.after (.abort txn)).transaction parent).children = 0 := by
      have hlone := h.guarded.lone parent
      have hended : (system.after (.abort txn)).transaction parent
          = ((system.setEngineOf txn _).finish txn .aborted).transaction parent :=
        congrArg (transaction · parent) (after_abort hfault)
      rw [hended, children_finish fun outer houter ↦ ?_]
      · have hparent' : ((system.setEngineOf txn ((system.engineOf txn).abort
          (system.native txn))).transaction txn).parent = some parent := hparent
        rw [hparent', if_pos rfl]
        exact Nat.sub_eq_zero_of_le hlone
      · obtain rfl := Option.some.inj (hparent.symm.trans houter)
        exact hlt
    -- The parent can write, so once it is broken nothing can be done through it any more.
    have hdisused := disused_breakThrough (h.act (.abort txn)) hafter hwriter hchildren
    have hreachable := h.act (.commit txn)
    rw [hplain, hleft] at hreachable ⊢
    refine ⟨rfl, fun later hrun ↦ ?_, abort_breakThrough hsound hafter hwriter⟩
    have hstays := congrArg (·.2.2.1) (hrun.identity hreachable.sound hafter)
    have hleftover := hdisused.run hreachable.sound hafter hrun
    exact ⟨fun action ↦ hleftover.refuses (hreachable.run hrun) (hstays.trans hwriter),
      hleftover.refuses_begin⟩

/-- A nested transaction breaks when it tries to remove the record of a database from the main one.
Its commit fails, and breaks the transaction around it; once that is aborted, all is as if the
nested transaction had been aborted. -/
theorem failed_commit_nested :
    let main : Database := ⟨1, 2, 0, none, .empty⟩
    let nested := sample.afterAll [.begin 0 none .empty mainThread, .openDatabase 1 none .empty,
      .begin 0 (some 1) .empty mainThread, .del 2 main [97] none]
    (nested.transaction 2).lifecycleFault = none ∧
      (nested.commit 2).result = .error (.error (.engine .badTxn)) ∧
      ((nested.after (.commit 2)).transaction 2).state = .aborted ∧
      (∃ error, (((nested.after (.commit 2)).after (.sync 0)).act (.get 1 main [107])).result
        = .error (.error error)) ∧
      (nested.after (.commit 2)).after (.abort 1) = (nested.after (.abort 2)).after (.abort 1) := by
  intro main nested
  have hfault : (nested.transaction 2).lifecycleFault = none := by decide +kernel
  have hcommit : (nested.commit 2).result = .error (.error (.engine .badTxn)) := by decide +kernel
  obtain ⟨hstate, -, -, -, hparent⟩ := failed_commit (sample_reachable.run (.all _ _)) hfault hcommit
  obtain ⟨-, hrefuses, habort⟩ := hparent 1 (by decide +kernel)
  have hlater := (hrefuses _ (.single (.sync 0) trivial)).1
  exact ⟨hfault, hcommit, hstate, hlater (.get 1 main [107]) rfl nofun nofun, habort⟩

/-- The failed commit of a nested transaction is not quite an abort of it: a value that the
transaction around would store after the abort is refused after the commit. -/
theorem failed_commit_breaks_parent : ∃ (system : System) (txn : TxnId) (action : Action)
    (error refused : Error), Reachable system ∧ (system.transaction txn).lifecycleFault = none ∧
      (system.commit txn).result = .error (.error error) ∧
      ((system.after (.abort txn)).act action).result = .ok .done ∧
      ((system.after (.commit txn)).act action).result = .error (.error refused) :=
  ⟨sample.afterAll [.begin 0 none .empty mainThread, .openDatabase 1 none .empty,
      .begin 0 (some 1) .empty mainThread, .del 2 ⟨1, 2, 0, none, .empty⟩ [97] none],
    2, .put 1 ⟨1, 2, 0, none, .empty⟩ [107] [118] .empty, .engine .badTxn, .engine .badTxn,
    sample_reachable.run (.all _ _), by decide +kernel, by decide +kernel, by decide +kernel,
    by decide +kernel⟩

end MappedStore.System
