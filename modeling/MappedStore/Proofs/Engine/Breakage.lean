import MappedStore.Proofs.Engine.Refusing

/-!
# Commits that the engine refuses

A commit that the engine refuses ends the transaction as an abort does (`commitWriter_root`). If the
transaction is nested in another, the engine breaks the outer one as well (`commitWriter_nested`,
`Engine.breakTxn`). If that is then aborted, it has made no difference that it was broken
(`Roster.abort_breakTxn`).
-/

namespace MappedStore.Engine

variable {engine after : Engine} {handle slot : Nat} {txn txn' parent : Txn} {rest : List Txn}
  {code : Code}

/-- Break the transaction with a handle. -/
def breakTxn (engine : Engine) (handle : Nat) : Engine :=
  (engine.onTxn handle fun txn ↦ (.ok (), { txn with broken := true })).2

/-- A transaction that the engine does not know cannot be broken. -/
theorem breakTxn_of_none (htxn : engine.txn? handle = none) : engine.breakTxn handle = engine := by
  simp [breakTxn, onTxn, htxn, refuseSystem]

/-- The transaction with the handle is replaced by a broken one. -/
theorem breakTxn_of_some (htxn : engine.txn? handle = some txn) :
    engine.breakTxn handle = engine.replace { txn with broken := true } := by
  simp [breakTxn, onTxn, htxn]

/-! ## Aborts -/

/-- An abort of writers does not look at those that the engine has. -/
theorem abortWriters_writers (engine : Engine) (handle : Nat) (kept writers : List Txn) :
    ({ engine with writers := kept } : Engine).abortWriters handle writers
      = engine.abortWriters handle writers := by
  induction writers generalizing engine with
  | nil => rfl
  | cons first rest ih =>
      unfold abortWriters
      dsimp only
      split
      · rfl
      · exact ih { engine with
          slots := engine.slots.discard first.named
          memory := if rest.isEmpty then remember engine.memory first.named else engine.memory }

/-- An abort of writers looks at the slots that the one with the handle holds, and at nothing else
about it. -/
theorem abortWriters_replaced (engine : Engine) {writers : List Txn}
    (hnodup : (writers.map (·.handle)).Nodup)
    (hnamed : ∀ other ∈ writers, other.handle = txn'.handle → txn'.named = other.named) :
    engine.abortWriters txn'.handle
        (writers.map fun other ↦ if other.handle = txn'.handle then txn' else other)
      = engine.abortWriters txn'.handle writers := by
  induction writers generalizing engine with
  | nil => rfl
  | cons first rest ih =>
      simp only [List.map_cons, List.nodup_cons] at hnodup
      have hempty : (rest.map fun other ↦
          if other.handle = txn'.handle then txn' else other).isEmpty = rest.isEmpty := by
        cases rest <;> rfl
      rw [List.map_cons]
      unfold abortWriters
      rw [hempty]
      by_cases hfirst : first.handle = txn'.handle
      · -- those further out have other handles, and stay as they are
        have hrest : (rest.map fun other ↦ if other.handle = txn'.handle then txn' else other)
            = rest := by
          refine (List.map_congr_left fun other hother ↦ if_neg fun hsame ↦ ?_).trans
            (List.map_id' rest)
          exact hnodup.1 (List.mem_map.mpr ⟨other, hother, hsame.trans hfirst.symm⟩)
        have hslots := hnamed first List.mem_cons_self hfirst
        simp only [if_pos hfirst, if_true, hrest, hslots]
      · simp only [if_neg hfirst]
        exact ih _ hnodup.2 fun other hother ↦ hnamed other (List.mem_cons_of_mem _ hother)

/-- Nothing but the chain of writers changes when a writer is replaced. -/
theorem Roster.replace_writer (h : Roster engine) (hwriter : txn ∈ engine.writers)
    (hhandle : txn'.handle = txn.handle) :
    engine.replace txn' = { engine with writers := (engine.replace txn').writers } := by
  have hnodup := h.nodup
  rw [List.map_append, List.nodup_append] at hnodup
  have hreading : (engine.replace txn').reading = engine.reading := by
    refine (List.map_congr_left fun reader hreader ↦ if_neg fun hsame ↦ ?_).trans (List.map_id' _)
    exact hnodup.2.2 _ (List.mem_map_of_mem hwriter) _ (List.mem_map_of_mem hreader)
      (hsame.trans hhandle).symm
  rw [← hreading]
  rfl

/-- A writer that holds the same slots is aborted with the same effect. -/
theorem Roster.abort_replace (h : Roster engine) (htxn : engine.txn? handle = some txn)
    (hwriter : txn.readOnly = false) (hhandle : txn'.handle = txn.handle)
    (hreadOnly : txn'.readOnly = txn.readOnly) (hnamed : txn'.named = txn.named) :
    (engine.replace txn').abort handle = engine.abort handle := by
  obtain rfl : txn'.handle = handle := hhandle.trans (handle_of_txn? htxn)
  have hreplaced := txn?_replace_self htxn hhandle
  have hengine := h.replace_writer (h.mem_writers htxn hwriter) hhandle
  unfold abort
  rw [hreplaced, htxn]
  dsimp only
  rw [hreadOnly, hwriter, if_neg Bool.false_ne_true, if_neg Bool.false_ne_true, hengine]
  refine (abortWriters_writers ..).trans (abortWriters_replaced engine ?_ fun other hother hsame ↦ ?_)
  · have hnodup := h.nodup
    rw [List.map_append, List.nodup_append] at hnodup
    exact hnodup.1
  · rw [h.eq_of_handle (List.mem_append_left _ hother) htxn hsame, hnamed]

/-- Breaking a writer makes no difference to its abort. -/
theorem Roster.abort_breakTxn (h : Roster engine)
    (hwriter : ∀ txn, engine.txn? handle = some txn → txn.readOnly = false) :
    (engine.breakTxn handle).abort handle = engine.abort handle := by
  cases htxn : engine.txn? handle with
  | none => rw [breakTxn_of_none htxn]
  | some txn =>
      rw [breakTxn_of_some htxn]
      exact h.abort_replace htxn (hwriter txn htxn) rfl rfl rfl

/-! ## Commits -/

/-- A root whose commit is refused ends as by an abort. -/
theorem Roster.commitWriter_root (h : Roster engine) (hwriters : engine.writers = [txn])
    (hcommit : engine.commitWriter txn [] = (.error code, after)) :
    after = engine.abort txn.handle := by
  have hmem : txn ∈ engine.writers ++ engine.reading := by simp [hwriters]
  unfold commitWriter at hcommit
  dsimp only at hcommit
  split at hcommit
  · cases hcommit
    rfl
  split at hcommit
  · cases hcommit
  have hsame := engine.flush_named txn
  split at hcommit
  · rename_i flushed hflush
    rw [hflush] at hsame
    cases hcommit
    rw [hsame.kin.handle]
    exact h.abort_replace (h.txn?_handle hmem) (h.writers txn (by simp [hwriters])) hsame.kin.handle
      hsame.kin.readOnly hsame.named
  · cases hcommit

/-- A nested transaction whose commit is refused is broken. It ends as by an abort, and breaks the
transaction that it is nested in. -/
theorem Roster.commitWriter_nested (h : Roster engine)
    (hwriters : engine.writers = txn :: parent :: rest)
    (hcommit : engine.commitWriter txn (parent :: rest) = (.error code, after)) :
    after = (engine.abort txn.handle).breakTxn parent.handle := by
  have htxn : engine.txn? txn.handle = some txn := by simp [txn?, hwriters]
  have hwriter := h.writers txn (by simp [hwriters])
  have habort : engine.abort txn.handle =
      { engine with slots := engine.slots.discard txn.named, writers := parent :: rest } := by
    simp [abort, htxn, hwriter, hwriters, abortWriters]
  have hleft : Roster (engine.abort txn.handle) :=
    h.of_sublist (by simp [habort, hwriters]) (by simp [habort]) (by simp [habort])
  have hinnermost : (engine.abort txn.handle).writers = parent :: rest := by rw [habort]
  have hparent : (engine.abort txn.handle).txn? parent.handle = some parent :=
    hleft.txn?_handle (by simp [hinnermost])
  have hsame : ({ parent with broken := true } : Txn).handle = parent.handle := rfl
  have hbroken := hleft.replace_innermost hinnermost hsame
  have hengine := hleft.replace_writer (by simp [hinnermost]) hsame
  unfold commitWriter at hcommit
  dsimp only at hcommit
  split at hcommit
  · cases hcommit
    rw [breakTxn_of_some hparent, hengine, hbroken, habort]
    simp [abort, txn?, hwriter, abortWriters]
  · cases hcommit

end MappedStore.Engine
