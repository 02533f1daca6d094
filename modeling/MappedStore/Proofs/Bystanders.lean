import MappedStore.Proofs.Gate
import MappedStore.Proofs.Scopes
import MappedStore.Proofs.Writers

/-!
# Readers while others act

What the actions of others leave of a transaction that only reads. Its engine keeps it as it is
(`Sound.reading_kept`), and nothing is ever nested in it (`Reachable.writer_of_parent`), so the
process has it as it was as well (`Transition.transaction_kept`). A handle that it accepts is only
lost to it by what a root hands over to the environment (`Sound.accepts_kept`).
-/

namespace MappedStore

open Engine

namespace Engine

variable {engine after : Engine} {handle : Nat} {reader : Txn}

/-- A use of another transaction leaves a reader as it is. -/
theorem Used.reading_kept (h : Used engine handle after) (hreader : reader ∈ engine.reading)
    (hne : reader.handle ≠ handle) : reader ∈ after.reading := by
  have hreplace : ∀ {before txn : Txn}, engine.txn? handle = some before →
      txn.handle = before.handle → reader ∈ (engine.replace txn).reading := fun htxn hhandle ↦
    mem_reading_replace hreader (by rwa [hhandle, handle_of_txn? htxn])
  cases h with
  | same => exact hreader
  | through slot htxn huses => exact hreplace htxn huses.kin.handle
  | mainFlags flags htxn => exact hreplace htxn rfl
  | occupied htxn hoccupies => exact hreplace htxn hoccupies.records.kin.handle
  | dropped htxn hslot hwriter huses =>
      exact hreplace htxn (huses.kin.trans (Txn.kin_without _ _ _)).handle

/-- A reset of another transaction leaves a reader as it is. -/
theorem WasReset.reading_kept (h : WasReset engine handle after) (hreader : reader ∈ engine.reading)
    (hne : reader.handle ≠ handle) : reader ∈ after.reading := by
  cases h with
  | same => exact hreader
  | @idle txn readers slot htxn =>
      refine mem_reading_replace hreader (?_ : _ ≠ txn.handle)
      rwa [handle_of_txn? htxn]

/-- A renewal of another transaction leaves a reader as it is. -/
theorem Renewed.reading_kept (h : Renewed engine handle after) (hreader : reader ∈ engine.reading)
    (hne : reader.handle ≠ handle) : reader ∈ after.reading := by
  cases h with
  | @mk txn readers slot htxn =>
      refine mem_reading_replace hreader (?_ : _ ≠ txn.handle)
      rwa [handle_of_txn? htxn]

/-- A begin leaves the readers as they are. -/
theorem Began.reading_kept {parent : Option Nat} {flags : TxnFlags}
    (h : Began engine parent flags handle after) (hreader : reader ∈ engine.reading) :
    reader ∈ after.reading := by
  cases h with
  | reading => exact List.mem_cons_of_mem _ hreader
  | root | nested => exact hreader

/-- The commit of another transaction leaves a reader as it is. -/
theorem Committed.reading_kept (h : Committed engine handle after)
    (hreader : reader ∈ engine.reading) (hne : reader.handle ≠ handle) : reader ∈ after.reading := by
  cases h with
  | @reader txn htxn =>
      rw [(endReader_cases engine txn true).2.1]
      refine List.mem_filter.mpr ⟨hreader, ?_⟩
      simpa [handle_of_txn? htxn] using hne
  | nested | root => exact hreader

/-- The end of another transaction leaves a reader as it is. -/
theorem Refused.reading_kept {middle : Engine} (h : Refused engine handle middle)
    (hroster : Roster engine) (hreader : reader ∈ engine.reading) (hne : reader.handle ≠ handle) :
    reader ∈ (middle.abort handle).reading := by
  have hmiddle := h.readers reader hreader hne
  cases (abort_cases (hroster.of_stays h.stays) handle).1 with
  | unknown htxn heq => exact heq.symm ▸ hmiddle
  | reader htxn hreadOnly hwriters hreading =>
      rw [hreading]
      exact List.mem_filter.mpr ⟨hmiddle, by simpa using hne⟩
  | writer htxn hwriter hsplit hinner hwriters hreading => exact hreading ▸ hmiddle

/-- Whatever others do, a reader stays as it is. -/
theorem Turn.reading_kept {actor : Option Nat} (h : Turn engine actor after)
    (hroster : Roster engine) (hreader : reader ∈ engine.reading)
    (hother : actor ≠ some reader.handle) : reader ∈ after.reading := by
  have hne : ∀ {handle : Nat}, some handle ≠ some reader.handle → reader.handle ≠ handle :=
    fun hne heq ↦ hne (congrArg some heq.symm)
  cases h with
  | aside haside =>
      obtain ⟨readers, next, -, rfl⟩ := haside
      exact hreader
  | used hused => exact hused.reading_kept hreader (hne hother)
  | reset hreset => exact hreset.reading_kept hreader (hne hother)
  | renewed hrenewed => exact hrenewed.reading_kept hreader (hne hother)
  | began hbegan => exact hbegan.reading_kept hreader
  | committed hcommitted => exact hcommitted.reading_kept hreader (hne hother)
  | ended hrefused => exact hrefused.reading_kept hroster hreader (hne hother)

end Engine

/-- A transaction in which another is nested does not only read. -/
theorem Reachable.writer_of_parent {system : System} (h : Reachable system) {txn parent : TxnId}
    (hparent : (system.transaction txn).parent = some parent) :
    (system.transaction parent).readOnly = false := by
  obtain ⟨checks, files, hrun⟩ := h
  have hstart := System.sound_start checks files
  induction hrun with
  | nil => simp [System.transaction, Transaction.ended] at hparent
  | @step last action run _ ih =>
      have hsound := hstart.run run
      have htransition := hsound.transition action
      rcases Nat.lt_or_ge txn last.transactions.length with hlt | hge
      · have hbefore : (last.transaction txn).parent = some parent :=
          (congrArg (·.2.2.2) (htransition.identity hlt)).symm.trans hparent
        have hparentLt := Nat.lt_trans (hsound.anchored.parent_lt txn parent hbefore) hlt
        exact (congrArg (·.2.2.1) (htransition.identity hparentLt)).trans (ih hbefore)
      · have hwrites := hsound.writes_parent hge hparent
        exact (congrArg (·.2.2.1) (htransition.identity hwrites.1)).trans
          (hsound.of_writes hwrites).1

/-- Whether an action only reads a database. -/
def Action.isRead : Action → Bool
  | .get .. | .stat .. => true
  | _ => false

namespace System

variable {system after : System} {action : Action} {env : EnvId} {reader txn : TxnId}

/-- The actions of others, and reads of a transaction itself, leave it as it is, if none is nested
in it. -/
theorem Transition.transaction_kept (h : Transition system action after)
    (hreader : reader < system.transactions.length)
    (hleaves : action.through? = some reader → action.isRead = true)
    (hchildless : ∀ txn, (after.transaction txn).parent ≠ some reader) :
    after.transaction reader = system.transaction reader := by
  have hparent : ∀ {txn : TxnId}, txn < system.transactions.length →
      (system.transaction txn).parent ≠ some reader := fun {txn} htxn hparent ↦
    hchildless txn ((congrArg (·.2.2.2) (h.identity htxn)).trans hparent)
  have hne : ∀ {txn : TxnId}, action.through? = some txn → action.isRead = false →
      reader ≠ txn := by
    rintro txn hthrough hread rfl
    simp [hleaves hthrough] at hread
  cases h with
  | idle | files | openedEnvironment | closed | aside | used => rfl
  | reopened | opened | dropped | reset | renewed =>
      exact transaction_modifyTransaction_of_ne _ _ (hne rfl rfl)
  | @began place parent flags thread native engine hfault hwriter hbegin =>
      refine transaction_enter_apart hreader fun hentrant ↦ ?_
      have hentrance : Entrance system place parent flags thread native engine _ :=
        ⟨hfault, hwriter, hbegin, rfl⟩
      exact hchildless system.transactions.length
        ((congrArg (·.parent) hentrance.transaction_eq).trans hentrant)
  | @committed txn engine hfault hcommit =>
      have hapart : ((system.setEngineOf txn engine).transaction txn).parent ≠ some reader :=
        hparent (lt_of_lifecycleFault hfault)
      rw [transaction_finish_apart _ (hne rfl rfl), transaction_handOver_apart (hne rfl rfl) hapart]
      · rfl
      · rwa [field_handOver (·.parent) (fun _ _ _ ↦ by rfl)]
  | @commitFailed txn code engine hfault hcommit =>
      have hapart : ((system.setEngineOf txn engine).transaction txn).parent ≠ some reader :=
        hparent (lt_of_lifecycleFault hfault)
      exact transaction_finish_apart _ (hne rfl rfl) hapart
  | @discarded action txn haction hstate =>
      have hapart : ((system.setEngineOf txn ((system.engineOf txn).abort
          (system.native txn))).transaction txn).parent ≠ some reader :=
        hparent (lt_of_state rfl hstate)
      have hapartTxn : reader ≠ txn := by
        rcases haction with rfl | rfl
        · exact hne rfl rfl
        · exact hne rfl rfl
      exact transaction_finish_apart _ hapartTxn hapart

/-- An action through a transaction that was never begun does nothing to engines. -/
theorem Transition.engine_kept (h : Transition system action after)
    (hthrough : action.through? = some txn) (htxn : system.transactions.length ≤ txn) (env : EnvId) :
    after.engine env = system.engine env := by
  have hgone : ∀ {other : TxnId}, action.through? = some other →
      other < system.transactions.length → after.engine env = system.engine env := by
    intro other hother hlt
    obtain rfl : other = txn := Option.some.inj (hother.symm.trans hthrough)
    exact absurd hlt (Nat.not_lt_of_le htxn)
  cases h with
  | idle | files => rfl
  | openedEnvironment | closed | began => simp [Action.through?] at hthrough
  | aside files haction => simp [haction] at hthrough
  | used use haction hfault => exact hgone (through_of_use haction) (lt_of_lifecycleFault hfault)
  | reopened hfault | opened hfault | dropped hfault | committed hfault | commitFailed hfault
  | reset hfault => exact hgone rfl (lt_of_lifecycleFault hfault)
  | renewed hstate => exact hgone rfl (lt_of_state hstate rfl)
  | discarded haction hstate =>
      refine hgone ?_ (lt_of_state rfl hstate)
      rcases haction with rfl | rfl <;> rfl

/-- The engine keeps a reader as it is, whatever goes through others. -/
theorem Sound.reading_kept (h : Sound system) (hreader : reader < system.transactions.length)
    {found : Engine.Txn} (hfound : found ∈ (system.engineOf reader).reading)
    (hhandle : found.handle = system.native reader) (hother : action.through? ≠ some reader) :
    found ∈ ((system.after action).engine (system.transaction reader).env).reading := by
  have henv := h.anchored.env_lt reader hreader
  have htransition := h.transition action
  by_cases hgone : ∃ txn, action.through? = some txn ∧ system.transactions.length ≤ txn
  · obtain ⟨txn, hthrough, hge⟩ := hgone
    rw [htransition.engine_kept hthrough hge]
    exact hfound
  · refine (htransition.turn h.anchored.roster henv).reading_kept (h.anchored.roster _) hfound ?_
    intro hactor
    obtain ⟨txn, hfilter, hnative⟩ := Option.map_eq_some_iff.mp hactor
    obtain ⟨hthrough, hsame⟩ := Option.filter_eq_some_iff.mp hfilter
    have htxn : txn < system.transactions.length := by
      by_contra hge
      exact hgone ⟨txn, hthrough, Nat.le_of_not_lt hge⟩
    obtain rfl : txn = reader := h.anchored.native_inj txn htxn reader hreader
      (of_decide_eq_true hsame) (hnative.trans hhandle)
    exact hother hthrough

/-! ## Admission -/

/-- A handle that can be used for reads in a transaction. -/
structure Admits (system : System) (txn : TxnId) (database : Database) : Prop where
  lifecycle : (system.transaction txn).lifecycleFault = none
  env_eq : database.env = (system.transaction txn).env
  accepts : system.checks = true → system.accepts txn database = true

variable {database : Database}

/-- The gate lets reads through a handle that can be used, if their keys are not too long. -/
theorem Admits.gateFault (h : Admits system txn database) (key : Option Bytes)
    (hkey : ∀ bytes, key = some bytes → bytes.length ≤ Engine.maxKeySize) :
    system.gateFault txn { database := database, key := key } = none := by
  have hguard : system.guardFault txn { database := database, key := key } = none := by
    simp [guardFault, h.lifecycle, h.env_eq]
  rw [System.gateFault, hguard, Option.none_or]
  split
  · rename_i hchecks
    unfold courtesyFault
    rw [h.accepts hchecks]
    cases key with
    | none => rfl
    | some bytes => simp [Nat.not_lt_of_le (hkey bytes rfl)]
  · rfl

/-- A handle through which the gate lets a read is one that can be used. -/
theorem admits_of_gateFault {key : Option Bytes}
    (h : system.gateFault txn { database := database, key := key } = none) :
    Admits system txn database := by
  obtain ⟨hguard, hcourtesy⟩ := Option.or_eq_none_iff.mp h
  obtain ⟨hlifecycle, henv⟩ := lifecycleFault_of_guardFault hguard
  refine ⟨hlifecycle, henv, fun hchecks ↦ ?_⟩
  rw [hchecks, if_pos rfl] at hcourtesy
  exact accepts_of_courtesyFault hcourtesy

/-- The live generation of a slot in a transaction that is not nested. -/
theorem liveGeneration_root (h : Anchored system)
    (hroot : (system.transaction txn).parent = none) (slot : Nat) :
    system.liveGeneration txn slot =
      match (system.transaction txn).record? slot with
      | some (.opened generation) => some generation
      | some .dropped => none
      | none => (system.retained (system.transaction txn).env).lookup slot := by
  rw [liveGeneration_eq h, hroot]
  rfl

/-- The commit of a root that has recorded a drop of the slot of a handle, or an open of it at
another generation. A reader that has recorded nothing about the slot itself loses the handle by
it. -/
structure ShutsOut (reader : TxnId) (database : Database) (system : System) (root : TxnId) :
    Prop where
  checks : system.checks = true
  unrecorded : (system.transaction reader).record? database.slot = none
  committed : (system.commit root).result = .ok ()
  parent : (system.transaction root).parent = none
  env_eq : (system.transaction root).env = database.env
  recorded : ∃ record, (system.transaction root).record? database.slot = some record ∧
    record ≠ .opened database.generation

/-- What an environment retains for a slot after the commit of a root. -/
theorem retained_commit (h : Anchored system) (hcommit : (system.commit txn).result = .ok ())
    (hroot : (system.transaction txn).parent = none) (slot : Nat) :
    ((system.after (.commit txn)).retained (system.transaction txn).env).lookup slot =
      match (system.transaction txn).record? slot with
      | some (.opened generation) => some generation
      | some .dropped => none
      | none => (system.retained (system.transaction txn).env).lookup slot := by
  obtain ⟨-, -, hretained, -⟩ := scopes_commit_root h hcommit hroot
  rw [show (system.after (.commit txn)).retained _ = _ from hretained, lookup_merge,
    Transaction.record?]
  cases (system.transaction txn).opened.lookup slot with
  | some generation => rfl
  | none =>
      by_cases hdropped : slot ∈ (system.transaction txn).dropped
      · simp [hdropped]
      · simp [hdropped]

/-- What an environment retains for a slot stays, unless it is closed or a root commits that has
recorded something else about the slot. -/
theorem Sound.retained_kept (h : Sound system) {slot generation : Nat}
    (henv : env < system.environments.length) (hclose : action ≠ .close env)
    (hstays : ∀ root, action = .commit root → (system.commit root).result = .ok () →
      (system.transaction root).parent = none → (system.transaction root).env = env →
      ∀ record, (system.transaction root).record? slot = some record → record = .opened generation)
    (hretained : (system.retained env).lookup slot = some generation) :
    ((system.after action).retained env).lookup slot = some generation := by
  have hrescoped := (h.transition action).rescoped h.anchored
  generalize hafter : system.after action = after at *
  have hkept : after.retained env = system.retained env →
      (after.retained env).lookup slot = some generation := fun hsame ↦ hsame ▸ hretained
  cases hrescoped with
  | same _ hsame => exact hkept (hsame env henv)
  | closed _ _ hsame =>
      rcases hsame env with hsame | ⟨rfl, -⟩
      · exact hkept hsame
      · exact absurd rfl hclose
  | opened _ _ _ _ _ hsame | dropped _ _ _ _ hsame | nested _ _ _ _ _ _ hsame =>
      exact hkept (hsame env)
  | @root txn _ hfault hcommit hparent _ _ hmerged hapart =>
      by_cases hplace : env = (system.transaction txn).env
      · subst hplace hafter
        rw [retained_commit h.anchored hcommit hparent slot]
        cases hfound : (system.transaction txn).record? slot with
        | none => exact hretained
        | some record => rw [hstays txn rfl hcommit hparent rfl record hfound]
      · exact hkept (hapart env hplace)

/-- A handle that a reader accepts stays accepted while the reader stays as it is, unless the commit
of a root shuts it out. -/
theorem Sound.accepts_kept (h : Sound system) (hreader : reader < system.transactions.length)
    (hroot : (system.transaction reader).parent = none)
    (henv : database.env = (system.transaction reader).env)
    (hkept : (system.after action).transaction reader = system.transaction reader)
    (hclose : action ≠ .close database.env) (hchecks : system.checks = true)
    (hstays : ∀ root, action = .commit root → ¬ ShutsOut reader database system root)
    (haccepts : system.accepts reader database = true) :
    (system.after action).accepts reader database = true := by
  have hlive := of_decide_eq_true haccepts
  refine decide_eq_true ?_
  have hrootAfter : ((system.after action).transaction reader).parent = none :=
    hkept.symm ▸ hroot
  rw [liveGeneration_root h.anchored hroot] at hlive
  rw [liveGeneration_root (h.act action).anchored hrootAfter, hkept]
  cases hrecord : (system.transaction reader).record? database.slot with
  | some record =>
      rw [hrecord] at hlive
      cases record with
      | opened | dropped => exact hlive
  | none =>
      rw [hrecord] at hlive
      refine h.retained_kept (h.anchored.env_lt reader hreader) (henv ▸ hclose)
        (fun root haction hcommit hparent hplace record hfound ↦ ?_) hlive
      by_contra hne
      exact hstays root haction ⟨hchecks, hrecord, hcommit, hparent, hplace.trans henv.symm, record,
        hfound, hne⟩

/-- A handle that was shut out is no longer live in the reader. -/
theorem ShutsOut.live_ne {root : TxnId} (hshut : ShutsOut reader database system root)
    (h : Sound system) (hroot : (system.transaction reader).parent = none)
    (henv : database.env = (system.transaction reader).env)
    (hkept : (system.after (.commit root)).transaction reader = system.transaction reader) :
    (system.after (.commit root)).liveGeneration reader database.slot
      ≠ some database.generation := by
  have hrootAfter : ((system.after (.commit root)).transaction reader).parent = none :=
    hkept.symm ▸ hroot
  have hplace : (system.transaction reader).env = (system.transaction root).env :=
    henv.symm.trans hshut.env_eq.symm
  rw [liveGeneration_root (h.act _).anchored hrootAfter, hkept, hshut.unrecorded, hplace]
  obtain ⟨record, hrecord, hne⟩ := hshut.recorded
  have hretained := retained_commit h.anchored hshut.committed hshut.parent database.slot
  rw [hrecord] at hretained
  refine fun hlive ↦ hne ?_
  have hlive' := hretained.symm.trans hlive
  cases record with
  | dropped => simp at hlive'
  | opened generation => exact congrArg SlotRecord.opened (Option.some.inj hlive')

end System

end MappedStore
