import MappedStore.Proofs.Engine.Disuse
import MappedStore.Proofs.Unchecked
import MappedStore.Proofs.WriterLock

/-!
# Transactions that are of no more use

A transaction that its engine has broken can only be ended. Whatever is done through it fails
(`System.Disused.refuses`), and none begins in it (`System.Disused.refuses_begin`). This stays so
whatever happens in the process (`System.Disused.run`).
-/

namespace MappedStore.System

variable {system last : System} {action : Action} {env : EnvId} {txn : TxnId}

/-- Nothing can be done through a transaction: its engine has none behind it, or a writer that is
broken. -/
def Disused (system : System) (txn : TxnId) : Prop :=
  (system.engineOf txn).Disused (system.native txn)

namespace Disused

/-- A use of a database through a disused transaction. -/
theorem refuses_access (h : Disused system txn) (hsound : Sound system) {access : Access}
    (haccess : action.access? = some (txn, access)) :
    ∃ error, (system.act action).result = .error (.error error) := by
  obtain ⟨use, huse, -⟩ := use_of_access? haccess
  cases hgate : system.gateFault txn access with
  | some error => exact ⟨error, (act_refused haccess hgate).1⟩
  | none =>
      obtain ⟨code, hcode, hrefusal, -⟩ := (hsound.anchored.roster _).refusal_disused h use
      exact ⟨_, (fails_of_refusal haccess hgate huse hrefusal fun _ ↦ hcode).result⟩

/-- An open of a database through a disused transaction. -/
theorem refuses_open (h : Disused system txn) (hsound : Sound system) (name : Option String)
    (flags : DbFlags) :
    ∃ error, (system.act (.openDatabase txn name flags)).result = .error (.error error) := by
  obtain ⟨code, -, hrefusal, -⟩ := (hsound.anchored.roster _).refusal_disused h
    (.openDatabase (name.map Bytes.ofText) flags)
  have hopen : ∃ error, (system.openThrough txn name flags).result = .error (.error error) := by
    have houtcome := system.openThrough_outcome txn name flags
    generalize system.openThrough txn name flags = outcome at houtcome ⊢
    cases houtcome with
    | unready | misnamed | failed => exact ⟨_, rfl⟩
    | reopened _ hopened | opened _ hopened =>
        have hanswer : Engine.failure ((system.engineOf txn).openDatabase (system.native txn)
          (name.map Bytes.ofText) flags).1 = some code := hrefusal
        rw [hopened] at hanswer
        cases hanswer
  obtain ⟨error, herror⟩ := hopen
  exact ⟨error, by rw [act, Outcome.map, herror]; rfl⟩

/-- A commit of a disused transaction. -/
theorem refuses_commit (h : Disused system txn) :
    ∃ error, (system.act (.commit txn)).result = .error (.error error) := by
  cases hfault : (system.transaction txn).lifecycleFault with
  | some error => exact ⟨error, (act_unready rfl hfault).1⟩
  | none =>
      obtain ⟨code, hcode⟩ := Engine.commit_disused h
      have hcommit : ∃ error, (system.commit txn).result = .error (.error error) := by
        have houtcome := system.commit_outcome txn
        generalize system.commit txn = outcome at houtcome ⊢
        cases houtcome with
        | unready | failed => exact ⟨_, rfl⟩
        | committed _ hcommitted =>
            rw [hcommitted] at hcode
            cases hcode
      obtain ⟨error, herror⟩ := hcommit
      exact ⟨error, by rw [act, Outcome.map, herror]; rfl⟩

/-- Whatever is done through a disused transaction that can write fails, unless it aborts the
transaction. -/
theorem refuses (h : Disused system txn) (hreachable : Reachable system)
    (hwriter : (system.transaction txn).readOnly = false) (haction : action.through? = some txn)
    (habort : action ≠ .abort txn) (hdrop : action ≠ .drop txn) :
    ∃ error, (system.act action).result = .error (.error error) := by
  have hsound := hreachable.sound
  cases action with
  | commit owner =>
      obtain rfl := Option.some.inj haction
      exact h.refuses_commit
  | abort owner => exact absurd (congrArg Action.abort (Option.some.inj haction)) habort
  | drop owner => exact absurd (congrArg Action.drop (Option.some.inj haction)) hdrop
  | reset owner =>
      obtain rfl := Option.some.inj haction
      cases hfault : (system.transaction owner).lifecycleFault with
      | some error => exact ⟨error, (act_unready rfl hfault).1⟩
      | none => exact ⟨.txnNotReadOnly, by simp [act, System.reset, hfault, hwriter, Outcome.map,
          fail, Except.map]⟩
  | renew owner =>
      obtain rfl := Option.some.inj haction
      have hawake := hreachable.guarded.awake owner hwriter
      cases hstate : (system.transaction owner).state with
      | reset => exact absurd hstate hawake
      | _ => exact ⟨_, by rw [act, System.renew, hstate]; rfl⟩
  | openDatabase owner name flags =>
      obtain rfl := Option.some.inj haction
      exact h.refuses_open hsound name flags
  | get | stat | put | reserve | del | clear | dropDatabase =>
      obtain rfl := Option.some.inj haction
      exact h.refuses_access hsound rfl
  | _ => cases haction

/-- None begins in a disused transaction. -/
theorem refuses_begin (h : Disused system txn) (env : EnvId) (flags : TxnFlags) (thread : Nat) :
    ∃ error, (system.act (.begin env (some txn) flags thread)).result = .error (.error error) := by
  have hbegin : ∃ error, (system.begin env (some txn) flags thread).result
      = .error (.error error) := by
    have houtcome := system.begin_outcome env (some txn) flags thread
    generalize system.begin env (some txn) flags thread = outcome at houtcome ⊢
    cases houtcome with
    | refused | failed => exact ⟨_, rfl⟩
    | waits _ _ hroot => cases hroot
    | begun hfault _ hbegan =>
        obtain ⟨-, houter⟩ := of_beginFault hfault
        obtain rfl := (houter txn rfl).1
        obtain ⟨code, hcode⟩ := Engine.begin_disused h flags thread
        have hrefused : ((system.engine (system.transaction txn).env).begin
            (some (system.transaction txn).native) flags thread).1 = .error code := hcode
        rw [show (some txn).map system.native = some (system.transaction txn).native from rfl]
          at hbegan
        rw [hbegan] at hrefused
        cases hrefused
  obtain ⟨error, herror⟩ := hbegin
  exact ⟨error, by rw [act, Outcome.map, herror]; rfl⟩

/-! ## Every run -/

/-- No action is of any help to a disused transaction, and none lets another be nested in it. -/
theorem step (h : Disused system txn) (hsound : Sound system)
    (htxn : txn < system.transactions.length) (action : Action) :
    Disused (system.after action) txn := by
  have htransition := hsound.transition action
  have hidentity := htransition.identity htxn
  have henv : ((system.after action).transaction txn).env = (system.transaction txn).env :=
    congrArg (·.1) hidentity
  have hnative : (system.after action).native txn = system.native txn := congrArg (·.2.1) hidentity
  have hplace := hsound.anchored.env_lt txn htxn
  have hlt := hsound.anchored.native_lt txn htxn
  rw [Disused, engineOf, henv, hnative]
  unfold Disused at h
  rw [engineOf] at h hlt
  generalize (system.transaction txn).env = env at h hplace hlt ⊢
  generalize system.native txn = handle at h hlt ⊢
  generalize system.after action = after at htransition ⊢
  have hroster := hsound.anchored.roster
  -- an operation on any engine keeps what is disused, so it does not matter on which it is
  have hset : ∀ {other : EnvId} {engine : Engine},
      (Engine.Disused (system.engine other) handle → Engine.Disused engine handle) →
      Engine.Disused ((system.setEngine other engine).engine env) handle := fun hkept ↦
    engine_setEngine_induction
      (fun before after ↦ Engine.Disused before handle → Engine.Disused after handle)
      (fun _ ↦ id) hkept env h
  have hsetOf : ∀ {owner : TxnId} {engine : Engine},
      (Engine.Disused (system.engineOf owner) handle → Engine.Disused engine handle) →
      Engine.Disused ((system.setEngineOf owner engine).engine env) handle := hset
  have hused : ∀ {owner : TxnId} (use : Engine.Use) {engine : Engine},
      (system.engineOf owner).use (system.native owner) use = engine →
      Engine.Disused ((system.setEngineOf owner engine).engine env) handle := fun use _ huse ↦
    hset fun hdisused ↦ huse ▸ hdisused.use (hroster _) _ use
  cases htransition with
  | idle | files => exact h
  | openedEnvironment =>
      rw [engine, environment_append _ _ hplace]
      exact h
  | @closed other =>
      have hsame : ((system.modifyEnvironment other
          ({ · with closed := true, retained := [] })).environment env).engine
            = (system.environment env).engine :=
        field_modifyEnvironment (·.engine) (fun _ ↦ by rfl) system other env
      exact (congrArg (Engine.Disused · handle) hsame).mpr h
  | aside _ _ haside => exact hset fun hdisused ↦ hdisused.aside haside
  | used use => exact hused use rfl
  | @reopened owner name flags _ _ _ _ hopen | @opened owner name flags _ _ _ hopen =>
      simpa using hused (.openDatabase (name.map Bytes.ofText) flags) (congrArg Prod.snd hopen)
  | @dropped owner database _ _ _ _ _ hdrop =>
      simpa using hused (.drop database.slot true) (congrArg Prod.snd hdrop)
  | @began other parent flags thread native engine hfault hunlocked hbegin =>
      have hbegan := began_of_begin hbegin
      have hroot : parent.map system.native = none →
          flags.contains TxnFlags.readOnly = false → (system.engine other).writers = [] :=
        fun hparent hwriter ↦
          hsound.writers_eq_nil (hunlocked hwriter (Option.map_eq_none_iff.mp hparent))
      rw [engine_enter]
      exact engine_setEngine_induction (fun before after ↦ handle < before.nextHandle →
        Engine.Disused before handle → Engine.Disused after handle) (fun _ _ ↦ id)
        (fun hlt hdisused ↦ hdisused.of_began (hroster _) hlt hbegan hroot) env hlt h
  | @committed owner engine _ hcommit | @commitFailed owner _ engine _ hcommit =>
      have hkept : Engine.Disused (system.engineOf owner) handle →
          Engine.Disused engine handle := by
        intro hdisused
        have hcommitted := hdisused.commit (hroster _) (system.native owner)
        rwa [hcommit] at hcommitted
      simpa using hsetOf hkept
  | discarded =>
      simpa using hsetOf fun hdisused ↦ hdisused.abort (hroster _) _
  | reset =>
      simpa using hsetOf fun hdisused ↦ hdisused.reset _
  | @renewed owner thread engine _ hrenew =>
      have hkept : Engine.Disused (system.engineOf owner) handle →
          Engine.Disused engine handle := by
        intro hdisused
        have hrenewed := hdisused.renew (system.native owner) thread
        rwa [hrenew] at hrenewed
      simpa using hsetOf hkept

/-- Whatever happens, a disused transaction stays so. -/
theorem run (h : Disused system txn) (hsound : Sound system)
    (htxn : txn < system.transactions.length) (hrun : Run anything system last) :
    Disused last txn := by
  induction hrun with
  | nil => exact h
  | step run _ ih => exact ih.step (hsound.run run) (run.lt_length hsound htxn) _

end Disused

end MappedStore.System
