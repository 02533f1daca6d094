import MappedStore.Proofs.Gate
import MappedStore.Proofs.Handles
import MappedStore.Proofs.Identity
import MappedStore.Proofs.Retention

/-!
# Opens that are rolled back

An open of a slot that no generation is live for gives out a new one. Its record moves outwards with
each commit of the transaction that carries it (`Carries`), and until the last of them it lies
within that transaction (`Confined`). If the transaction is aborted instead, the record stays
there for good, and all others reject the handle for ever (`System.open_rolled_back`).
-/

namespace MappedStore

namespace System

variable {system : System} {action : Action} {env : EnvId} {slot generation : Nat}
  {txn opener carrier parent : TxnId} {name : Option String} {flags : DbFlags} {database : Database}

/-! ## Where the record of a new generation lies -/

/-- A generation that was given out for a slot and that only a transaction and those nested in it
have recorded. -/
structure Confined (system : System) (env : EnvId) (slot generation : Nat) (carrier : TxnId) :
    Prop where
  lt : carrier < system.transactions.length
  env_eq : (system.transaction carrier).env = env
  given : generation < system.nextGeneration env
  retained : (slot, generation) ∉ system.retained env
  opened : ∀ txn, (system.transaction txn).env = env →
    (slot, generation) ∈ (system.transaction txn).opened → carrier ∈ system.lineage txn

namespace Confined

/-- A confined generation is live only in the transaction that it is confined to and in those nested
in it. -/
theorem live (h : Confined system env slot generation carrier) (hanchored : Anchored system)
    (henv : (system.transaction txn).env = env)
    (hlive : system.liveGeneration txn slot = some generation) :
    carrier ∈ system.lineage txn := by
  induction txn using Nat.strongRecOn with
  | ind txn ih =>
      rw [liveGeneration_eq hanchored, Transaction.record?] at hlive
      cases hlookup : (system.transaction txn).opened.lookup slot with
      | some found =>
          obtain rfl : found = generation := by simpa [hlookup] using hlive
          exact h.opened txn henv (mem_of_lookup hlookup)
      | none =>
          by_cases hdropped : slot ∈ (system.transaction txn).dropped
          · simp [hlookup, hdropped] at hlive
          cases hparent : (system.transaction txn).parent with
          | none =>
              have hretained : (system.retained env).lookup slot = some generation := by
                simpa [System.retained, hlookup, hdropped, hparent, henv] using hlive
              exact absurd (mem_of_lookup hretained) h.retained
          | some parent =>
              have hlive' : system.liveGeneration parent slot = some generation := by
                simpa [hlookup, hdropped, hparent] using hlive
              have hmem := ih parent (hanchored.parent_lt txn parent hparent)
                ((hanchored.parent_env txn parent hparent).trans henv) hlive'
              exact (mem_lineage hanchored).mpr (.inr ⟨parent, hparent, hmem⟩)

/-- A transaction that has recorded a confined generation after an action was nested in the carrier
before it, unless the carrier has handed the generation over to it. -/
theorem opened_after (h : Confined system env slot generation carrier) (hsound : Sound system)
    (henv : ((system.after action).transaction txn).env = env)
    (hmem : (slot, generation) ∈ ((system.after action).transaction txn).opened) :
    txn < system.transactions.length ∧
      (carrier ∈ system.lineage txn ∨ action = .commit carrier ∧
        (system.commit carrier).result = .ok () ∧
          (system.transaction carrier).parent = some txn) := by
  have hlt : txn < system.transactions.length := by
    rcases hsound.touched action txn with hsame | ⟨hlt, -⟩
    · by_contra hge
      rw [scope_of_length_le (Nat.le_of_not_lt hge)] at hsame
      rw [show ((system.after action).transaction txn).opened = [] from congrArg (·.1) hsame] at hmem
      simp at hmem
    · exact hlt
  have henvBefore : (system.transaction txn).env = env :=
    (congrArg (·.1) ((hsound.transition action).identity hlt)).symm.trans henv
  refine ⟨hlt, ?_⟩
  have hmem' : (slot, generation) ∈ ((system.after action).scope txn).1 := hmem
  rcases hsound.touched action txn with hsame | ⟨-, htouched⟩
  · rw [hsame] at hmem'
    exact .inl (h.opened txn henvBefore hmem')
  cases htouched with
  | @opened name flags slot' generation' engine hopen hgeneration hscope =>
      rw [hscope] at hmem'
      rcases List.mem_cons.mp hmem' with hhead | hmem'
      · obtain ⟨rfl, rfl⟩ := Prod.mk.inj hhead
        rcases hgeneration with hlive | ⟨-, hnext⟩
        · exact .inl (h.live hsound.anchored henvBefore hlive)
        · -- a new generation is none of those that were given out
          have hgiven := h.given
          rw [hnext, henvBefore] at hgiven
          exact absurd hgiven (Nat.lt_irrefl _)
      · exact .inl (h.opened txn henvBefore hmem')
  | dropped hdrop hscope =>
      rw [hscope] at hmem'
      exact .inl (h.opened txn henvBefore (List.mem_filter.mp hmem').1)
  | @received child hcommit hparent hscope =>
      rw [hscope] at hmem'
      rcases mem_merge hmem' with hinner | houter
      · have hchildEnv := (hsound.anchored.parent_env child txn hparent).symm.trans henvBefore
        have hcarrier := h.opened child hchildEnv hinner
        rw [lineage_of_parent hsound.anchored hparent] at hcarrier
        rcases List.mem_cons.mp hcarrier with rfl | hcarrier
        · exact .inr ⟨rfl, hcommit, hparent⟩
        · exact .inl hcarrier
      · exact .inl (h.opened txn henvBefore houter)
  | handed hcommit hscope =>
      rw [hscope] at hmem'
      simp at hmem'

/-- An environment retains a confined generation after an action only if that commits the carrier,
which is a root. -/
theorem retained_after (h : Confined system env slot generation carrier) (hsound : Sound system)
    (hmem : (slot, generation) ∈ (system.after action).retained env) :
    action = .commit carrier ∧ (system.commit carrier).result = .ok () ∧
      (system.transaction carrier).parent = none := by
  have henvLt : env < system.environments.length := h.env_eq ▸ hsound.anchored.env_lt carrier h.lt
  have hrescoped := (hsound.transition action).rescoped hsound.anchored
  generalize system.after action = after at hmem hrescoped
  cases hrescoped with
  | same _ hretained => exact absurd (hretained env henvLt ▸ hmem) h.retained
  | opened _ _ _ _ _ hretained | dropped _ _ _ _ hretained | nested _ _ _ _ _ _ hretained =>
      exact absurd (hretained env ▸ hmem) h.retained
  | closed _ _ hretained =>
      rcases hretained env with hsame | ⟨-, hnone⟩
      · exact absurd (hsame ▸ hmem) h.retained
      · rw [hnone] at hmem
        simp at hmem
  | @root root after hfault hcommit hparent _ _ hretained hapart =>
      by_cases henv : (system.transaction root).env = env
      · subst henv
        rw [hretained] at hmem
        rcases mem_merge hmem with hinner | houter
        · have hcarrier := h.opened root rfl hinner
          rw [lineage_eq hsound.anchored, hparent] at hcarrier
          obtain rfl : carrier = root := List.mem_singleton.mp hcarrier
          exact ⟨rfl, hcommit, hparent⟩
        · exact absurd houter h.retained
      · exact absurd (hapart env (Ne.symm henv) ▸ hmem) h.retained

/-- A generation stays confined as long as the carrier does not commit. -/
theorem act (h : Confined system env slot generation carrier) (hsound : Sound system)
    (hstate : ((system.after action).transaction carrier).state ≠ .committed) :
    Confined (system.after action) env slot generation carrier := by
  have htransition := hsound.transition action
  have henvLt : env < system.environments.length := h.env_eq ▸ hsound.anchored.env_lt carrier h.lt
  have hcommit : action = .commit carrier → (system.commit carrier).result ≠ .ok () := by
    rintro rfl hcommit
    exact hstate (state_of_commit hcommit)
  refine ⟨htransition.lt_length h.lt,
    (congrArg (·.1) (htransition.identity h.lt)).trans h.env_eq,
    Nat.lt_of_lt_of_le h.given (htransition.nextGeneration_le henvLt), fun hmem ↦ ?_,
    fun txn henv hmem ↦ ?_⟩
  · obtain ⟨haction, hresult, -⟩ := h.retained_after hsound hmem
    exact hcommit haction hresult
  · obtain ⟨hlt, hinside | ⟨haction, hresult, -⟩⟩ := h.opened_after hsound henv hmem
    · rw [hsound.lineage_kept hlt]
      exact hinside
    · exact absurd hresult (hcommit haction)

/-- A nested carrier that commits confines what it has carried to its parent. -/
theorem outwards (h : Confined system env slot generation carrier) (hsound : Sound system)
    (hparent : (system.transaction carrier).parent = some parent) :
    Confined (system.after (.commit carrier)) env slot generation parent := by
  have htransition := hsound.transition (.commit carrier)
  have henvLt : env < system.environments.length := h.env_eq ▸ hsound.anchored.env_lt carrier h.lt
  have hparentLt := Nat.lt_trans (hsound.anchored.parent_lt carrier parent hparent) h.lt
  have hparentEnv := (hsound.anchored.parent_env carrier parent hparent).trans h.env_eq
  have hparentMem : parent ∈ system.lineage carrier := (mem_lineage hsound.anchored).mpr
    (.inr ⟨parent, hparent, self_mem_lineage hsound.anchored parent⟩)
  refine ⟨htransition.lt_length hparentLt,
    (congrArg (·.1) (htransition.identity hparentLt)).trans hparentEnv,
    Nat.lt_of_lt_of_le h.given (htransition.nextGeneration_le henvLt), fun hmem ↦ ?_,
    fun txn henv hmem ↦ ?_⟩
  · obtain ⟨-, -, hroot⟩ := h.retained_after hsound hmem
    simp [hparent] at hroot
  · obtain ⟨hlt, hcases⟩ := h.opened_after hsound henv hmem
    rw [hsound.lineage_kept hlt]
    rcases hcases with hinside | ⟨-, -, hreceiver⟩
    · exact lineage_trans hsound.anchored hparentMem hinside
    · obtain rfl : parent = txn := Option.some.inj (hparent.symm.trans hreceiver)
      exact self_mem_lineage hsound.anchored parent

/-- A generation stays confined along a run at whose end the carrier has not committed. -/
theorem run {allowed : System → Action → Prop} {last : System}
    (h : Confined system env slot generation carrier) (hsound : Sound system)
    (hrun : Run allowed system last) (hstate : (last.transaction carrier).state ≠ .committed) :
    Confined last env slot generation carrier := by
  induction hrun with
  | nil => exact h
  | @step before action run _ ih =>
      have hbefore := hsound.run run
      -- a transaction that has committed stays committed, so it has not committed before either
      have hnot : (before.transaction carrier).state ≠ .committed := by
        intro hcommitted
        rw [hbefore.finished_kept (run.lt_length hsound h.lt) (by rw [hcommitted]; rfl)] at hstate
        exact hstate hcommitted
      exact (ih hnot).act hbefore hstate

end Confined

/-- The open of a slot that no generation is live for confines a new one to its transaction. -/
theorem confined_of_open (hsound : Sound system)
    (hopen : (system.openThrough txn name flags).result = .ok database)
    (hminted : system.liveGeneration txn database.slot = none) :
    Confined (system.after (.openDatabase txn name flags)) database.env database.slot
      database.generation txn := by
  have htransition := hsound.transition (.openDatabase txn name flags)
  have hissued := hsound.issued hopen
  obtain ⟨engine, hopened⟩ := openedThrough_of_ok hopen
  have hlt := lt_of_lifecycleFault hopened.fault
  have hnew : database.generation = system.nextGeneration (system.transaction txn).env := by
    rcases hopened.generation with hlive | ⟨-, hnext⟩
    · simp [hlive] at hminted
    · exact hnext
  refine ⟨htransition.lt_length hlt, (congrArg (·.1) (htransition.identity hlt)).trans
    hopened.env_eq.symm, hissued.generation_lt, fun hmem ↦ ?_, fun other henv hmem ↦ ?_⟩
  · rw [hopened.retained_eq, hnew, hopened.env_eq] at hmem
    exact absurd (hsound.numbered.retained _ _ hmem) (Nat.lt_irrefl _)
  · by_cases hother : other = txn
    · exact hother ▸ self_mem_lineage (hsound.act _).anchored other
    · -- Any other transaction would have recorded the generation before it was given out.
      have hbefore : (database.slot, database.generation) ∈ (system.transaction other).opened := by
        rwa [show ((system.after (.openDatabase txn name flags)).transaction other).opened
          = (system.transaction other).opened from
            congrArg Prod.fst (hopened.scope_of_ne other hother)] at hmem
      have hltOther : other < system.transactions.length := by
        by_contra hge
        rw [transaction_of_length_le (Nat.le_of_not_lt hge)] at hbefore
        simp [Transaction.ended] at hbefore
      have henvBefore := (congrArg (·.1) (htransition.identity hltOther)).symm.trans henv
      have hnumbered := hsound.numbered.opened other _ hbefore
      rw [show (system.transaction other).env = (system.transaction txn).env from
        henvBefore.trans hopened.env_eq, hnew] at hnumbered
      exact absurd hnumbered (Nat.lt_irrefl _)

/-- Runs since an open, with the transaction that its record has got to: first the one that has
opened the database, and with each commit of that transaction the parent of it. -/
inductive Carries (first : System) (opener : TxnId) : System → TxnId → Prop where
  | opener {last : System} (run : Run anything first last) : Carries first opener last opener
  | outwards {middle last : System} {carrier parent : TxnId}
      (h : Carries first opener middle carrier)
      (hparent : (middle.transaction carrier).parent = some parent)
      (hcommit : (middle.commit carrier).result = .ok ())
      (run : Run anything (middle.after (.commit carrier)) last) :
      Carries first opener last parent

namespace Carries

variable {first last : System}

/-- What a transaction carries since an open has come there by a run. -/
theorem run (h : Carries first opener last carrier) : Run anything first last := by
  induction h with
  | opener run => exact run
  | outwards _ _ _ run ih => exact (ih.step trivial).trans run

/-- A new generation is confined to the transaction that its record has got to, unless that has
committed. -/
theorem confined (h : Carries first opener last carrier) (hsound : Sound first)
    (hconfined : Confined first env slot generation opener)
    (hstate : (last.transaction carrier).state ≠ .committed) :
    Confined last env slot generation carrier := by
  induction h with
  | opener run => exact hconfined.run hsound run hstate
  | @outwards middle last carrier parent h hparent hcommit run ih =>
      have hmiddle := hsound.run h.run
      have hactive : (middle.transaction carrier).state ≠ .committed := by
        rw [(active_of_lifecycleFault (lifecycleFault_of_commit hcommit)).1]
        simp
      exact ((ih hactive).outwards hmiddle hparent).run (hmiddle.act _) run hstate

end Carries

/-! ## Rejections -/

/-- No transaction around this one has ended. -/
def Sheltered (system : System) (txn : TxnId) : Prop :=
  ∀ outer ∈ system.lineage txn, outer ≠ txn → (system.transaction outer).state.isFinished = false

/-- Every use of a handle through a transaction fails and changes nothing: by what the memory guards
object to, or else because the handle is not retained. -/
def Refuses (system : System) (txn : TxnId) (database : Database) : Prop :=
  ∀ action access, action.access? = some (txn, access) → access.database.env = database.env →
    access.database.slot = database.slot → access.database.generation = database.generation →
    (system.act action).result = .error (.error
        ((system.guardFault txn access).getD (.databaseNotRetained database.slot))) ∧
      system.after action = system

/-- A generation that is confined to a transaction that has ended is rejected by all that are not
left over from it. -/
theorem Confined.refuses
    (h : Confined system database.env database.slot database.generation carrier)
    (hsound : Sound system) (hchecks : system.checks = true)
    (hfinished : (system.transaction carrier).state.isFinished = true)
    (hsheltered : Sheltered system txn) : Refuses system txn database := by
  intro action access haccess henv hslot hgeneration
  refine act_refused haccess ?_
  cases hguard : system.guardFault txn access with
  | some error => simp [gateFault, hguard]
  | none =>
      obtain ⟨hfault, hplace⟩ := lifecycleFault_of_guardFault hguard
      have hnotLive : system.liveGeneration txn access.database.slot
          ≠ some access.database.generation := by
        intro hlive
        rw [hslot, hgeneration] at hlive
        have hinside := h.live hsound.anchored (hplace.symm.trans henv) hlive
        have hunfinished : (system.transaction carrier).state.isFinished = false := by
          by_cases hself : carrier = txn
          · rw [hself, (active_of_lifecycleFault hfault).1]
            rfl
          · exact hsheltered carrier hinside hself
        simp [hfinished] at hunfinished
      rw [gateFault_of_not_live hchecks hnotLive, hguard, hslot]

end System

/-- The transactions around one that is held are held too, and have not ended. -/
theorem Client.Orderly.sheltered {client : Client} (h : client.Orderly) {txn : TxnId}
    (hheld : txn ∈ client.held) : client.system.Sheltered txn := by
  have hanchored := h.sound.anchored
  induction txn using Nat.strongRecOn with
  | ind txn ih =>
      intro outer houter hne
      rcases (System.mem_lineage hanchored).mp houter with rfl | ⟨parent, hparent, houter⟩
      · exact absurd rfl hne
      obtain ⟨hparentHeld, hunfinished⟩ := h.lineal txn hheld parent hparent
      by_cases heq : outer = parent
      · exact heq ▸ hunfinished
      · exact ih parent (hanchored.parent_lt txn parent hparent) hparentHeld outer houter heq

namespace System

/-- A handle that was given out with a new generation is accepted, until the transaction that
carries its record commits, only in that transaction and in those nested in it. If that transaction
is aborted instead, by whatever way it ended so, then from then on every transaction rejects the
handle, in whatever way transactions follow each other and slots are given out again: all but those
left over from a transaction that ended around them, which nobody holds. -/
theorem open_rolled_back {first last : System} {opener carrier : TxnId} {name : Option String}
    {flags : DbFlags} {database : Database} (hfirst : Reachable first)
    (hchecks : first.checks = true)
    (hopen : (first.openThrough opener name flags).result = .ok database)
    (hminted : first.liveGeneration opener database.slot = none)
    (hcarries : Carries (first.after (.openDatabase opener name flags)) opener last carrier) :
    ((last.transaction carrier).state ≠ .committed → ∀ txn,
        (last.transaction txn).env = database.env → last.accepts txn database = true →
        carrier ∈ last.lineage txn) ∧
      ((last.transaction carrier).state = .aborted →
        (∀ txn, Sheltered last txn → Refuses last txn database) ∧
          ∀ client : Client, client.Reachable → client.system = last →
            ∀ txn ∈ client.held, Refuses last txn database) := by
  have hsound := hfirst.sound
  have hopened := hsound.act (.openDatabase opener name flags)
  have hlast := hopened.run hcarries.run
  have hchecksLast : last.checks = true :=
    (hcarries.run.checks hopened).trans ((hsound.transition _).checks.trans hchecks)
  have hconfined := hcarries.confined hopened (confined_of_open hsound hopen hminted)
  refine ⟨fun hstate txn henv haccepts ↦ ?_, fun haborted ↦ ?_⟩
  · exact (hconfined hstate).live hlast.anchored henv (of_decide_eq_true haccepts)
  · have hrefuses : ∀ txn, Sheltered last txn → Refuses last txn database := fun txn hsheltered ↦
      (hconfined (by simp [haborted])).refuses hlast hchecksLast (by rw [haborted]; rfl) hsheltered
    refine ⟨hrefuses, ?_⟩
    rintro client hclient rfl txn hheld
    exact hrefuses txn (hclient.orderly.sheltered hheld)

/-- A nested transaction opens a database and commits, and its parent is aborted. A transaction that
begins afterwards rejects the handle, although its slot was given out again. -/
theorem open_rolled_back_nested :
    let database : Database := ⟨3, 2, 0, some "b", DbFlags.create⟩
    let first := sample.afterAll [.begin 0 none .empty mainThread, .begin 0 (some 1) .empty mainThread]
    let opened := first.after (.openDatabase 2 (some "b") DbFlags.create)
    let last := (opened.after (.commit 2)).afterAll [.abort 1,
      .begin 0 none .empty mainThread, .openDatabase 3 (some "c") DbFlags.create]
    (first.openThrough 2 (some "b") DbFlags.create).result = .ok database ∧
      Carries opened 2 last 1 ∧ (last.transaction 1).state = .aborted ∧
      (last.act (.get 3 database [107])).result = .error (.error (.databaseNotRetained 3)) := by
  intro database first opened last
  have hopen : (first.openThrough 2 (some "b") DbFlags.create).result = .ok database := by
    decide +kernel
  have hcarries : Carries opened 2 last 1 :=
    .outwards (.opener .nil) (by decide +kernel) (by decide +kernel)
      (Run.all (opened.after (.commit 2)) _)
  have haborted : (last.transaction 1).state = .aborted := by decide +kernel
  have hsheltered : Sheltered last 3 := by
    unfold Sheltered
    decide +kernel
  have hfirst : Reachable first := sample_reachable.run (Run.all sample _)
  have hrefuses := (open_rolled_back hfirst (by decide +kernel) hopen (by decide +kernel)
    hcarries).2 haborted
  obtain ⟨hresult, -⟩ := hrefuses.1 3 hsheltered (.get 3 database [107])
    { database := database, key := some [107] } rfl rfl rfl rfl
  have hguard : last.guardFault 3 { database := database, key := some [107] } = none := by
    decide +kernel
  rw [hguard] at hresult
  exact ⟨hopen, hcarries, haborted, hresult⟩

end System

end MappedStore
