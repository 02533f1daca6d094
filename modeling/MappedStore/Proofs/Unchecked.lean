import MappedStore.Proofs.Engine.Refusing
import MappedStore.Proofs.Identity
import MappedStore.Proofs.Settings
import MappedStore.Proofs.Switch

/-!
# What the engine refuses by itself

A courtesy check is no more than a courtesy where the engine would refuse the action as well.
`System.refused_unchecked` says where it does (`System.Covered`), and what happens elsewhere with
the checks off: the engine looks keys of any length up, and finds nothing, and through a slot that
it still lets the transaction use it works on the occupant of the slot.
-/

namespace MappedStore

open Error (ofCode)
open Engine (Use failure)

/-- Whether an action stores a value. -/
def Action.stores : Action → Bool
  | .put .. | .reserve .. => true
  | _ => false

namespace System

variable {α β : Type} {system left : System} {action : Action} {txn : TxnId} {access : Access}
  {error : Error} {use : Use} {code : Code} {env : EnvId}

/-! ## Refusals of the engine -/

/-- A failure is told apart by its code. -/
theorem eq_of_failure {result : Except Code α} (h : failure result = some code) :
    result = .error code := by
  cases result with
  | ok value => cases h
  | error other => exact congrArg Except.error (Option.some.inj h)

/-- An operation that fails with a code of the engine and leaves a process. -/
structure Fails (outcome : Outcome α) (code : Code) (left : System) : Prop where
  result : outcome.result = .error (.error (ofCode code))
  state : outcome.state = left

/-- A use of the engine that is refused. -/
theorem fails_relay [Inhabited α] {call : Call} {run : Engine → Engine.Answer Engine α}
    (hproper : Engine.Proper (run (system.engine env)))
    (h : failure (run (system.engine env)).1 = some code) :
    Fails (system.relay env call run) code (system.setEngine env (run (system.engine env)).2) := by
  refine ⟨?_, system.relay_state ..⟩
  rcases system.relay_cases env call run hproper with
    ⟨other, engine, hrun, heq⟩ | ⟨value, engine, hrun, -⟩
  · rw [hrun] at h
    rw [heq, show other = code from Option.some.inj h]
  · rw [hrun] at h
    cases h

/-- A search that is refused, unless there is nothing to be found. -/
theorem fails_seek {call : Call} {run : Engine → Engine.Answer Engine α}
    (h : failure (run (system.engine env)).1 = some code) (hcode : code ≠ Condition.notFound.code) :
    Fails (system.seek env call run) code (system.setEngine env (run (system.engine env)).2) := by
  refine ⟨?_, system.seek_state ..⟩
  rw [seek_result, eq_of_failure h]
  exact if_neg hcode

/-- A failed operation whose result would be passed on in another form. -/
theorem Fails.map {outcome : Outcome α} (h : Fails outcome code left) (change : α → β) :
    Fails (outcome.map change) code left := by
  refine ⟨?_, h.state⟩
  rw [Outcome.map, h.result]
  rfl

/-- A failed operation after some events. -/
theorem Fails.after {outcome : Outcome α} (h : Fails outcome code left) (events : List Event) :
    Fails (outcome.after events) code left :=
  ⟨h.result, h.state⟩

/-- Nothing follows a failed operation. -/
theorem Fails.andThen {outcome : Outcome α} (h : Fails outcome code left)
    (following : α → System → Outcome β) : Fails (outcome.andThen following) code left := by
  obtain ⟨hresult, hstate⟩ := andThen_of_error following h.result
  exact ⟨hresult, hstate.trans h.state⟩

/-- With the courtesy checks off, the gate lets an access through that is not against the guards. -/
theorem gateFault_unchecked (hchecks : system.checks = false)
    (hguard : system.guardFault txn access = none) : system.gateFault txn access = none := by
  rw [gateFault, hguard, hchecks]
  rfl

/-- An action on a database that the gate lets through fails if the engine refuses the use of it,
unless the engine has found nothing. The process is left with what the engine has made of it. -/
theorem fails_of_refusal (haccess : action.access? = some (txn, access))
    (hgate : system.gateFault txn access = none)
    (huse : action.use? = some (txn, use))
    (hrefusal : (system.engineOf txn).refusal (system.native txn) use = some code)
    (hcode : action.stores = false → code ≠ Condition.notFound.code) :
    Fails (system.act action) code
      (system.setEngineOf txn ((system.engineOf txn).use (system.native txn) use)) := by
  have haccessed : ∀ {α : Type} (use : Transaction → Outcome α) {left : System},
      Fails (use (system.transaction txn)) code left →
      Fails (system.withAccess txn access use) code left := fun use _ h ↦ by
    rw [withAccess_passed use hgate]
    exact h.after _
  cases action with
  | get owner database key =>
      cases haccess
      cases huse
      rw [act, get_eq_seek]
      exact (haccessed _ (fails_seek (by exact hrefusal) (hcode rfl))).map _
  | del owner database key item =>
      cases haccess
      cases huse
      rw [act, del_eq_seek]
      exact (haccessed _ ((fails_seek (by exact hrefusal) (hcode rfl)).map _)).map _
  | stat =>
      cases haccess
      cases huse
      refine (haccessed _ ?_).map _
      exact fails_relay (Engine.proper_statOf ..) (by exact hrefusal)
  | clear =>
      cases haccess
      cases huse
      refine (haccessed _ ?_).map _
      exact fails_relay (Engine.proper_drop ..) (by exact hrefusal)
  | put owner database key value flags =>
      cases haccess
      cases huse
      refine (haccessed _ (Fails.after ?_ _)).map _
      exact fails_relay (Engine.proper_put ..) (by exact hrefusal)
  | reserve owner database key data flags =>
      cases haccess
      cases huse
      -- The use also fills what has been reserved, but after a refusal there is nothing to fill.
      obtain ⟨result, stored, hput⟩ : ∃ result stored, (system.engineOf txn).put (system.native txn)
        database.slot key (.reserved data.length) (flags.union WriteFlags.reserve)
          = (result, stored) := ⟨_, _, rfl⟩
      have hresult : result = .error code := by
        rw [Engine.refusal, hput] at hrefusal
        exact eq_of_failure hrefusal
      have hreserved : Fails (system.reserve txn database key data.length flags) code
          (system.setEngineOf txn stored) := by
        refine haccessed _ (Fails.map ⟨?_, ?_⟩ _)
        · exact (fails_relay (Engine.proper_put ..) (by exact hrefusal)).result
        · rw [relay_state]
          exact congrArg (system.setEngineOf txn) (congrArg Prod.snd hput)
      rw [Engine.use, hput, hresult]
      exact (hreserved.andThen _).map _
  | dropDatabase owner database =>
      cases haccess
      cases huse
      refine (haccessed _ (Fails.andThen ?_ _)).map _
      exact fails_relay (Engine.proper_drop ..) (by exact hrefusal)
  | _ => cases haccess

/-- An action on a database that the gate lets through fails only if the engine refuses the use of
it, with what the engine answers. -/
theorem refusal_of_error (haccess : action.access? = some (txn, access))
    (hgate : system.gateFault txn access = none)
    (h : (system.act action).result = .error (.error error)) :
    ∃ use code, action.use? = some (txn, use) ∧
      (system.engineOf txn).refusal (system.native txn) use = some code ∧ error = ofCode code := by
  obtain ⟨use, hact, hraises⟩ := system.act_of_access haccess
  rw [hact, withAccess_passed use hgate] at h
  refine hraises (fun fault ↦ ∃ use code, action.use? = some (txn, use) ∧
    (system.engineOf txn).refusal (system.native txn) use = some code ∧ fault = ofCode code)
    (fun engineUse code huse hrefusal ↦ ⟨engineUse, code, huse, hrefusal, rfl⟩) error h

/-! ## The data of a process -/

/-- Two processes with the same data: the transactions, the tables of slots, the images, what each
transaction has as its snapshot, and what it sees through each slot. -/
structure SameData (before left : System) : Prop where
  transactions : left.transactions = before.transactions
  files : left.files = before.files
  environment : ∀ env, ∃ engine,
    left.environment env = { before.environment env with engine := engine }
  image : ∀ env, (left.engine env).image = (before.engine env).image
  slots : ∀ env, (left.engine env).slots = (before.engine env).slots
  snapshot : ∀ env handle, ((left.engine env).txn? handle).map Engine.Txn.snapshot
    = ((before.engine env).txn? handle).map Engine.Txn.snapshot
  sees : ∀ env handle slot table,
    (left.engine env).Sees handle slot table ↔ (before.engine env).Sees handle slot table

/-- The switch is no part of the data. -/
theorem sameData_withChecks (system : System) (checks : Bool) :
    SameData system (system.withChecks checks) :=
  ⟨rfl, rfl, fun env ↦ ⟨system.engine env, rfl⟩, fun _ ↦ rfl, fun _ ↦ rfl, fun _ _ ↦ rfl,
    fun _ _ _ _ ↦ .rfl⟩

/-- Reading the table of a slot changes no data. -/
theorem sameData_peeked (hcoherent : ∀ env, Engine.Coherent (system.engine env)) {handle : Nat}
    {engine : Engine} (h : Engine.Peeked (system.engine env) handle engine) (checks : Bool) :
    SameData system ((system.withChecks checks).setEngine env engine) := by
  have hsame := h.same_data fun txn htxn ↦
    (hcoherent env txn (Engine.mem_of_txn? htxn)).mainStale
  have hengine : ∀ property : Engine → Engine → Prop, (∀ engine, property engine engine) →
      property (system.engine env) engine → ∀ other, property (system.engine other)
        (((system.withChecks checks).setEngine env engine).engine other) :=
    fun property hrefl h other ↦ engine_setEngine_induction property hrefl h other
  refine ⟨rfl, rfl, fun other ↦ ?_, ?_, ?_, ?_, ?_⟩
  · refine modifyEnvironment_induction
      (fun before later ↦ ∃ engine, later = { before with engine := engine })
      (fun before ↦ ⟨before.engine, rfl⟩) ?_ other
    exact ⟨engine, rfl⟩
  · exact hengine (fun before later ↦ later.image = before.image) (fun _ ↦ rfl) hsame.1
  · exact hengine (fun before later ↦ later.slots = before.slots) (fun _ ↦ rfl) hsame.2.1
  · exact hengine (fun before later ↦ ∀ handle, (later.txn? handle).map Engine.Txn.snapshot
      = (before.txn? handle).map Engine.Txn.snapshot) (fun _ _ ↦ rfl) hsame.2.2.1
  · exact hengine (fun before later ↦ ∀ handle slot table,
      later.Sees handle slot table ↔ before.Sees handle slot table) (fun _ _ _ _ ↦ .rfl) hsame.2.2.2

/-- The invariants of a process are no concern of the switch. -/
theorem Sound.withChecks (h : Sound system) (checks : Bool) : Sound (system.withChecks checks) where
  anchored := ⟨h.anchored.1, h.anchored.2, h.anchored.3, h.anchored.4, h.anchored.5, h.anchored.6⟩
  chained := fun env ↦ by
    obtain ⟨ids, hchain⟩ := h.chained env
    have hnested : ∀ ids, Nested system ids → Nested (system.withChecks checks) ids := by
      intro ids
      induction ids with
      | nil => exact fun h ↦ h
      | cons txn rest ih => exact fun h ↦ ⟨h.1, ih h.2⟩
    exact ⟨ids, hchain.1, hnested ids hchain.2, hchain.3, hchain.4, hchain.5, hchain.6, hchain.7⟩
  attended := ⟨fun env ↦ ⟨(h.attended.1 env).1, (h.attended.1 env).2⟩, h.attended.2⟩
  numbered := ⟨h.numbered.1, h.numbered.2⟩

/-! ## Actions that the engine refuses as well -/

/-- An action on a database lets the engine do something with the slot of the handle. It writes
there, and stores a value there, as the action does. -/
theorem use_of_access? (haccess : action.access? = some (txn, access)) :
    ∃ use, action.use? = some (txn, use) ∧ use.slot? = some access.database.slot ∧
      (access.writes = true → use.writes = true) ∧
      (action.stores = true → use.stored? = access.key) := by
  cases action with
  | get | stat | put | reserve | del | clear | dropDatabase =>
      cases haccess
      refine ⟨_, rfl, rfl, fun h ↦ ?_, fun h ↦ ?_⟩
      all_goals first | rfl | cases h
  | _ => cases haccess

/-- An action on a database that the engine refuses by itself: it does not let the transaction use
the slot, the action writes and the transaction only reads, or a value is to be stored under a key
that is too long. -/
def Covered (system : System) (action : Action) : Prop :=
  ∀ txn access, action.access? = some (txn, access) →
    (system.engineOf txn).Bars (system.native txn) access.database.slot ∨
      access.writes = true ∧ (system.transaction txn).readOnly = true ∨
      action.stores = true ∧ ∃ key, access.key = some key ∧ Engine.maxKeySize < key.length

/-- An operation is rejected: it fails with an error of the engine, and leaves the data of the
process. -/
structure Rejected (system : System) (outcome : Outcome α) : Prop where
  result : ∃ code, outcome.result = .error (.error (ofCode code))
  data : SameData system outcome.state

/-- A failed operation that leaves the data. -/
theorem Fails.rejected {outcome : Outcome α} (h : Fails outcome code left)
    (hdata : SameData system left) : Rejected system outcome :=
  ⟨⟨code, h.result⟩, h.state ▸ hdata⟩

/-- With the courtesy checks off, the engine refuses to flush an environment that is read-only. -/
theorem rejected_sync (h : Marked system) (hopen : (system.environment env).closed = false)
    (hreadOnly : (system.environment env).isReadOnly = true) :
    Rejected system ((system.withChecks false).act (.sync env)) := by
  have hsync : ((system.withChecks false).engine env).sync = Engine.denied := by
    unfold Engine.sync
    rw [show ((system.withChecks false).engine env).flags.contains EnvFlags.readOnly = true from
      (h env).trans hreadOnly]
    rfl
  have hfails : Fails ((system.withChecks false).act (.sync env)) Engine.denied
      (system.withChecks false) := by
    refine Fails.map ?_ _
    have houtcome := (system.withChecks false).sync_outcome env
    generalize (system.withChecks false).sync env = outcome at houtcome ⊢
    cases houtcome with
    | closed hclosed =>
        rw [environment_withChecks, hopen] at hclosed
        cases hclosed
    | objected _ hchecks => cases hchecks
    | failed => exact ⟨by rw [hsync], rfl⟩
    | flushed _ _ hcode =>
        rw [hsync] at hcode
        exact absurd hcode (by decide)
  exact hfails.rejected (sameData_withChecks system false)

/-- With the courtesy checks off, the engine refuses an action on a database that it refuses by
itself. -/
theorem rejected_access (h : Reachable system) (haccess : action.access? = some (txn, access))
    (hguard : system.guardFault txn access = none) (hcovered : Covered system action) :
    Rejected system ((system.withChecks false).act action) := by
  have hroster := h.sound.anchored.roster (system.transaction txn).env
  obtain ⟨use, huse, hslot, hwrites, hstores⟩ := use_of_access? haccess
  have hrejected : ∀ code, (system.engineOf txn).refusal (system.native txn) use = some code →
      (action.stores = false → code ≠ Condition.notFound.code) →
      Engine.Peeked (system.engineOf txn) (system.native txn)
        ((system.engineOf txn).use (system.native txn) use) →
      Rejected system ((system.withChecks false).act action) := by
    intro code hrefusal hcode hpeeked
    have hfails : Fails ((system.withChecks false).act action) code
        ((system.withChecks false).setEngineOf txn
          ((system.engineOf txn).use (system.native txn) use)) :=
      fails_of_refusal haccess (gateFault_unchecked rfl hguard) huse hrefusal hcode
    exact hfails.rejected (sameData_peeked h.coherent hpeeked false)
  have hspurned : ∀ {codes : Code → Prop}, ¬codes Condition.notFound.code →
      (system.engineOf txn).Spurns (system.native txn) use codes →
      Rejected system ((system.withChecks false).act action) := by
    rintro codes hfound ⟨code, hcode, hrefusal, hengine⟩
    refine hrejected code hrefusal (fun _ heq ↦ hfound (heq ▸ hcode)) ?_
    rw [hengine]
    exact .same
  rcases hcovered txn access haccess with hbars | ⟨hwrite, hreadOnly⟩ | ⟨hstore, key, hkey, hlong⟩
  · exact hspurned (by decide) (hroster.refusal_barred hbars hslot)
  · obtain ⟨found, -, hfound, hreader, -⟩ := h.sound.attended.awake h.sound.anchored hreadOnly
      (active_of_lifecycleFault (lifecycleFault_of_guardFault hguard).1).1
    exact hspurned (by decide) (hroster.refusal_reader hfound hreader (hwrites hwrite))
  · obtain ⟨⟨code, hrefusal⟩, hpeeked⟩ :=
      Engine.refusal_long ((hstores hstore).trans hkey) hlong
    exact hrejected code hrefusal (fun hnot ↦ absurd hstore (by simp [hnot])) hpeeked

/-! ## Actions that the engine carries out -/

/-- The engine lets a transaction use a slot, through which the transaction sees a table. -/
def Reaches (system : System) (txn : TxnId) (slot : Nat) (table : Engine.Table) : Prop :=
  ∃ found, (system.engineOf txn).txn? (system.native txn) = some found ∧
    (system.engineOf txn).isBlocked found = false ∧
    found.Sees (system.engineOf txn).slots slot table

/-- An operation is answered, and leaves the data of the process. -/
structure Answered (system : System) (outcome : Outcome α) (answer : α) : Prop where
  result : outcome.result = .ok answer
  data : SameData system outcome.state

/-- An answer that is passed on in another form. -/
theorem Answered.map {outcome : Outcome α} {answer : α} (h : Answered system outcome answer)
    (change : α → β) : Answered system (outcome.map change) (change answer) :=
  ⟨by rw [Outcome.map, h.result]; rfl, h.data⟩

variable {database : Database} {key : Bytes} {table : Engine.Table}

/-- With the courtesy checks off, a read is answered from the table that the transaction sees
through the slot, however long the key is and whoever occupies the slot. -/
theorem get_unchecked (h : Reachable system)
    (hguard : system.guardFault txn { database := database, key := some key } = none)
    (hkey : key ≠ []) (hreaches : Reaches system txn database.slot table) :
    Answered system ((system.withChecks false).get txn database key) (table.value key) := by
  obtain ⟨found, hfound, hblocked, content, loaded, husable, hload, rfl⟩ := hreaches
  have hgate : (system.withChecks false).gateFault txn
      { database := database, key := some key } = none := gateFault_unchecked rfl hguard
  constructor
  · rw [get_eq hgate hfound husable hblocked hkey]
    rw [show found.load ((system.withChecks false).engineOf txn).slots database.slot content
      = .ok loaded from hload]
  · have hstate : ((system.withChecks false).get txn database key).state
        = (system.withChecks false).setEngineOf txn
            ((system.engineOf txn).get (system.native txn) database.slot key).2 := by
      rw [get_eq_seek, withAccess_passed _ hgate]
      exact seek_state ..
    rw [hstate]
    exact sameData_peeked h.coherent (Engine.peeked_get ..) false

/-- With the courtesy checks off, a writer is told that there is nothing to remove under a key that
is not in the table that it sees through the slot. -/
theorem del_unchecked (h : Reachable system)
    (hguard : system.guardFault txn { database := database, writes := true, key := some key } = none)
    (hwriter : (system.transaction txn).readOnly = false) (hkey : key ≠ [])
    (hreaches : Reaches system txn database.slot table) (habsent : table.find? key = none)
    (item : Option Bytes) :
    Answered system ((system.withChecks false).del txn database key item) false := by
  obtain ⟨found, hfound, hblocked, hsees⟩ := hreaches
  have htxn := lt_of_lifecycleFault (lifecycleFault_of_guardFault hguard).1
  -- The engine knows the transaction as a writer too, or it would be a reader that can write.
  have hfoundWriter : found.readOnly = false := by
    by_contra hreader
    have hreading := (h.sound.anchored.roster (system.transaction txn).env).mem_reading hfound
      (Bool.eq_true_of_not_eq_false hreader)
    have howner := (h.sound.attended.readers _).owner h.sound.anchored htxn rfl hreading
      (Engine.handle_of_txn? hfound)
    rw [hwriter] at howner
    cases howner.1
  obtain ⟨hanswer, hpeeked⟩ :=
    Engine.del_absent hfound hfoundWriter hblocked hkey hsees habsent item
  have hgate : (system.withChecks false).gateFault txn
      { database := database, writes := true, key := some key } = none :=
    gateFault_unchecked rfl hguard
  have hdel : ((system.withChecks false).del txn database key item).result = .ok false ∧
      ((system.withChecks false).del txn database key item).state
        = (system.withChecks false).setEngineOf txn
            ((system.engineOf txn).del (system.native txn) database.slot key item).2 := by
    rw [del_eq_seek, withAccess_passed _ hgate]
    refine ⟨?_, seek_state ..⟩
    rw [Outcome.after, Outcome.map, seek_result]
    rw [show (((system.withChecks false).engine ((system.withChecks false).transaction txn).env).del
      ((system.withChecks false).transaction txn).native database.slot key item).1
        = .error Condition.notFound.code from hanswer]
    rfl
  refine ⟨hdel.1, ?_⟩
  rw [hdel.2]
  exact sameData_peeked h.coherent hpeeked false

/-! ## The courtesy checks and the engine -/

/-- What becomes, with the courtesy checks off, of an action that one of them refuses.

If the engine refuses it by itself it is rejected all the same, and the data stay as they are; a
flush of a read-only environment always is. Elsewhere the engine looks up keys of any length, and
uses the slot of a handle that is not retained as long as it lets the transaction do so. Reads are
then answered from the table that the transaction sees through the slot, and whatever the action
does is confined to the database of the occupant. -/
theorem refused_unchecked (h : Reachable system)
    (hrefused : ((system.withChecks true).act action).result = .error (.error error))
    (hcourtesy : error.isCourtesy action.isSync = true) :
    (Covered system action → Rejected system ((system.withChecks false).act action)) ∧
      (∀ txn database key table, action = .get txn database key → key ≠ [] →
        Reaches system txn database.slot table →
        Answered system ((system.withChecks false).act action) (.value (table.value key))) ∧
      (∀ txn database key item table, action = .del txn database key item → key ≠ [] →
        (system.transaction txn).readOnly = false → Reaches system txn database.slot table →
        table.find? key = none →
        Answered system ((system.withChecks false).act action) (.truth false)) ∧
      ∀ txn access, action.access? = some (txn, access) →
        Engine.Confined (system.native txn) access.database.slot
          (system.occupant (system.transaction txn).env access.database.slot).name
          (system.engineOf txn)
          (((system.withChecks false).after action).engine (system.transaction txn).env) := by
  have hobjection : system.objection action = some error := by
    rw [← objection_withChecks system true]
    exact (objection_of_act hrefused hcourtesy).2
  have hguarded : ∀ {txn access}, action.access? = some (txn, access) →
      system.guardFault txn access = none := by
    intro txn access haccess
    rcases objection_cases hobjection with ⟨env, rfl, -⟩ | ⟨txn', access', haccess', hguard, -⟩
    · cases haccess
    · rw [haccess'] at haccess
      cases haccess
      exact hguard
  -- The checks that are not courtesies have let the action through, with the switch on or off.
  refine ⟨fun hcovered ↦ ?_, ?_, ?_, ?_⟩
  · rcases objection_cases hobjection with
      ⟨env, rfl, -, hopen, hreadOnly⟩ | ⟨txn, access, haccess, -, -⟩
    · exact rejected_sync h.marked hopen hreadOnly
    · exact rejected_access h haccess (hguarded haccess) hcovered
  · rintro txn database key table rfl hkey hreaches
    exact (get_unchecked h (hguarded rfl) hkey hreaches).map _
  · rintro txn database key item table rfl hkey hwriter hreaches habsent
    exact (del_unchecked h (hguarded rfl) hwriter hkey hreaches habsent item).map _
  · intro txn access haccess
    exact ((h.sound.withChecks false).confined haccess).1

/-- A value that is put through a reader is rejected by the engine as well. -/
theorem refused_unchecked_put :
    ((sample.after (.begin 0 none TxnFlags.readOnly mainThread)).act
        (.put 1 sampleDatabase [107] [118] .empty)).result = .error (.error .txnReadOnly) ∧
      Covered (sample.after (.begin 0 none TxnFlags.readOnly mainThread))
        (.put 1 sampleDatabase [107] [118] .empty) ∧
      Rejected (sample.after (.begin 0 none TxnFlags.readOnly mainThread))
        (((sample.after (.begin 0 none TxnFlags.readOnly mainThread)).withChecks false).act
          (.put 1 sampleDatabase [107] [118] .empty)) := by
  have hreachable : Reachable (sample.after (.begin 0 none TxnFlags.readOnly mainThread)) :=
    sample_reachable.run (.all _ [_])
  have hrefused : (((sample.after (.begin 0 none TxnFlags.readOnly mainThread)).withChecks true).act
      (.put 1 sampleDatabase [107] [118] .empty)).result = .error (.error .txnReadOnly) := by
    decide +kernel
  have hcovered : Covered (sample.after (.begin 0 none TxnFlags.readOnly mainThread))
      (.put 1 sampleDatabase [107] [118] .empty) := by
    intro txn access haccess
    cases haccess
    exact .inr (.inl ⟨rfl, by decide +kernel⟩)
  exact ⟨by decide +kernel, hcovered, (refused_unchecked hreachable hrefused rfl).1 hcovered⟩

/-- The engine looks up a key that is too long to be stored under: the read that a courtesy check
refuses is answered without it, as if the key were absent. -/
theorem long_key_answered : ∃ (system : System) (action : Action) (error : Error),
    Reachable system ∧ system.checks = true ∧
      (system.act action).result = .error (.error error) ∧ error.isCourtesy action.isSync = true ∧
      ((system.withChecks false).act action).result = .ok (.value none) :=
  ⟨sample.after (.begin 0 none TxnFlags.readOnly mainThread),
    .get 1 sampleDatabase (List.replicate 512 107), .keyTooLarge 512 Engine.maxKeySize,
    sample_reachable.run (.all _ [_]), by decide +kernel, by decide +kernel, rfl,
    by decide +kernel⟩

end System

end MappedStore
