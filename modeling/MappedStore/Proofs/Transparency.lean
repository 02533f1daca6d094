import MappedStore.Proofs.Switch
import MappedStore.Session.Transcript

/-!
# Sessions with and without courtesy checks

A request of a session that no courtesy check refuses has the same answer with these checks on and
off, and leaves the same session; so a whole session in which they refuse nothing is the same either
way (`System.switch_transparent`). Only the log tells: it has a notice that the checks are off.
-/

namespace MappedStore

namespace Session

/-- A session of a process with the courtesy checks on, or off. -/
def withChecks (session : Session) (checks : Bool) : Session :=
  { session with system := session.system.withChecks checks }

/-- A step that leaves the same session with the courtesy checks on, or off. -/
def Step.withChecks (step : Step) (checks : Bool) : Step :=
  { step with session := step.session.withChecks checks }

/-- Whether a request flushes an environment to disk. -/
def Request.isSync : Request → Bool
  | .environment _ .sync => true
  | _ => false

/-- Whether a request was refused by a courtesy check. -/
def Request.isRefused (request : Request) : Except Failure Reply → Bool
  | .error (.error error) => error.isCourtesy request.isSync
  | _ => false

/-- A step without the courtesy checks is what it is with them, unless it is refused by an error of
theirs. -/
def Step.Spared (flushing : Bool) (checked unchecked : Step) : Prop :=
  (∃ error, Error.isCourtesy flushing error = true ∧ checked.result = .error (.error error)) ∨
    unchecked = checked.withChecks false

variable {session : Session} {checks flushing : Bool} {α : Type}

/-- An answer by an operation. -/
theorem settle_spared (session : Session) {checked unchecked : Outcome α}
    (h : checked.Spared flushing unchecked)
    {reply : α → Session → Reply × Session}
    (hreply : ∀ value session, reply value (Session.withChecks session false)
      = ((reply value session).1, (reply value session).2.withChecks false)) :
    (session.settle checked reply).Spared flushing
      ((session.withChecks false).settle unchecked reply) := by
  obtain ⟨error, herror, hresult⟩ | rfl := h
  · refine .inl ⟨error, herror, ?_⟩
    unfold settle
    rw [hresult]
    rfl
  · refine .inr ?_
    obtain ⟨result, events, state⟩ := checked
    cases result with
    | error refusal => rfl
    | ok value =>
        have hsettled := hreply value { session with system := state }
        unfold settle
        exact congrArg
          (fun (replied : Reply × Session) ↦ (⟨.ok replied.1, events, replied.2⟩ : Step)) hsettled

/-- An answer that is the result of an operation. -/
theorem relay_spared (session : Session) {checked unchecked : Outcome α}
    (h : checked.Spared flushing unchecked) (reply : α → Reply) :
    (session.relay checked reply).Spared flushing
      ((session.withChecks false).relay unchecked reply) :=
  settle_spared session h fun _ _ ↦ rfl

/-- A request about files. -/
theorem onFile_withChecks (session : Session) (checks : Bool) (path : Bytes)
    (request : FileRequest) : (session.withChecks checks).onFile path request
      = (session.onFile path request).withChecks checks := by
  unfold onFile
  dsimp only
  rw [show (session.withChecks checks).system.files = session.system.files from rfl]
  cases request with
  | makeDirectory =>
      dsimp only
      obtain ⟨result, tree⟩ := session.system.files.makePath (locate path)
      cases result <;> rfl
  | write data =>
      dsimp only
      obtain ⟨result, tree⟩ := session.system.files.openOrCreate (locate path) (Files.masked 0o666)
      cases result <;> rfl
  | patch | truncate | remove =>
      dsimp only
      cases session.system.files.openExisting (locate path) <;> rfl
  | list | mode =>
      dsimp only
      rcases session.system.files.locate (locate path) with errno | ⟨location, file | _⟩ <;> rfl

/-- A request about a builder. -/
theorem onBuilder_withChecks (session : Session) (checks : Bool) (name : String)
    (request : BuilderRequest) : (session.withChecks checks).onBuilder name request
      = (session.onBuilder name request).withChecks checks := by
  unfold onBuilder
  rw [show (session.withChecks checks).builders = session.builders from rfl]
  cases session.builders.lookup name with
  | none => cases request <;> rfl
  | some builder =>
      cases request with
      | setMapSize size => dsimp only; cases builder.setMapSize size <;> rfl
      | setMaxDbs count => dsimp only; cases builder.setMaxDbs count <;> rfl
      | setMaxReaders count => dsimp only; cases builder.setMaxReaders count <;> rfl
      | setMode mode => dsimp only; cases builder.setMode mode <;> rfl
      | create | config => rfl

/-- A request to open an environment. -/
theorem openEnvironment_spared (session : Session) (name : String) (path : Bytes)
    (flags : EnvFlags) (opening : Opening) :
    (session.openEnvironment name path flags opening).Spared flushing
      ((session.withChecks false).openEnvironment name path flags opening) := by
  unfold openEnvironment
  rw [show (session.withChecks false).environments = session.environments from rfl]
  split
  · exact .inr rfl
  cases opening with
  | builder builderName mode =>
      dsimp only
      rw [show (session.withChecks false).builders = session.builders from rfl]
      cases session.builders.lookup builderName with
      | none => exact .inr rfl
      | some builder =>
          have hopened := System.openEnvironment_withChecks session.system false builder
            (locate path) flags mode session.kind
          dsimp only
          rw [show (session.withChecks false).system = session.system.withChecks false from rfl,
            show (session.withChecks false).kind = session.kind from rfl, hopened]
          exact settle_spared
            { session with builders := session.builders.bind builderName _ } (.inr rfl)
            fun _ _ ↦ rfl
  | sized count =>
      exact settle_spared _ (.inr (congrArg Prod.snd (System.openEnvironment_withChecks ..)))
        fun _ _ ↦ rfl
  | settings settings makeDirectory =>
      exact settle_spared _ (.inr (congrArg Prod.snd (System.openEnvironment_withChecks
        { session.system with files := _ } ..))) fun _ _ ↦ rfl

/-- A request about an environment. -/
theorem onEnvironment_spared (session : Session) (name : String) (request : EnvironmentRequest) :
    (session.onEnvironment name request).Spared (Request.environment name request).isSync
      ((session.withChecks false).onEnvironment name request) := by
  unfold onEnvironment
  rw [show (session.withChecks false).environments = session.environments from rfl]
  cases session.environments.lookup name with
  | none => exact .inr rfl
  | some env =>
      cases request with
      | close => exact relay_spared _ (.inr (System.close_withChecks ..)) _
      | drop => exact settle_spared _ (.inr (System.dropEnvironment_withChecks ..)) fun _ _ ↦ rfl
      | state | debug | active => exact .inr rfl
      | stat | info | readerCheck =>
          exact relay_spared _
            (.inr (System.whileOpen_withChecks (System.relay_withChecks ..))) _
      | sync => exact relay_spared _ (System.spared_sync env) _
      | copy =>
          dsimp only
          rw [show ((session.withChecks false).system.environment env)
            = session.system.environment env from rfl]
          split
          · exact .inr rfl
          · exact relay_spared _ (.inr (System.copy_withChecks ..)) _
      | openDatabase | createDatabase =>
          exact settle_spared _ (.inr (System.openDatabase_withChecks ..)) fun _ _ ↦ rfl
      | getOnThread database key =>
          dsimp only
          rw [show (session.withChecks false).databases = session.databases from rfl]
          cases session.databases.lookup database with
          | none => exact .inr rfl
          | some database => exact relay_spared _ (System.spared_getOnThread ..) _

/-- A request to begin a transaction. -/
theorem begin_spared (session : Session) (name env : String) (parent : Option String)
    (flags : TxnFlags) : (session.begin name env parent flags).Spared flushing
      ((session.withChecks false).begin name env parent flags) := by
  unfold begin
  rw [show (session.withChecks false).transactions = session.transactions from rfl,
    show (session.withChecks false).environments = session.environments from rfl]
  split
  · exact .inr rfl
  split
  · exact .inr rfl
  · exact .inr rfl
  · exact settle_spared _ (.inr (System.begin_withChecks ..)) fun _ _ ↦ rfl
  · exact settle_spared _ (.inr (System.begin_withChecks ..)) fun _ _ ↦ rfl

/-- A request to begin a nested transaction. -/
theorem beginChild_spared (session : Session) (name parent : String) (flags : TxnFlags) :
    (session.beginChild name parent flags).Spared flushing
      ((session.withChecks false).beginChild name parent flags) := by
  unfold beginChild
  rw [show (session.withChecks false).transactions = session.transactions from rfl]
  split
  · exact .inr rfl
  split
  · exact .inr rfl
  · exact settle_spared _ (.inr (System.begin_withChecks ..)) fun _ _ ↦ rfl

/-- Forgetting the transactions nested in another. -/
theorem forgetNested_withChecks (session : Session) (checks : Bool) (txn : TxnId)
    (finished : Bool) : (session.withChecks checks).forgetNested txn finished
      = (session.forgetNested txn finished).withChecks checks := by
  have hlineage (nested : TxnId) : (session.system.withChecks checks).lineage nested
      = session.system.lineage nested := System.lineage_withChecks ..
  unfold forgetNested
  rw [show (session.withChecks checks).system = session.system.withChecks checks from rfl]
  simp only [hlineage]
  rfl

/-- A request about a transaction. -/
theorem onTransaction_spared (session : Session) (name : String) (request : TransactionRequest) :
    (session.onTransaction name request).Spared flushing
      ((session.withChecks false).onTransaction name request) := by
  unfold onTransaction
  rw [show (session.withChecks false).transactions = session.transactions from rfl]
  cases session.transactions.lookup name with
  | none => exact .inr rfl
  | some txn =>
      dsimp only
      simp only [forgetNested_withChecks]
      cases request with
      | commit => exact relay_spared _ (.inr (System.commit_withChecks ..)) _
      | abort =>
          dsimp only
          rw [show (session.withChecks false).system = session.system.withChecks false from rfl,
            System.transaction_withChecks]
          split
          · exact .inr rfl
          · exact relay_spared (session.forgetNested txn false)
              (.inr (System.abort_withChecks ..)) _
      | reset => exact relay_spared _ (.inr (System.reset_withChecks ..)) _
      | renew => exact relay_spared _ (.inr (System.renew_withChecks ..)) _
      | drop =>
          exact relay_spared { session.forgetNested txn true with transactions := _ }
            (.inr (System.dropTransaction_withChecks ..)) _
      | leak | state | debug => exact .inr rfl
      | openDatabase =>
          exact settle_spared _ (.inr (System.openThrough_withChecks ..)) fun _ _ ↦ rfl

/-- A request about the data of a database. -/
theorem onData_spared (session : Session) (txn : TxnId) (database : Database)
    (request : DataRequest) : (session.onData txn database request).Spared flushing
      ((session.withChecks false).onData txn database request) := by
  cases request with
  | get => exact relay_spared _ (System.spared_get _) _
  | view => exact relay_spared _ (System.spared_get _) _
  | gets =>
      exact relay_spared _ (System.spared_each (fun _ _ ↦ System.spared_get _) session.system _) _
  | put => exact relay_spared _ (System.spared_put ..) _
  | puts =>
      exact relay_spared _ (System.spared_each (fun _ _ ↦ System.spared_put ..) session.system _) _
  | reserve =>
      exact relay_spared _
        (System.spared_andThen (System.spared_reserve ..) fun _ _ ↦ .inr rfl) _
  | del => exact relay_spared _ (System.spared_del ..) _
  | dels =>
      exact relay_spared _ (System.spared_each (fun _ _ ↦ System.spared_del ..) session.system _) _
  | stat | entries => exact relay_spared _ System.spared_stat _
  | clear => exact relay_spared _ System.spared_clear _
  | drop => exact relay_spared _ System.spared_drop _

/-- A request. -/
theorem step_spared (session : Session) (request : Request) :
    (session.step request).Spared request.isSync ((session.withChecks false).step request) := by
  cases request with
  | file => exact .inr (onFile_withChecks ..)
  | builder => exact .inr (onBuilder_withChecks ..)
  | openEnvironment => exact openEnvironment_spared ..
  | environment => exact onEnvironment_spared ..
  | begin => exact begin_spared ..
  | beginChild => exact beginChild_spared ..
  | transaction => exact onTransaction_spared ..
  | data txn database request =>
      unfold step
      dsimp only
      rw [show (session.withChecks false).transactions = session.transactions from rfl,
        show (session.withChecks false).databases = session.databases from rfl]
      split
      · exact .inr rfl
      · exact .inr rfl
      · exact onData_spared ..
  | describe database | debug database =>
      unfold step
      dsimp only
      rw [show (session.withChecks false).databases = session.databases from rfl]
      cases session.databases.lookup database <;> exact .inr rfl
  | same left right =>
      unfold step
      dsimp only
      rw [show (session.withChecks false).databases = session.databases from rfl]
      split <;> exact .inr rfl

/-- A session whose requests are refused by no courtesy check. -/
theorem answers_spared {requests : List Request} (session : Session) (silent : Bool)
    (h : ∀ answered ∈ requests.zip (session.answers silent requests).1,
      answered.1.isRefused answered.2.result = false) :
    (session.withChecks false).answers silent requests =
      ((session.answers silent requests).1, (session.answers silent requests).2.1,
        (session.answers silent requests).2.2.withChecks false) := by
  induction requests generalizing session silent with
  | nil => rfl
  | cons request rest ih =>
      have hstep : (session.withChecks false).step request
          = (session.step request).withChecks false := by
        obtain ⟨error, herror, hresult⟩ | hstep := session.step_spared request
        · have hrefused := h (request, _) List.mem_cons_self
          dsimp only at hrefused
          rw [hresult, Request.isRefused, herror] at hrefused
          cases hrefused
        · exact hstep
      have hrest := ih (session.step request).session
        (recordsOf silent (session.step request).events).2
        fun answered hanswered ↦ h answered (List.mem_cons_of_mem _ hanswered)
      simp only [answers, hstep, Step.withChecks, hrest]

/-- The transactions that are dropped at the end of a session. -/
theorem dropTransactions_withChecks (fuel : Nat) (session : Session) (checks : Bool) :
    dropTransactions fuel (session.withChecks checks) =
      ((dropTransactions fuel session).1, (dropTransactions fuel session).2.withChecks checks) := by
  induction fuel generalizing session with
  | zero => rfl
  | succ fuel ih =>
      have hnext : ((session.withChecks checks).transactions.sorted.find? fun entry ↦
          (session.withChecks checks).isInnermost entry.2)
            = session.transactions.sorted.find? fun entry ↦ session.isInnermost entry.2 := rfl
      unfold dropTransactions
      rw [hnext]
      cases session.transactions.sorted.find? fun entry ↦ session.isInnermost entry.2 with
      | none => rfl
      | some entry =>
          have hrest := ih
            { session with
              system := (session.system.dropTransaction entry.2).state
              transactions := session.transactions.free entry.1 }
          dsimp only
          rw [show (session.withChecks checks).system = session.system.withChecks checks from rfl,
            System.dropTransaction_withChecks]
          exact congrArg (fun dropped : List Event × Session ↦ (_ ++ dropped.1, dropped.2)) hrest

/-- The environments that are dropped at the end of a session. -/
theorem dropEnvironments_withChecks (system : System) (checks : Bool) (environments : List EnvId) :
    dropEnvironments (system.withChecks checks) environments
      = dropEnvironments system environments := by
  induction environments generalizing system with
  | nil => rfl
  | cons env rest ih =>
      unfold dropEnvironments
      rw [System.dropEnvironment_withChecks]
      exact congrArg (_ ++ ·) (ih _)

/-- The clean-up at the end of a session. -/
theorem cleanUp_withChecks (session : Session) (checks : Bool) :
    (session.withChecks checks).cleanUp = session.cleanUp := by
  unfold cleanUp
  rw [show (session.withChecks checks).transactions = session.transactions from rfl,
    dropTransactions_withChecks]
  exact congrArg (_ ++ ·) (dropEnvironments_withChecks ..)

/-! ### The notice -/

/-- Log records without the notice that the courtesy checks are off. -/
def quiet (records : List Log.Record) : List Log.Record := records.filter (· ≠ .checksDisabled)

/-- An entry whose records are without that notice. -/
def Entry.quiet (entry : Entry) : Entry := { entry with records := Session.quiet entry.records }

/-- Whether the notice is still due matters to nothing but the notice. -/
theorem quiet_recordsOf (silent : Bool) (events : List Event) :
    quiet (recordsOf silent events).1 = quiet (recordsOf true events).1 := by
  induction events generalizing silent with
  | nil => rfl
  | cons event rest ih =>
      cases event with
      | log record =>
          have hrest := ih silent
          unfold quiet at hrest
          simp only [recordsOf, quiet, List.filter_cons, hrest]
      | consulted =>
          cases silent with
          | true => rfl
          | false => simp [recordsOf, quiet]
      | call => exact ih silent

/-- Whether the notice is still due matters to no answer of a session. -/
theorem quiet_answers (session : Session) (silent : Bool) (requests : List Request) :
    (session.answers silent requests).1.map Entry.quiet
        = (session.answers true requests).1.map Entry.quiet ∧
      (session.answers silent requests).2.2 = (session.answers true requests).2.2 := by
  induction requests generalizing session silent with
  | nil => exact ⟨rfl, rfl⟩
  | cons request rest ih =>
      have hrecords := quiet_recordsOf silent (session.step request).events
      obtain ⟨hentries, hsession⟩ := ih (session.step request).session
        (recordsOf silent (session.step request).events).2
      obtain ⟨hentries', hsession'⟩ := ih (session.step request).session
        (recordsOf true (session.step request).events).2
      refine ⟨?_, hsession.trans hsession'.symm⟩
      simp only [answers, List.map_cons, Entry.quiet, hrecords]
      exact congrArg _ (hentries.trans hentries'.symm)

end Session

/-! ## The switch -/

namespace System

/-- An error that is neither of the engine nor one of courtesy is raised by an action with the
courtesy checks on if and only if it is with the checks off. -/
theorem raised_iff (system : System) {action : Action} {error : Error} (hcode : error.code = none)
    (hcourtesy : error.isCourtesy action.isSync = false) :
    ((system.withChecks true).act action).result = .error (.error error) ↔
      ((system.withChecks false).act action).result = .error (.error error) := by
  obtain ⟨refusal, hrefusal, hresult⟩ | hsame := (system.withChecks true).spared_act action
  · obtain ⟨-, hobjection⟩ := objection_of_act hresult hrefusal
    have hunchecked : (system.withChecks false).objection action = some refusal := by
      rw [objection_withChecks] at hobjection ⊢
      exact hobjection
    have hcoded : Raises (fun fault ↦ ∃ code, fault = .ofCode code)
        ((system.withChecks false).act action) := coded_of_objection rfl hunchecked
    constructor
    · intro hraised
      rw [hresult] at hraised
      cases hraised
      rw [hrefusal] at hcourtesy
      cases hcourtesy
    · intro hraised
      obtain ⟨code, rfl⟩ := hcoded error hraised
      rw [Error.code_ofCode] at hcode
      cases hcode
  · rw [show (system.withChecks false).act action
      = ((system.withChecks true).act action).withChecks false from hsame]
    rfl

/-- Unless a courtesy check refuses an action, it has the same result and the same events with these
checks on and off, and leaves the same process but for the switch; and so does a request of a
session. All other errors of the handles are raised by the same actions either way. In a session
without a request that a courtesy check refuses, all answers are the same, and so are all records
but for the notice, and the session that is left. -/
theorem switch_transparent (system : System) (session : Session) :
    (∀ action,
        (∀ error, ((system.withChecks true).act action).result = .error (.error error) →
          error.isCourtesy action.isSync = false) →
        (system.withChecks false).act action
          = ((system.withChecks true).act action).withChecks false) ∧
      (∀ (action : Action) (error : Error), error.code = none →
        error.isCourtesy action.isSync = false →
        (((system.withChecks true).act action).result = .error (.error error) ↔
          ((system.withChecks false).act action).result = .error (.error error))) ∧
      (∀ request, Session.Request.isRefused request
          ((session.withChecks true).step request).result = false →
        (session.withChecks false).step request
          = ((session.withChecks true).step request).withChecks false) ∧
      ∀ requests,
        (∀ answered ∈ requests.zip ((session.withChecks true).answers true requests).1,
          answered.1.isRefused answered.2.result = false) →
        ((session.withChecks false).answers false requests).1.map Session.Entry.quiet
            = ((session.withChecks true).answers true requests).1.map Session.Entry.quiet ∧
          ((session.withChecks false).answers false requests).2.2
            = ((session.withChecks true).answers true requests).2.2.withChecks false ∧
          Session.quiet ((session.withChecks false).transcript requests).2
            = Session.quiet ((session.withChecks true).transcript requests).2 := by
  refine ⟨fun action hrefused ↦ ?_, fun action error ↦ system.raised_iff, fun request hrefused ↦ ?_,
    fun requests hrefused ↦ ?_⟩
  · obtain ⟨error, herror, hresult⟩ | hsame := (system.withChecks true).spared_act action
    · rw [hrefused error hresult] at herror
      cases herror
    · exact hsame
  · obtain ⟨error, herror, hresult⟩ | hsame := (session.withChecks true).step_spared request
    · rw [hresult, Session.Request.isRefused, herror] at hrefused
      cases hrefused
    · exact hsame
  · have hanswers : (session.withChecks false).answers true requests = _ :=
      (session.withChecks true).answers_spared true hrefused
    obtain ⟨hentries, hsession⟩ := Session.quiet_answers (session.withChecks false) false requests
    have hleft : ((session.withChecks false).answers false requests).2.2
        = ((session.withChecks true).answers true requests).2.2.withChecks false :=
      hsession.trans (congrArg (·.2.2) hanswers)
    refine ⟨hentries.trans (congrArg (·.1.map Session.Entry.quiet) hanswers), hleft, ?_⟩
    -- The records of the clean-up depend on the session that is left, which differs in the switch
    -- only.
    have hcleanUp : ((session.withChecks false).answers false requests).2.2.cleanUp
        = ((session.withChecks true).answers true requests).2.2.cleanUp := by
      rw [hleft, Session.cleanUp_withChecks]
    refine (Session.quiet_recordsOf _ _).trans (.trans ?_ (Session.quiet_recordsOf _ _).symm)
    exact congrArg (fun events ↦ Session.quiet (Session.recordsOf true events).1) hcleanUp

/-- A session that creates a database, stores a value, commits and flushes, and then reads through
the transaction that has ended: nothing is refused out of courtesy, and with the checks off the same
session is left, in which the read has failed as well. -/
theorem switch_transparent_session :
    let session := Session.start true .default
    let key := Bytes.ofText "k"
    let requests : List Session.Request :=
      [.openEnvironment "e" (Bytes.ofText "d") .empty (.settings { maxDbs := some 4 } true),
        .environment "e" (.openDatabase "a" (some "a") DbFlags.create),
        .begin "w" "e" none .empty, .data "w" "a" (.put key key .empty),
        .transaction "w" .commit, .environment "e" .sync, .data "w" "a" (.get key)]
    (∀ answered ∈ requests.zip ((session.withChecks true).answers true requests).1,
        answered.1.isRefused answered.2.result = false) ∧
      ((session.withChecks true).answers true requests).1.map (·.result.toOption.isSome)
        = [true, true, true, true, true, true, false] ∧
      ((session.withChecks false).answers false requests).2.2
        = ((session.withChecks true).answers true requests).2.2.withChecks false := by
  intro session key requests
  have hspared : ∀ answered ∈ requests.zip ((session.withChecks true).answers true requests).1,
      answered.1.isRefused answered.2.result = false := by decide +kernel
  obtain ⟨-, -, -, hsession⟩ := switch_transparent session.system session
  exact ⟨hspared, by decide +kernel, (hsession requests hspared).2.1⟩

end System

end MappedStore
