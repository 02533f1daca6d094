import MappedStore.Environments

/-!
# Runs of a process

Everything that users of a process can do, as one type of actions, and the runs that any order of
actions gives. Actions of different transactions may follow each other in any way; the operations
that bring a transaction of their own are runs of the single steps they are made of. A run can be
confined to the actions that a condition allows.
-/

namespace MappedStore

/-- What a user of a process can do. A reservation comes with the bytes that its buffer is filled
with. -/
inductive Action where
  | changeFiles (files : Files.Tree)
  | openEnvironment (path : Bytes) (flags : EnvFlags) (config : Config) (kind : ViewKind)
  | close (env : EnvId)
  | copy (env : EnvId) (destination : Bytes) (flags : CopyFlags) (thread : Nat)
  | statEnvironment (env : EnvId)
  | info (env : EnvId)
  | sync (env : EnvId)
  | readerCheck (env : EnvId)
  | endThread (env : EnvId) (thread : Nat)
  | begin (env : EnvId) (parent : Option TxnId) (flags : TxnFlags) (thread : Nat)
  | commit (txn : TxnId)
  | abort (txn : TxnId)
  | drop (txn : TxnId)
  | reset (txn : TxnId)
  | renew (txn : TxnId)
  | openDatabase (txn : TxnId) (name : Option String) (flags : DbFlags)
  | get (txn : TxnId) (database : Database) (key : Bytes)
  | stat (txn : TxnId) (database : Database)
  | put (txn : TxnId) (database : Database) (key value : Bytes) (flags : WriteFlags)
  | reserve (txn : TxnId) (database : Database) (key data : Bytes) (flags : WriteFlags)
  | del (txn : TxnId) (database : Database) (key : Bytes) (item : Option Bytes)
  | clear (txn : TxnId) (database : Database)
  | dropDatabase (txn : TxnId) (database : Database)

/-- What an action gives. -/
inductive Response where
  | done
  | environment (env : EnvId)
  | transaction (txn : TxnId)
  | database (database : Database)
  | value (value : Option Bytes)
  | truth (truth : Bool)
  | count (count : Nat)
  | stat (stat : Engine.Stat)
  | info (info : Engine.Info)
  deriving DecidableEq, Repr

namespace System

/-- Reserve a buffer and fill it. -/
def reserveFilled (system : System) (txn : TxnId) (database : Database) (key data : Bytes)
    (flags : WriteFlags) : Outcome Nat :=
  (system.reserve txn database key data.length flags).andThen fun length system ↦
    (system.fill txn database key data).done length

/-- Let a thread of an environment end. -/
def endThread (system : System) (env : EnvId) (thread : Nat) : System :=
  system.modifyEnvironment env fun environment ↦
    { environment with engine := environment.engine.endThread thread }

/-- Carry out an action. -/
def act (system : System) : Action → Outcome Response
  | .changeFiles files => { system with files := files }.done .done
  | .openEnvironment path flags config kind =>
      (system.openWith path flags config kind).map .environment
  | .close env => (system.close env).map fun _ ↦ .done
  | .copy env destination flags thread =>
      (system.copy env destination flags thread).map fun _ ↦ .done
  | .statEnvironment env => (system.environmentStat env).map .stat
  | .info env => (system.info env).map .info
  | .sync env => (system.sync env).map fun _ ↦ .done
  | .readerCheck env => (system.readerCheck env).map .count
  | .endThread env thread => (system.endThread env thread).done .done
  | .begin env parent flags thread => (system.begin env parent flags thread).map .transaction
  | .commit txn => (system.commit txn).map fun _ ↦ .done
  | .abort txn => (system.abort txn).map fun _ ↦ .done
  | .drop txn => (system.dropTransaction txn).map fun _ ↦ .done
  | .reset txn => (system.reset txn).map fun _ ↦ .done
  | .renew txn => (system.renew txn).map fun _ ↦ .done
  | .openDatabase txn name flags => (system.openThrough txn name flags).map .database
  | .get txn database key => (system.get txn database key).map .value
  | .stat txn database => (system.stat txn database).map .stat
  | .put txn database key value flags => (system.put txn database key value flags).map fun _ ↦ .done
  | .reserve txn database key data flags =>
      (system.reserveFilled txn database key data flags).map .count
  | .del txn database key item => (system.del txn database key item).map .truth
  | .clear txn database => (system.clear txn database).map fun _ ↦ .done
  | .dropDatabase txn database => (system.dropDatabase txn database).map fun _ ↦ .done

/-- The state that an action leaves. -/
def after (system : System) (action : Action) : System := (system.act action).state

end System

/-- A run in which every action was allowed where it was taken. -/
inductive Run (allowed : System → Action → Prop) (first : System) : System → Prop where
  | nil : Run allowed first first
  | step {last : System} {action : Action} (run : Run allowed first last)
      (h : allowed last action) : Run allowed first (last.after action)

/-- The actions that are always allowed: all. -/
def anything : System → Action → Prop := fun _ _ ↦ True

/-- A state that a process can reach from its start, when it has no environments yet. -/
def Reachable (system : System) : Prop :=
  ∃ checks files, Run anything { checks := checks, files := files } system

namespace Run

variable {allowed allowed' : System → Action → Prop} {first middle last : System}

/-- A run of one action. -/
theorem single (action : Action) (h : allowed first action) :
    Run allowed first (first.after action) :=
  .step .nil h

/-- Two runs one after the other. -/
theorem trans (h : Run allowed first middle) (h' : Run allowed middle last) :
    Run allowed first last := by
  induction h' with
  | nil => exact h
  | step _ hallowed ih => exact .step ih hallowed

/-- A run keeps to any weaker condition. -/
theorem mono (himp : ∀ system action, allowed system action → allowed' system action)
    (h : Run allowed first last) : Run allowed' first last := by
  induction h with
  | nil => exact .nil
  | step _ hallowed ih => exact .step ih (himp _ _ hallowed)

/-- Every run is a run of anything. -/
theorem anything (h : Run allowed first last) : Run MappedStore.anything first last :=
  h.mono fun _ _ _ ↦ trivial

/-- What holds at the start of a run and is preserved by its actions holds at its end. -/
theorem invariant {property : System → Prop} (h : Run allowed first last) (hfirst : property first)
    (hstep : ∀ system action, allowed system action → property system →
      property (system.after action)) : property last := by
  induction h with
  | nil => exact hfirst
  | step _ hallowed ih => exact hstep _ _ hallowed ih

end Run

namespace System

variable {α β : Type}

/-- An operation whose result is passed on in another form fails as it does. -/
theorem map_eq_error {outcome : Outcome α} {change : α → β} {refusal : Refusal} :
    (outcome.map change).result = .error refusal ↔ outcome.result = .error refusal := by
  cases hresult : outcome.result <;> simp [Outcome.map, hresult, Except.map]

/-- An operation whose result is passed on in another form gives a result if it does. -/
theorem map_eq_ok {outcome : Outcome α} {change : α → β} {value : β} :
    (outcome.map change).result = .ok value ↔
      ∃ inner, outcome.result = .ok inner ∧ change inner = value := by
  cases hresult : outcome.result <;> simp [Outcome.map, hresult, Except.map]

/-- Nothing follows an operation that gave no result. -/
theorem andThen_of_error {outcome : Outcome α} {refusal : Refusal}
    (following : α → System → Outcome β) (h : outcome.result = .error refusal) :
    (outcome.andThen following).result = .error refusal ∧
      (outcome.andThen following).state = outcome.state := by
  unfold Outcome.andThen
  rw [h]
  exact ⟨rfl, rfl⟩

/-- What follows an operation that gave a result. -/
theorem andThen_of_ok {outcome : Outcome α} {value : α} (following : α → System → Outcome β)
    (h : outcome.result = .ok value) :
    (outcome.andThen following).result = (following value outcome.state).result ∧
      (outcome.andThen following).state = (following value outcome.state).state := by
  unfold Outcome.andThen
  rw [h]
  exact ⟨rfl, rfl⟩

/-- What holds of an operation that gave no result, and of what follows one that gave a result,
holds of both in turn. -/
theorem andThen_induction (property : Except Refusal β → System → Prop) {outcome : Outcome α}
    {following : α → System → Outcome β}
    (herror : ∀ refusal, outcome.result = .error refusal →
      property (.error refusal) outcome.state)
    (hok : ∀ value, outcome.result = .ok value →
      property (following value outcome.state).result (following value outcome.state).state) :
    property (outcome.andThen following).result (outcome.andThen following).state := by
  cases hresult : outcome.result with
  | error refusal =>
      obtain ⟨hresult', hstate⟩ := andThen_of_error following hresult
      rw [hresult', hstate]
      exact herror refusal hresult
  | ok value =>
      obtain ⟨hresult', hstate⟩ := andThen_of_ok following hresult
      rw [hresult', hstate]
      exact hok value hresult

/-- Opening a database in a transaction of its own is a begin, an open in that transaction, and
its end. The handle is the one that the open gives. -/
theorem openDatabase_run (system : System) (env : EnvId) (name : Option String)
    (flags : DbFlags) (thread : Nat) :
    Run anything system (system.openDatabase env name flags thread).state ∧
      ∀ database, (system.openDatabase env name flags thread).result = .ok database →
        ∃ middle txn, Run anything system middle ∧
          (middle.openThrough txn name flags).result = .ok database ∧
          Run anything (middle.after (.openDatabase txn name flags))
            (system.openDatabase env name flags thread).state := by
  have hbegin : ∀ kind, Run anything system (system.begin env none kind thread).state :=
    fun kind ↦ .single (.begin env none kind thread) trivial
  refine andThen_induction (fun result last ↦ Run anything system last ∧
    ∀ database, result = .ok database → ∃ middle txn, Run anything system middle ∧
      (middle.openThrough txn name flags).result = .ok database ∧
      Run anything (middle.after (.openDatabase txn name flags)) last) ?_ ?_
  · exact fun refusal _ ↦ ⟨hbegin _, nofun⟩
  · intro txn _
    have hbegun := hbegin (if (system.environment env).isReadOnly then TxnFlags.readOnly else .empty)
    revert hbegun
    generalize (system.begin env none _ thread).state = begun
    intro hbegun
    have hopened : Run anything begun (begun.openThrough txn name flags).state :=
      .single (.openDatabase txn name flags) trivial
    dsimp only
    cases hresult : (begun.openThrough txn name flags).result with
    | error refusal =>
        refine ⟨(hbegun.trans hopened).trans ?_, nofun⟩
        exact .single (.drop txn) trivial
    | ok opened =>
        have hcommitted : Run anything (begun.openThrough txn name flags).state
            ((begun.openThrough txn name flags).state.commit txn).state :=
          .single (.commit txn) trivial
        refine ⟨(hbegun.trans hopened).trans hcommitted, fun database hdatabase ↦ ?_⟩
        refine ⟨begun, txn, hbegun, ?_, hcommitted⟩
        cases hcommit : ((begun.openThrough txn name flags).state.commit txn).result with
        | error refusal => simp [Outcome.after, Outcome.map, hcommit, Except.map] at hdatabase
        | ok _ => simpa [Outcome.after, Outcome.map, hcommit, Except.map, hresult] using hdatabase

/-- Reading on a thread of its own is a begin, a read, a drop of the transaction, and the end of
the thread. -/
theorem getOnThread_run (system : System) (env : EnvId) (database : Database) (key : Bytes)
    (thread : Nat) : Run anything system (system.getOnThread env database key thread).state := by
  have hbegin : Run anything system (system.begin env none TxnFlags.readOnly thread).state :=
    .single (.begin env none TxnFlags.readOnly thread) trivial
  refine andThen_induction (fun _ last ↦ Run anything system last) (fun _ _ ↦ hbegin) ?_
  intro txn _
  refine hbegin.trans ?_
  generalize (system.begin env none TxnFlags.readOnly thread).state = begun
  have hread : Run anything begun (begun.get txn database key).state :=
    .single (.get txn database key) trivial
  have hdrop : Run anything _ ((begun.get txn database key).state.dropTransaction txn).state :=
    .single (.drop txn) trivial
  exact (hread.trans hdrop).trans (.single (.endThread env thread) trivial)

end System

/-- The state that some actions leave, taken one after the other. -/
def System.afterAll (system : System) (actions : List Action) : System :=
  actions.foldl System.after system

/-- Actions that are allowed wherever they are taken make a run. -/
theorem Run.each {allowed : System → Action → Prop} (system : System) {actions : List Action}
    (hactions : ∀ action ∈ actions, ∀ system, allowed system action) :
    Run allowed system (system.afterAll actions) := by
  induction actions generalizing system with
  | nil => exact .nil
  | cons action rest ih =>
      have hfirst := hactions action List.mem_cons_self system
      refine (Run.single action hfirst).trans (ih (system.after action) fun other hother ↦ ?_)
      exact hactions other (List.mem_cons_of_mem action hother)

/-- Actions taken one after the other make a run. -/
theorem Run.all (system : System) (actions : List Action) :
    Run MappedStore.anything system (system.afterAll actions) :=
  .each system fun _ _ _ ↦ trivial

/-- What is reachable stays reachable. -/
theorem Reachable.run {allowed : System → Action → Prop} {first last : System}
    (hfirst : Reachable first) (h : Run allowed first last) : Reachable last := by
  obtain ⟨checks, files, hstart⟩ := hfirst
  exact ⟨checks, files, hstart.trans h.anything⟩

/-- What a process can reach, it can also go on from. -/
theorem Reachable.act {system : System} (h : Reachable system) (action : Action) :
    Reachable (system.after action) :=
  have hstep : Run anything system (system.after action) := .single action trivial
  h.run hstep

namespace System

/-- The directory of the environment of `sample`. -/
def samplePath : Bytes := Bytes.ofText "$W/d"

/-- The files of `sample`: the directory, which is empty. -/
def sampleFiles : Files.Tree :=
  (Files.Tree.makePath (Files.Tree.place {} [Bytes.ofText "$W"] .directory) samplePath).2

/-- A process that has opened an environment and created a database in it, for runs that show what
a theorem says. -/
def sample : System :=
  System.afterAll { files := sampleFiles }
    [.openEnvironment samplePath .empty { maxDbs := 4, maxReaders := 4 } .default,
      .begin 0 none .empty mainThread, .openDatabase 0 (some "a") DbFlags.create, .commit 0]

/-- The database of `sample`. -/
def sampleDatabase : Database := ⟨2, 1, 0, some "a", DbFlags.create⟩

/-- The sample is reachable. -/
theorem sample_reachable : Reachable sample :=
  ⟨true, sampleFiles, Run.all _ _⟩

end System

end MappedStore
