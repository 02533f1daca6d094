import MappedStore.Proofs.Engine.Ahead
import MappedStore.Proofs.Handles
import MappedStore.Proofs.Journal
import MappedStore.Proofs.Likeness
import MappedStore.Proofs.Nesting
import MappedStore.Proofs.WriterLock

/-!
# While a transaction is used

A transaction begins, and it and those nested in it do whatever they can but commit it. While they
do, the process is the one from before, but for their environment's engine, counters and lock, and
for the count of those nested in older transactions (`System.Ahead`).
-/

namespace MappedStore

open Engine

/-- An environment without what the transactions that begin and end in it change. -/
def Environment.outline (environment : Environment) : Environment :=
  { environment with
    active := 0
    writerLocked := false
    nextGeneration := 0
    engine := Environment.absent.engine }

/-- A transaction without the count of those nested in it. -/
def Transaction.outline (txn : Transaction) : Transaction := { txn with children := 0 }

namespace System

/-- What stays of a process in which a number of transactions have begun, while further ones of an
environment are used. -/
def outline (system : System) (env : EnvId) (count : Nat) : System :=
  { system with
    environments := system.environments.modify env Environment.outline
    transactions := (system.transactions.take count).map Transaction.outline }

variable {system : System} {env : EnvId} {txn : TxnId} {count : Nat}

/-- A change of the environment. -/
theorem outline_modifyEnvironment (system : System) (count : Nat)
    {change : Environment → Environment}
    (h : ∀ environment, (change environment).outline = environment.outline) :
    (system.modifyEnvironment env change).outline env count = system.outline env count := by
  have hmodify : (system.environments.modify env change).modify env Environment.outline =
      system.environments.modify env Environment.outline := by
    rw [List.modify_modify_eq]
    exact congrArg (system.environments.modify env) (funext h)
  exact congrArg (fun environments ↦
    { system.outline env count with environments := environments }) hmodify

/-- Another engine. -/
theorem outline_setEngine (system : System) (count : Nat) (engine : Engine) :
    (system.setEngine env engine).outline env count = system.outline env count :=
  outline_modifyEnvironment system count fun _ ↦ rfl

/-- A change of a later transaction, or of the count of those nested in one. -/
theorem outline_modifyTransaction (system : System) (env : EnvId)
    {change : Transaction → Transaction}
    (h : count ≤ txn ∨ ∀ before, (change before).outline = before.outline) :
    (system.modifyTransaction txn change).outline env count = system.outline env count := by
  have hmodify : ((system.transactions.modify txn change).take count).map Transaction.outline =
      (system.transactions.take count).map Transaction.outline := by
    refine List.ext_getElem? fun index ↦ ?_
    rw [List.getElem?_map, List.getElem?_map, List.getElem?_take, List.getElem?_take,
      List.getElem?_modify]
    by_cases hindex : index < count
    · rw [if_pos hindex, if_pos hindex]
      by_cases hsame : txn = index
      · subst hsame
        have hchange := h.resolve_left (by omega)
        cases system.transactions[txn]? with
        | none => rfl
        | some before => simpa using hchange before
      · simp [hsame]
    · rw [if_neg hindex, if_neg hindex]
  exact congrArg (fun transactions ↦
    { system.outline env count with transactions := transactions }) hmodify

/-- The record of the end of a later transaction. -/
theorem outline_finish (htxn : count ≤ txn) (henv : (system.transaction txn).env = env)
    (state : TxnState) : (system.finish txn state).outline env count = system.outline env count := by
  have hended : ((system.modifyTransaction txn
      ({ · with state := state, holdsWriter := false })).modifyEnvironment (system.transaction txn).env
        fun environment ↦
          { environment with
            active := environment.active - 1
            writerLocked := environment.writerLocked && !(system.transaction txn).holdsWriter }).outline
      env count = system.outline env count := by
    rw [henv]
    refine (outline_modifyEnvironment _ count ?_).trans ?_
    · exact fun _ ↦ rfl
    · exact outline_modifyTransaction system env (.inl htxn)
  unfold finish
  dsimp only
  split
  · refine (outline_modifyTransaction _ env (.inr ?_)).trans hended
    exact fun _ ↦ rfl
  · exact hended

/-- A hand-over from one later transaction to another. -/
theorem outline_handOver (htxn : count ≤ txn) {parent : TxnId}
    (hparent : (system.transaction txn).parent = some parent) (hle : count ≤ parent) :
    (system.handOver txn).outline env count = system.outline env count := by
  unfold handOver
  dsimp only
  rw [hparent]
  dsimp only
  rw [outline_modifyTransaction _ _ (.inl hle), outline_modifyTransaction _ _ (.inl htxn)]

/-- A further transaction. -/
theorem outline_append (entering : Transaction) (hcount : count ≤ system.transactions.length) :
    ({ system with transactions := system.transactions ++ [entering] }).outline env count =
      system.outline env count := by
  unfold outline
  rw [List.take_append_of_le_length hcount]

/-- An entry. -/
theorem outline_enter {entering : Transaction} (henv : entering.env = env)
    (hcount : count ≤ system.transactions.length) :
    (system.enter entering).outline env count = system.outline env count := by
  have hcounted : (system.modifyEnvironment entering.env fun environment ↦
      { environment with
        active := environment.active + 1
        writerLocked := environment.writerLocked || entering.holdsWriter }).outline env count =
      system.outline env count := by
    rw [henv]
    refine outline_modifyEnvironment system count ?_
    exact fun _ ↦ rfl
  unfold enter
  dsimp only
  cases entering.parent with
  | none =>
      refine (outline_append entering ?_).trans hcounted
      exact hcount
  | some parent =>
      refine (outline_append entering ?_).trans ?_
      · rw [length_modifyTransaction]
        exact hcount
      · refine (outline_modifyTransaction _ env (.inr ?_)).trans hcounted
        exact fun _ ↦ rfl

variable {first after : System} {nested : Prop} {action : Action}

/-- A process in which a transaction of an environment has begun and been used, with those nested in
it, since it was `first`. -/
structure Ahead (first : System) (env : EnvId) (nested : Prop) (system : System) : Prop where
  outline : system.outline env first.transactions.length =
    first.outline env first.transactions.length
  engine : ∃ inner newer, (first.engine env).Ahead nested inner newer (system.engine env)
  begun : first.transactions.length < system.transactions.length
  env_eq : (system.transaction first.transactions.length).env = env
  native : system.native first.transactions.length = (first.engine env).nextHandle
  later : ∀ other, first.transactions.length < other → other < system.transactions.length →
    (first.engine env).nextHandle < system.native other ∧
      ∃ outer, (system.transaction other).parent = some outer ∧ first.transactions.length ≤ outer

/-- An action of a transaction or of one nested in it, other than its commit. -/
def Within (txn : TxnId) (system : System) (action : Action) : Prop :=
  action ≠ .commit txn ∧ ∃ user, action.names? = some user ∧ txn ∈ system.lineage user

/-- The user of such an action is a later transaction of the environment. -/
theorem Ahead.user (h : Ahead first env nested system) (hsound : Sound system) {user : TxnId}
    (hmem : first.transactions.length ∈ system.lineage user) :
    first.transactions.length ≤ user ∧ user < system.transactions.length ∧
      (system.transaction user).env = env ∧
      (first.engine env).nextHandle ≤ system.native user ∧
      (user ≠ first.transactions.length → (first.engine env).nextHandle < system.native user ∧
        ∃ parent, (system.transaction user).parent = some parent ∧
          first.transactions.length ≤ parent) := by
  have hle := le_of_mem_lineage hsound.anchored hmem
  have henv := (env_of_lineage hsound.anchored hmem).trans h.env_eq
  rcases (mem_lineage hsound.anchored).mp hmem with rfl | ⟨parent, hparent, houter⟩
  · exact ⟨hle, h.begun, henv, Nat.le_of_eq h.native.symm, fun hne ↦ absurd rfl hne⟩
  · have hlt := lt_of_parent hparent
    have hparentLe := le_of_mem_lineage hsound.anchored houter
    have hparentLt := hsound.anchored.parent_lt user parent hparent
    have hnative := (h.later user (Nat.lt_of_le_of_lt hparentLe hparentLt) hlt).1
    exact ⟨hle, hlt, henv, Nat.le_of_lt hnative, fun _ ↦ ⟨hnative, parent, hparent, hparentLe⟩⟩

/-- The begin of the transaction. -/
theorem ahead_of_begin (hsound : Sound first) {parent : Option TxnId} {flags : TxnFlags}
    {thread : Nat} {txn : TxnId} (hbegin : (first.begin env parent flags thread).result = .ok txn) :
    txn = first.transactions.length ∧
      Ahead first env (parent ≠ none) (first.after (.begin env parent flags thread)) := by
  obtain ⟨rfl, native, engine, hentrance⟩ := entrance_of_begin hbegin
  refine ⟨rfl, ?_, ?_, ?_, ?_, ?_, ?_⟩
  · rw [hentrance.after_eq, outline_enter (by exact rfl) (by exact Nat.le_refl _), outline_setEngine]
  · rw [hentrance.engine_eq]
    refine hentrance.began.ahead (hsound.anchored.roster env) fun hnested hnone ↦ hnested ?_
    exact Option.map_eq_none_iff.mp hnone
  · rw [hentrance.length_eq]
    exact Nat.lt_succ_self _
  · exact congrArg Transaction.env hentrance.transaction_eq
  · exact hentrance.native_eq.trans hentrance.began.later.2.2.2
  · intro other hlt hother
    rw [hentrance.length_eq] at hother
    omega

/-- A nested begin keeps the process ahead. -/
theorem Ahead.began (h : Ahead first env nested system) (hfirst : Sound first)
    (hsound : Sound system) {user : TxnId}
    (hmem : first.transactions.length ∈ system.lineage user) (place : EnvId) (flags : TxnFlags)
    (thread : Nat) :
    Ahead first env nested (system.after (.begin place (some user) flags thread)) := by
  obtain ⟨hle, -, henv, hnative, -⟩ := h.user hsound hmem
  rcases system.begin_cases place (some user) flags thread with
    ⟨_, -, hstate⟩ | ⟨native, engine, hfault, hunlocked, hanswer, -, hstate⟩
  · have hafter : system.after (.begin place (some user) flags thread) = system := hstate
    rw [hafter]
    exact h
  have hentrance : Entrance system place (some user) flags thread native engine
      (system.after (.begin place (some user) flags thread)) := ⟨hfault, hunlocked, hanswer, hstate⟩
  obtain rfl : env = place := henv.symm.trans ((of_beginFault hfault).2 user rfl).1
  obtain ⟨inner, newer, hengine⟩ := h.engine
  have hroster := hsound.anchored.roster env
  have hidentity {other : TxnId} (hother : other < system.transactions.length) :=
    hentrance.transition.identity hother
  refine ⟨?_, ?_, ?_, ?_, ?_, ?_⟩
  · rw [hentrance.after_eq, outline_enter (by exact rfl) (by exact Nat.le_of_lt h.begun),
      outline_setEngine]
    exact h.outline
  · rw [hentrance.engine_eq]
    exact hengine.began (hfirst.anchored.roster env) hroster hnative hentrance.began
  · exact hentrance.transition.lt_length h.begun
  · exact (env_of_identity (hidentity h.begun)).trans h.env_eq
  · exact (native_of_identity (hidentity h.begun)).trans h.native
  · intro other hlt hother
    refine hentrance.induction (motive := fun other found ↦ first.transactions.length < other →
      (first.engine env).nextHandle < found.native ∧
        ∃ outer, found.parent = some outer ∧ first.transactions.length ≤ outer)
      (fun other _ hearlier hlt ↦ h.later other hlt hearlier) (fun _ ↦ ?_) hother hlt
    have hnext : native = (system.engine env).nextHandle := hentrance.began.later.2.2.2
    have hgiven := hsound.anchored.native_lt first.transactions.length h.begun
    rw [engineOf, h.env_eq, h.native] at hgiven
    refine ⟨?_, user, rfl, hle⟩
    show _ < native
    omega

/-- A reader that the engine finds for an active transaction is awake. -/
theorem awake_of_active (hsound : Sound system) (htxn : txn < system.transactions.length)
    (hactive : (system.transaction txn).state = .active) {found : Engine.Txn}
    (hfound : (system.engineOf txn).txn? (system.native txn) = some found)
    (hreader : found.readOnly = true) : found.idle = false := by
  have hmem := (hsound.anchored.roster _).mem_reading hfound hreader
  have hstate := ((hsound.attended.readers _).owner hsound.anchored htxn rfl hmem
    (Engine.handle_of_txn? hfound)).2
  exact idle_of_readingState (hstate.symm.trans hactive)

/-- A process with another engine that is ahead as well, and with some records beside it. -/
theorem Ahead.recorded (h : Ahead first env nested system) (henv : env < system.environments.length)
    {engine : Engine} {recorded : System}
    (hahead : ∃ inner newer, (first.engine env).Ahead nested inner newer engine)
    (houtline : recorded.outline env first.transactions.length =
      (system.setEngine env engine).outline env first.transactions.length)
    (hrecord : recorded.engine env = (system.setEngine env engine).engine env) :
    recorded.outline env first.transactions.length = first.outline env first.transactions.length ∧
      ∃ inner newer, (first.engine env).Ahead nested inner newer (recorded.engine env) := by
  rw [houtline, outline_setEngine, hrecord, engine_setEngine engine henv]
  exact ⟨h.outline, hahead⟩

/-- A use of an active transaction keeps the engine ahead. -/
theorem Ahead.used (h : Ahead first env nested system) (hfirst : Sound first)
    (hsound : Sound system) {user : TxnId} (hmem : first.transactions.length ∈ system.lineage user)
    (hfault : (system.transaction user).lifecycleFault = none) {engine : Engine}
    (huse : Engine.Used (system.engineOf user) (system.native user) engine) :
    ∃ inner newer, (first.engine env).Ahead nested inner newer engine := by
  obtain ⟨-, hlt, henv, hnative, -⟩ := h.user hsound hmem
  obtain ⟨inner, newer, hengine⟩ := h.engine
  have hawake (found : Engine.Txn)
      (hfound : (system.engineOf user).txn? (system.native user) = some found)
      (hreader : found.readOnly = true) : found.idle = false :=
    awake_of_active hsound hlt (active_of_lifecycleFault hfault).1 hfound hreader
  rw [engineOf, henv] at huse hawake
  exact hengine.used (hfirst.anchored.roster env) (hsound.anchored.roster env) hnative hawake huse

/-- What an action that goes through such a transaction does. -/
theorem Ahead.through (h : Ahead first env nested system) (hfirst : Sound first)
    (hsound : Sound system) (htransition : Transition system action after) {user : TxnId}
    (hthrough : action.through? = some user)
    (hmem : first.transactions.length ∈ system.lineage user)
    (hcommit : action ≠ .commit first.transactions.length) :
    after.outline env first.transactions.length = first.outline env first.transactions.length ∧
      ∃ inner newer, (first.engine env).Ahead nested inner newer (after.engine env) := by
  obtain ⟨hle, hlt, henv, hnative, hinner⟩ := h.user hsound hmem
  obtain ⟨inner, newer, hengine⟩ := h.engine
  have hearlier := hfirst.anchored.roster env
  have hroster := hsound.anchored.roster env
  have hplace := henv ▸ hsound.anchored.env_lt user hlt
  cases htransition with
  | idle => exact ⟨h.outline, h.engine⟩
  | files _ _ haction | aside _ haction =>
      rw [hthrough] at haction
      cases haction
  | openedEnvironment | closed | began => cases hthrough
  | used use haction hfault =>
      obtain rfl := Option.some.inj (hthrough.symm.trans (through_of_use haction))
      rw [setEngineOf, henv]
      exact h.recorded hplace (h.used hfirst hsound hmem hfault (Engine.use_used _ _ use)) rfl rfl
  | reopened hfault hopen =>
      obtain rfl := (Option.some.inj hthrough).symm
      rw [setEngineOf, henv]
      exact h.recorded hplace (h.used hfirst hsound hmem hfault (used_of_open hopen))
        (outline_modifyTransaction _ env (.inl hle)) rfl
  | opened hfault hopen =>
      obtain rfl := (Option.some.inj hthrough).symm
      rw [setEngineOf, henv]
      refine h.recorded hplace (h.used hfirst hsound hmem hfault (used_of_open hopen))
        ((outline_modifyTransaction _ env (.inl hle)).trans (outline_modifyEnvironment _ _ ?_)) ?_
      · exact fun _ ↦ rfl
      · exact engine_advance _ env env
  | dropped hfault _ _ _ hdrop =>
      obtain rfl := (Option.some.inj hthrough).symm
      rw [setEngineOf, henv]
      exact h.recorded hplace (h.used hfirst hsound hmem hfault (used_of_drop hdrop))
        (outline_modifyTransaction _ env (.inl hle)) rfl
  | committed hfault hrun =>
      obtain rfl := (Option.some.inj hthrough).symm
      obtain ⟨hgreater, parent, hparent, hparentLe⟩ := hinner fun heq ↦ hcommit (heq ▸ rfl)
      have hahead := hengine.committed hearlier hroster hgreater
      rw [engineOf, henv] at hrun
      rw [hrun] at hahead
      rw [setEngineOf, henv]
      refine h.recorded hplace hahead ((outline_finish hle ?_ .committed).trans
        (outline_handOver hle ?_ hparentLe)) ?_
      · exact (field_handOver (·.env) (fun _ _ _ ↦ rfl) _ user user).trans henv
      · exact hparent
      · rw [engine_finish, engine_handOver]
  | commitFailed hfault hrun =>
      obtain rfl := (Option.some.inj hthrough).symm
      obtain ⟨hgreater, -⟩ := hinner fun heq ↦ hcommit (heq ▸ rfl)
      have hahead := hengine.committed hearlier hroster hgreater
      rw [engineOf, henv] at hrun
      rw [hrun] at hahead
      rw [setEngineOf, henv]
      refine h.recorded hplace hahead (outline_finish hle ?_ .aborted) (engine_finish _ _ _ _)
      exact henv
  | @discarded _ ended haction hstate =>
      obtain rfl : user = ended := by
        rcases haction with rfl | rfl <;> exact (Option.some.inj hthrough).symm
      have hahead := hengine.aborted hearlier hroster hnative
      rw [setEngineOf, engineOf, henv]
      refine h.recorded hplace hahead (outline_finish hle ?_ .aborted) (engine_finish _ _ _ _)
      exact henv
  | reset hfault hreader =>
      obtain rfl := (Option.some.inj hthrough).symm
      have hahead := hengine.wasReset hearlier hroster hnative
        (Engine.reset_cases (system.engine env) (system.native user))
      rw [setEngineOf, engineOf, henv]
      exact h.recorded hplace hahead (outline_modifyTransaction _ env (.inl hle)) rfl
  | renewed hstate hrenew =>
      obtain rfl := (Option.some.inj hthrough).symm
      have hreading (found : Engine.Txn)
          (hfound : (system.engineOf user).txn? (system.native user) = some found) :
          found ∈ (system.engineOf user).reading :=
        reader_of_reset hsound.anchored hsound.chained hfound hstate
      rw [engineOf, henv] at hrenew hreading
      have hahead := hengine.renewed hearlier hroster hnative
        (fun found hfound ↦ hroster.reading found (hreading found hfound)) (renewed_of_renew hrenew)
      rw [setEngineOf, henv]
      exact h.recorded hplace hahead (outline_modifyTransaction _ env (.inl hle)) rfl

/-- Whatever the transaction and those nested in it do but commit it keeps the process ahead. -/
theorem Ahead.act (h : Ahead first env nested system) (hfirst : Sound first)
    (hsound : Sound system) (hwithin : Within first.transactions.length system action) :
    Ahead first env nested (system.after action) := by
  obtain ⟨hcommit, user, hnames, hmem⟩ := hwithin
  have htransition := hsound.transition action
  have hthrough : (∃ place flags thread, action = .begin place (some user) flags thread) ∨
      action.through? = some user := by
    cases action with
    | begin place parent flags thread =>
        obtain rfl : parent = some user := hnames
        exact .inl ⟨place, flags, thread, rfl⟩
    | _ => exact .inr hnames
  rcases hthrough with ⟨place, flags, thread, rfl⟩ | hthrough
  · exact h.began hfirst hsound hmem place flags thread
  obtain ⟨houtline, hengine⟩ := h.through hfirst hsound htransition hthrough hmem hcommit
  have hlength : (system.after action).transactions.length = system.transactions.length :=
    htransition.length_kept (by rintro _ _ _ _ rfl; cases hthrough)
  have hidentity {other : TxnId} (hother : other < system.transactions.length) :=
    htransition.identity hother
  refine ⟨houtline, hengine, ?_, ?_, ?_, ?_⟩
  · rw [hlength]
    exact h.begun
  · exact (env_of_identity (hidentity h.begun)).trans h.env_eq
  · exact (native_of_identity (hidentity h.begun)).trans h.native
  · intro other hlt hother
    rw [hlength] at hother
    rw [native_of_identity (hidentity hother), parent_of_identity (hidentity hother)]
    exact h.later other hlt hother

/-- A run of what the transaction and those nested in it do. -/
theorem Ahead.run {last : System} (h : Ahead first env nested system) (hfirst : Sound first)
    (hsound : Sound system) (hrun : Run (Within first.transactions.length) system last) :
    Ahead first env nested last ∧ Sound last := by
  induction hrun with
  | nil => exact ⟨h, hsound⟩
  | step _ hwithin ih =>
      obtain ⟨hahead, hsound'⟩ := ih
      exact ⟨hahead.act hfirst hsound' hwithin, hsound'.act _⟩

end System

end MappedStore
