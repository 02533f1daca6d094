import MappedStore.Proofs.Coherence
import MappedStore.Proofs.Reading
import MappedStore.Proofs.Scopes

/-!
# What a handle identifies

A handle carries the slot and the generation of its open. The generation stays the same as long as
the slot is live in some scope, while the engine gives the slot to another name as soon as the first
has been freed; so the triple of environment, slot and generation names one database only as long
as the occupant of the slot stays. `System.handle_identity` says exactly when two handles agree, and
that accesses are confined to the database of the occupant.
-/

namespace MappedStore

/-- Texts with the same encoding are the same. -/
theorem Bytes.ofText_inj {first second : String} (h : Bytes.ofText first = Bytes.ofText second) :
    first = second := by
  rw [← String.toByteArray_inj, ← String.utf8Encode_toList, ← String.utf8Encode_toList]
  exact congrArg List.toByteArray h

/-- The name of a database as the engine knows it; that of the main one is empty. -/
def Database.engineName (database : Database) : Bytes :=
  (database.name.map Bytes.ofText).getD []

namespace System

variable {system : System} {env : EnvId} {slot : Nat} {txn user : TxnId} {name : Option String}
  {flags : DbFlags} {database : Database} {action : Action} {access : Access}

/-- What the engine of an environment knows about the occupant of a slot. -/
def occupant (system : System) (env : EnvId) (slot : Nat) : Engine.SlotInfo :=
  (system.engine env).slots.info slot

/-! ## Issued handles -/

/-- A handle that an open through a transaction has given. -/
structure Issued (system : System) (txn : TxnId) (name : Option String) (flags : DbFlags)
    (database : Database) : Prop where
  env_eq : database.env = (system.transaction txn).env
  env_lt : database.env < system.environments.length
  name_eq : database.name = name
  main : name = none ↔ database.slot = Engine.mainSlot
  generation : system.liveGeneration txn database.slot = some database.generation ∨
    system.liveGeneration txn database.slot = none ∧
      database.generation = system.nextGeneration database.env
  generation_lt : database.generation <
    (system.after (.openDatabase txn name flags)).nextGeneration database.env
  occupant : ((system.after (.openDatabase txn name flags)).occupant database.env
    database.slot).name = database.engineName

/-- The slot that a successful open of the engine gives, and its occupant afterwards. -/
theorem occupant_of_open {engine after : Engine} {handle : Nat} {flags : DbFlags}
    (h : engine.openDatabase handle (name.map Bytes.ofText) flags = (.ok slot, after)) :
    (name = none ↔ slot = Engine.mainSlot) ∧
      (after.slots.info slot).name = (name.map Bytes.ofText).getD [] := by
  obtain ⟨-, -, -, hname⟩ := (engine.openDatabase_cases handle (name.map Bytes.ofText) flags).2 slot
    (congrArg Prod.fst h)
  cases name with
  | none =>
      obtain rfl : slot = Engine.mainSlot := hname
      exact ⟨⟨fun _ ↦ rfl, fun _ ↦ rfl⟩, rfl⟩
  | some text =>
      obtain ⟨hlt, hfound⟩ := hname
      refine ⟨⟨nofun, fun hslot ↦ absurd hlt (by simp [hslot])⟩, ?_⟩
      rw [show after = (engine.openDatabase handle (some (Bytes.ofText text)) flags).2 from
        (congrArg Prod.snd h).symm]
      exact hfound

/-- The handle that a successful open gives. -/
theorem Sound.issued (h : Sound system)
    (hopen : (system.openThrough txn name flags).result = .ok database) :
    Issued system txn name flags database := by
  obtain ⟨engine, hopened⟩ := openedThrough_of_ok hopen
  have hafter := h.act (.openDatabase txn name flags)
  have htxn := lt_of_lifecycleFault hopened.fault
  have henv := h.anchored.env_lt txn htxn
  obtain ⟨hmain, hoccupant⟩ := occupant_of_open hopened.answer
  refine ⟨hopened.env_eq, hopened.env_eq ▸ henv, hopened.name_eq, hmain, ?_, ?_, ?_⟩
  · rw [hopened.env_eq]
    exact hopened.generation
  · have hgiven := hafter.numbered.opened txn (database.slot, database.generation)
      (by rw [hopened.opened_eq]; exact List.mem_cons_self)
    have hsame : ((system.after (.openDatabase txn name flags)).transaction txn).env
        = (system.transaction txn).env :=
      congrArg (·.1) ((h.transition (.openDatabase txn name flags)).identity htxn)
    rw [hsame, ← hopened.env_eq] at hgiven
    exact hgiven
  · rw [occupant, hopened.env_eq, hopened.engine_eq, setEngineOf, engine_setEngine engine henv,
      Database.engineName, hopened.name_eq]
    exact hoccupant

/-! ## Accesses -/

/-- What an action on a database lets the engine do goes through the slot of the handle. -/
theorem use_of_access {use : Engine.Use} (haccess : action.access? = some (user, access))
    (huse : action.use? = some (txn, use)) :
    txn = user ∧ use.slot? = some access.database.slot := by
  cases action with
  | get | stat | put | reserve | del | clear | dropDatabase =>
      simp only [Action.access?, Action.use?, Option.some.injEq, Prod.mk.injEq] at haccess huse
      obtain ⟨rfl, rfl⟩ := haccess
      obtain ⟨rfl, rfl⟩ := huse
      exact ⟨rfl, rfl⟩
  | _ => simp [Action.access?] at haccess

/-- An action on a database works on the database that occupies the slot of the handle, and leaves
the databases of other names and other environments alone. -/
theorem Sound.confined (h : Sound system) (haccess : action.access? = some (user, access)) :
    Engine.Confined (system.native user) access.database.slot
        (system.occupant (system.transaction user).env access.database.slot).name
        (system.engineOf user) ((system.after action).engine (system.transaction user).env) ∧
      ∀ env ≠ (system.transaction user).env,
        (system.after action).engine env = system.engine env := by
  have hsame : Engine.UsedThrough (system.engineOf user) (system.native user) access.database.slot
      (system.engineOf user) := .same
  have hused : ∀ (use : Engine.Use) {engine : Engine},
      (system.transaction user).lifecycleFault = none → use.slot? = some access.database.slot →
      (system.engineOf user).use (system.native user) use = engine →
      Engine.Confined (system.native user) access.database.slot
          (system.occupant (system.transaction user).env access.database.slot).name
          (system.engineOf user)
          ((system.setEngineOf user engine).engine (system.transaction user).env) ∧
        ∀ env ≠ (system.transaction user).env,
          (system.setEngineOf user engine).engine env = system.engine env := by
    rintro use engine hfault hslot rfl
    have henv := h.anchored.env_lt user (lt_of_lifecycleFault hfault)
    rw [setEngineOf, engine_setEngine _ henv]
    exact ⟨(Engine.use_usedThrough _ _ hslot).confined, fun env hne ↦ engine_setEngine_of_ne _ hne⟩
  have htransition := h.transition action
  generalize system.after action = after at *
  cases htransition with
  | idle | files => exact ⟨hsame.confined, fun _ _ ↦ rfl⟩
  | used use haction hfault =>
      obtain ⟨rfl, hslot⟩ := use_of_access haccess haction
      exact hused use hfault hslot rfl
  | dropped hfault henv hlive hslot hdrop =>
      simp only [Action.access?, Option.some.injEq, Prod.mk.injEq] at haccess
      obtain ⟨rfl, rfl⟩ := haccess
      obtain ⟨hconfined, hothers⟩ := hused (.drop _ true) hfault rfl (congrArg Prod.snd hdrop)
      simp only [engine_recordDrop]
      exact ⟨hconfined, hothers⟩
  | aside files haction =>
      cases action <;> simp [Action.access?, Action.through?] at haccess haction
  | discarded haction => rcases haction with rfl | rfl <;> simp [Action.access?] at haccess
  | openedEnvironment | closed | reopened | opened | began | committed | commitFailed | reset
  | renewed => simp [Action.access?] at haccess

/-- A value that was read through a slot comes from a table that the transaction has for the
occupant of the slot, if it knows of the occupant and records a database for it. -/
theorem value_of_get (h : Reachable system) {key : Bytes} {value : Option Bytes}
    (hget : (system.get user database key).result = .ok value) {found : Engine.Txn}
    {content : Engine.TxnSlot}
    (hfound : (system.engineOf user).txn? (system.native user) = some found)
    (hcontent : found.slot? database.slot = some content)
    (hsequence : content.sequence
      = (system.occupant (system.transaction user).env database.slot).sequence)
    (hrecorded : database.slot = Engine.mainSlot ∨
      (found.recorded (system.engineOf user).slots database.slot).isSome = true) :
    ∃ table, found.Has (system.engineOf user).slots database.slot table ∧
      value = table.value key := by
  obtain ⟨hgate, txn, content', htxn, husable, hblocked, hkey⟩ := usable_of_get hget
  obtain rfl : txn = found := Option.some.inj (htxn.symm.trans hfound)
  have hslot := (Engine.Txn.slot?_of_usable? husable).1
  obtain rfl : content' = content := Option.some.inj (hslot.symm.trans hcontent)
  have hcoherent := h.coherent (system.transaction user).env txn (Engine.mem_of_txn? htxn)
  rw [get_eq hgate htxn husable hblocked hkey] at hget
  rcases hcoherent.load_cases husable hsequence hrecorded with ⟨loaded, hload, hhas⟩ | ⟨hload, -⟩
  · rw [show txn.load (system.engineOf user).slots database.slot content' = _ from hload] at hget
    exact ⟨loaded.table, hhas, (Except.ok.inj hget).symm⟩
  · rw [show txn.load (system.engineOf user).slots database.slot content' = _ from hload] at hget
    simp at hget

/-- Figures that were asked for through a slot are those of a table that the transaction has for the
occupant of the slot, if it knows of the occupant and records a database for it with the flags that
it knows. -/
theorem figures_of_stat (h : Reachable system) {stat : Engine.Stat}
    (hstat : (system.stat user database).result = .ok stat) {found : Engine.Txn}
    {content : Engine.TxnSlot}
    (hfound : (system.engineOf user).txn? (system.native user) = some found)
    (hcontent : found.slot? database.slot = some content)
    (hsequence : content.sequence
      = (system.occupant (system.transaction user).env database.slot).sequence)
    (hrecorded : database.slot = Engine.mainSlot ∨
      (found.recorded (system.engineOf user).slots database.slot).isSome = true)
    (hflags : ∀ table, found.recorded (system.engineOf user).slots database.slot = some table →
      table.flags = content.table.flags) :
    ∃ table, found.Has (system.engineOf user).slots database.slot table ∧ stat = table.stat := by
  obtain ⟨hgate, txn, content', htxn, husable, hblocked⟩ := usable_of_stat hstat
  obtain rfl : txn = found := Option.some.inj (htxn.symm.trans hfound)
  have hslot := (Engine.Txn.slot?_of_usable? husable).1
  obtain rfl : content' = content := Option.some.inj (hslot.symm.trans hcontent)
  have hcoherent := h.coherent (system.transaction user).env txn (Engine.mem_of_txn? htxn)
  rw [stat_eq hgate htxn husable hblocked] at hstat
  rcases hcoherent.load_cases husable hsequence hrecorded with
    ⟨loaded, hload, hhas⟩ | ⟨-, table, htable, hne⟩
  · rw [show txn.load (system.engineOf user).slots database.slot content' = _ from hload] at hstat
    exact ⟨loaded.table, hhas, (Except.ok.inj hstat).symm⟩
  · exact absurd (hflags table htable) hne

/-! ## What identifies a database -/

/-- The occupation of its slot under which a handle was issued still stands. -/
def Stands (database : Database) (issued last : System) : Prop :=
  (last.occupant database.env database.slot).sequence
    = (issued.occupant database.env database.slot).sequence

/-- Along a run an environment gives out later generations and has later tables of slots. -/
theorem Sound.later {allowed : System → Action → Prop} {first last : System} (h : Sound first)
    (henv : env < first.environments.length) (hrun : Run allowed first last) :
    env < last.environments.length ∧ first.nextGeneration env ≤ last.nextGeneration env ∧
      Engine.SlotTable.Later (first.engine env).slots (last.engine env).slots := by
  induction hrun with
  | nil => exact ⟨henv, Nat.le_refl _, .refl _⟩
  | @step last action run _ ih =>
      obtain ⟨hlt, hnext, hlater⟩ := ih
      have hsound := h.run run
      have htransition := hsound.transition action
      have hturn := htransition.turn hsound.anchored.roster hlt
      obtain ⟨-, -, hslots⟩ := (hsound.anchored.roster env).of_turn hturn
      exact ⟨Nat.lt_of_lt_of_le hlt htransition.length.2,
        Nat.le_trans hnext (htransition.nextGeneration_le hlt), hlater.trans hslots⟩

/-- Two handles to one slot agree in their names exactly if the slot had the same occupant after
both opens. -/
theorem Issued.name_iff {first last : System} {opener later : TxnId} {name name' : Option String}
    {flags flags' : DbFlags} {database other : Database}
    (h : Issued first opener name flags database) (h' : Issued last later name' flags' other)
    (henv : other.env = database.env) (hslot : other.slot = database.slot) :
    other.name = database.name ↔
      ((last.after (.openDatabase later name' flags')).occupant database.env database.slot).name
        = ((first.after (.openDatabase opener name flags)).occupant database.env
            database.slot).name := by
  have hother := h'.occupant
  rw [henv, hslot] at hother
  rw [h.occupant, hother]
  unfold Database.engineName
  constructor
  · intro hname
    rw [hname]
  · intro hname
    have hboth : name' = none ↔ name = none := by
      rw [h'.main, h.main, hslot]
    rw [h'.name_eq, h.name_eq] at hname ⊢
    cases name with
    | none => exact hboth.mpr rfl
    | some text =>
        cases name' with
        | none => exact absurd (hboth.mp rfl) nofun
        | some text' => exact congrArg some (Bytes.ofText_inj hname)

/-- A commit gives a name another table in the image only if the transaction had that table for it:
in its snapshot, or changed behind a slot that the name occupies. -/
theorem Sound.image_of_commit (h : Sound system) (hcommit : (system.commit txn).result = .ok ())
    (name : Bytes) :
    ((system.after (.commit txn)).engineOf txn).image.snapshot.table name
        = (system.engineOf txn).image.snapshot.table name ∨
      ∃ found, (system.engineOf txn).txn? (system.native txn) = some found ∧
        (((system.after (.commit txn)).engineOf txn).image.snapshot.table name
            = found.snapshot.table name ∨
          ∃ slot, found.Changed (system.engineOf txn).slots slot name
            (((system.after (.commit txn)).engineOf txn).image.snapshot.table name)) := by
  obtain ⟨engine, hfault, hengine, hstate⟩ := commit_ok hcommit
  have htxn := lt_of_lifecycleFault hfault
  have henv := congrArg (·.1) ((h.transition (.commit txn)).identity htxn)
  have hafter : (system.after (.commit txn)).engineOf txn = engine := by
    rw [engineOf, show ((system.after (.commit txn)).transaction txn).env = _ from henv,
      show system.after (.commit txn) = _ from hstate, Transaction.identity, engine_finish,
      engine_handOver, setEngineOf, engine_setEngine engine (h.anchored.env_lt txn htxn)]
  rw [hafter]
  exact Engine.commit_image (h.anchored.roster _) hengine name

/-- Whatever a transaction does to a database through a handle, it works on the database of the name
that occupies the slot, and leaves those of other names, other transactions and other environments
alone. -/
def KeepsToOccupant (system : System) (user : TxnId) (database : Database) : Prop :=
  ∀ action access, action.access? = some (user, access) → access.database.slot = database.slot →
    Engine.Confined (system.native user) database.slot
        (system.occupant (system.transaction user).env database.slot).name (system.engineOf user)
        ((system.after action).engine (system.transaction user).env) ∧
      ∀ env ≠ (system.transaction user).env, (system.after action).engine env = system.engine env

/-- What a transaction reads through a handle, if it knows of the occupant of the slot and records a
database for it, comes from a table that it has for the occupant. Figures are asked for with the
flags that the slot is known to have. -/
def ReadsOccupant (system : System) (user : TxnId) (database : Database) : Prop :=
  ∀ found content, (system.engineOf user).txn? (system.native user) = some found →
    found.slot? database.slot = some content →
    content.sequence = (system.occupant (system.transaction user).env database.slot).sequence →
    (database.slot = Engine.mainSlot ∨
      (found.recorded (system.engineOf user).slots database.slot).isSome = true) →
    (∀ key value, (system.get user database key).result = .ok value →
      ∃ table, found.Has (system.engineOf user).slots database.slot table ∧
        value = table.value key) ∧
    ((∀ table, found.recorded (system.engineOf user).slots database.slot = some table →
        table.flags = content.table.flags) →
      ∀ stat, (system.stat user database).result = .ok stat →
        ∃ table, found.Has (system.engineOf user).slots database.slot table ∧ stat = table.stat)

/-- The commit of a transaction gives a name another table in the image only if the transaction had
that table for it: in its snapshot, or changed behind a slot that the name occupies. -/
def RecordsOccupants (system : System) (user : TxnId) : Prop :=
  (system.commit user).result = .ok () → ∀ name,
    ((system.after (.commit user)).engineOf user).image.snapshot.table name
        = (system.engineOf user).image.snapshot.table name ∨
      ∃ found, (system.engineOf user).txn? (system.native user) = some found ∧
        (((system.after (.commit user)).engineOf user).image.snapshot.table name
            = found.snapshot.table name ∨
          ∃ slot, found.Changed (system.engineOf user).slots slot name
            (((system.after (.commit user)).engineOf user).image.snapshot.table name))

/-- What the triple of a handle identifies, after any run since the handle was issued.

A later handle to the same slot gets the same generation exactly if that generation is live for its
open, and has the same name exactly if the slot has the occupant that it had when the first handle
was issued; so a triple names two databases exactly if the slot has changed hands while the
generation stayed live. Whatever goes through the handle keeps to the database of the occupant,
which is the one that the handle was opened for as long as the occupation stands under which it was
issued. -/
theorem handle_identity {first last : System} {opener : TxnId} (hfirst : Reachable first)
    (hopen : (first.openThrough opener name flags).result = .ok database)
    (hrun : Run anything (first.after (.openDatabase opener name flags)) last) :
    (∀ later name' flags' other, (last.openThrough later name' flags').result = .ok other →
        other.env = database.env → other.slot = database.slot →
        (other.generation = database.generation ↔
          last.liveGeneration later database.slot = some database.generation) ∧
        (other.name = database.name ↔
          ((last.after (.openDatabase later name' flags')).occupant database.env
              database.slot).name
            = ((first.after (.openDatabase opener name flags)).occupant database.env
                database.slot).name)) ∧
      (Stands database (first.after (.openDatabase opener name flags)) last →
        (last.occupant database.env database.slot).name = database.engineName) ∧
      ∀ user, KeepsToOccupant last user database ∧ ReadsOccupant last user database ∧
        RecordsOccupants last user := by
  have hissued := hfirst.sound.issued hopen
  have hafter := hfirst.sound.act (.openDatabase opener name flags)
  have hlast := hafter.run hrun
  have hreachable : Reachable last :=
    hfirst.run ((Run.single (.openDatabase opener name flags) trivial).trans hrun)
  have henv := Nat.lt_of_lt_of_le hissued.env_lt
    (hfirst.sound.transition (.openDatabase opener name flags)).length.2
  obtain ⟨-, hnext, hlater⟩ := hafter.later henv hrun
  refine ⟨?_, ?_, ?_⟩
  · intro later name' flags' other hother hsameEnv hsameSlot
    have hissued' := hlast.issued hother
    refine ⟨?_, hissued.name_iff hissued' hsameEnv hsameSlot⟩
    have hgeneration := hissued'.generation
    rw [hsameSlot, hsameEnv] at hgeneration
    -- a new generation is later than all that were given out before the second open
    have hlt := Nat.lt_of_lt_of_le hissued.generation_lt hnext
    rcases hgeneration with hlive | ⟨hlive, hnew⟩
    · rw [hlive, Option.some.injEq]
    · rw [hlive, hnew]
      exact ⟨fun heq ↦ absurd heq (Nat.ne_of_gt hlt), nofun⟩
  · intro hstands
    exact ((hlater database.slot).name_eq hstands).trans hissued.occupant
  · intro user
    refine ⟨?_, ?_, fun hcommit name ↦ hlast.image_of_commit hcommit name⟩
    · intro action access haccess hslot
      rw [← hslot]
      exact hlast.confined haccess
    · intro found content hfound hcontent hsequence hrecorded
      exact ⟨fun key value hget ↦
          value_of_get hreachable hget hfound hcontent hsequence hrecorded,
        fun hflags stat hstat ↦
          figures_of_stat hreachable hstat hfound hcontent hsequence hrecorded hflags⟩

/-- A database that is opened again while it is open gives a handle with the name that its slot
has. -/
theorem handle_identity_reopened :
    ((sample.afterAll [.begin 0 none .empty mainThread]).openThrough 1 (some "a") .empty).result
        = .ok { sampleDatabase with flags := .empty } ∧
      ((sample.afterAll [.begin 0 none .empty mainThread, .openDatabase 1 (some "a") .empty,
        .commit 1]).occupant 0 2).name = Bytes.ofText "a" := by
  have hopen : ((sample.afterAll [.begin 0 none .empty mainThread]).openThrough 1 (some "a")
      .empty).result = .ok { sampleDatabase with flags := .empty } := by decide +kernel
  exact ⟨hopen, (handle_identity (sample_reachable.run (.all _ [.begin 0 none .empty mainThread]))
    hopen (.all _ [.commit 1])).2.1 (by unfold Stands; decide +kernel)⟩

/-- A drop that is aborted frees the slot at once but leaves its generation live: the next database
to be created gets the slot and the generation of the dropped one, whose handle then reads from
it. -/
theorem handle_of_two_databases : ∃ (first last : System) (opener later : TxnId)
    (database other : Database) (key value : Bytes), Reachable first ∧ first.checks = true ∧
      (first.openThrough opener (some "a") DbFlags.create).result = .ok database ∧
      Run anything (first.after (.openDatabase opener (some "a") DbFlags.create)) last ∧
      (last.openThrough later (some "b") DbFlags.create).result = .ok other ∧
      other.env = database.env ∧ other.slot = database.slot ∧
      other.generation = database.generation ∧ other.name ≠ database.name ∧
      (((last.after (.openDatabase later (some "b") DbFlags.create)).after
        (.put later other key value .empty)).get later database key).result = .ok (some value) := by
  refine ⟨System.afterAll { files := sampleFiles }
      [.openEnvironment samplePath .empty { maxDbs := 4, maxReaders := 4 } .default,
        .begin 0 none .empty mainThread], _, 0, 2, sampleDatabase,
    { sampleDatabase with name := some "b" }, [107], [118], ⟨true, sampleFiles, .all _ _⟩,
    by decide +kernel, by decide +kernel,
    .all _ [.commit 0, .begin 0 none .empty mainThread, .dropDatabase 1 sampleDatabase, .abort 1,
      .begin 0 none .empty mainThread], ?_, rfl, rfl, rfl, by decide, ?_⟩
  · decide +kernel
  · decide +kernel

end System

end MappedStore
