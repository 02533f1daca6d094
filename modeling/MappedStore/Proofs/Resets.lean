import MappedStore.Proofs.Engine.Browsing
import MappedStore.Proofs.Footing
import MappedStore.Proofs.Retention

/-!
# Opens of readers across resets

A reset frees in the engine the slots that a reader has opened, but leaves what the handle layer has
recorded of the opens, as an abort does not. So the handles are still accepted after a renewal, when
their slots may be free or may have another occupant, and a commit still hands them over to the
environment. `System.opens_outlive_reset` says what becomes of them.
-/

namespace MappedStore.System

open Error (ofCode)

variable {system after : System} {action : Action} {reader : TxnId} {slot generation : Nat}
  {env : EnvId} {table : Engine.Table} {name : Option String} {flags : DbFlags}
  {database held : Database} {found : Engine.Txn}

/-! ## What the handle layer keeps -/

/-- A transaction that only reads takes no drop. -/
theorem not_takesDrop_of_reader (hsound : Sound system)
    (hreader : (system.transaction reader).readOnly = true) (slot : Nat) (action : Action) :
    ¬TakesDrop slot reader system action := by
  have hkept : ((system.after action).scope reader).2.count slot
      ≤ (system.transaction reader).dropped.count slot := by
    rcases hsound.touched action reader with hsame | ⟨hlt, htouched⟩
    · rw [hsame]
      exact Nat.le_refl _
    generalize (system.after action).scope reader = scope at htouched ⊢
    cases htouched with
    | opened _ _ hscope => rw [hscope]
    | @dropped database engine hdrop =>
        obtain ⟨⟨found, hfound, -, hwriter⟩, -⟩ := ((system.engineOf reader).drop_cases
          (system.native reader) database.slot true).2 (by rw [hdrop])
        have hmem := (hsound.anchored.roster _).mem_writers hfound hwriter
        have hwrites : Writes system reader := ⟨hlt, found, hmem, Engine.handle_of_txn? hfound⟩
        rw [(hsound.of_writes hwrites).1] at hreader
        cases hreader
    | received hcommit hparent =>
        have hwriter := (hsound.of_writes (hsound.commit_nested hcommit hparent).2.1).1
        rw [hreader] at hwriter
        cases hwriter
    | handed _ hscope =>
        rw [hscope]
        exact Nat.zero_le _
  exact Nat.not_lt_of_le hkept

/-- A reader has recorded the open that gave a handle. -/
structure Remembers (system : System) (reader : TxnId) (database : Database) : Prop where
  readOnly : (system.transaction reader).readOnly = true
  carried : Carried system database.env database.slot database.generation reader

/-- An open through a reader is recorded. -/
theorem Sound.remembers (h : Sound system) (hreader : (system.transaction reader).readOnly = true)
    (hopen : (system.openThrough reader name flags).result = .ok database) :
    Remembers (system.after (.openDatabase reader name flags)) reader database := by
  refine ⟨?_, carried_of_open h hopen⟩
  obtain ⟨engine, hopened⟩ := openedThrough_of_ok hopen
  have hidentity := (h.transition (.openDatabase reader name flags)).identity
    (lt_of_lifecycleFault hopened.fault)
  exact (congrArg (·.2.2.1) hidentity).trans hreader

/-- What a reader has recorded stays recorded, whatever happens. -/
theorem Remembers.run {first last : System} (h : Remembers first reader database)
    (hfirst : Sound first) (hrun : Run anything first last) : Remembers last reader database := by
  induction hrun with
  | nil => exact h
  | @step last action hrun _ ih =>
      have hsound := hfirst.run hrun
      have hidentity := (hsound.transition action).identity ih.carried.lt
      exact ⟨(congrArg (·.2.2.1) hidentity).trans ih.readOnly,
        ih.carried.act hsound (not_takesDrop_of_reader hsound ih.readOnly database.slot action)⟩

/-- The handle is accepted until the reader ends. -/
theorem Remembers.accepts (h : Remembers system reader database) (hsound : Sound system)
    (hunfinished : (system.transaction reader).state.isFinished = false) :
    system.accepts reader database = true :=
  decide_eq_true (h.carried.live hsound hunfinished)

/-- The gate lets reads through the handle, while the reader can be used. -/
theorem Remembers.admits (h : Remembers system reader database) (hsound : Sound system)
    (hfault : (system.transaction reader).lifecycleFault = none) :
    Admits system reader database :=
  ⟨hfault, h.carried.env_eq.symm, fun _ ↦ h.accepts hsound (unfinished_of_lifecycleFault hfault)⟩

/-- A commit hands over what the reader has recorded. -/
theorem Remembers.retained (h : Remembers system reader database) (hsound : Sound system)
    (hcommit : (system.commit reader).result = .ok ()) :
    ((system.after (.commit reader)).retained database.env).lookup database.slot
      = some database.generation :=
  (h.carried.lasting hsound (hsound.attended.root reader h.readOnly) hcommit).retained

/-! ## What the engine keeps -/

/-- A reader has the table of a slot that it has opened. -/
def OwnsTable (system : System) (reader : TxnId) (slot : Nat) (table : Engine.Table) : Prop :=
  ∃ found, Attends system reader found ∧ found.OwnsTable slot table

/-- A reader has the table until it ends, is put to rest or takes the slot again. -/
theorem OwnsTable.act (h : OwnsTable system reader slot table) (hsound : Sound system)
    (hreader : reader < system.transactions.length) (hslot : slot ≠ Engine.mainSlot)
    (hunfinished : ((system.after action).transaction reader).state.isFinished = false)
    (hreset : action ≠ .reset reader) (htakes : ¬Takes system reader slot action) :
    OwnsTable (system.after action) reader slot table := by
  obtain ⟨found, hattends, howns⟩ := h
  rcases hattends.kept_or_used hsound hreader howns.awake hunfinished hreset with
    hkept | ⟨hthrough, use, huse⟩
  · exact ⟨found, hkept, howns⟩
  obtain ⟨hknown, hreadOnly⟩ := hattends.known hsound
  have hroster : (system.engineOf reader).Roster := hsound.anchored.roster _
  obtain ⟨found', hreading, hretains, hinfo⟩ := hroster.use_reader hknown hreadOnly use hslot
  rw [← huse] at hreading hretains hinfo
  have hstands : ((system.after action).occupant (system.transaction reader).env slot).sequence
      = (system.occupant (system.transaction reader).env slot).sequence := by
    by_contra hmoved
    rcases hinfo with hinfo | hname
    · exact hmoved (congrArg Engine.SlotInfo.sequence hinfo)
    · exact htakes ⟨hthrough, hname, hmoved⟩
  exact ⟨found', hattends.replaced hsound hreader hreading hretains.kin.handle,
    howns.retained hretains hstands⟩

/-- A reader has the table after a run in which it is not put to rest and does not take the slot
again, until it ends. -/
theorem OwnsTable.run {first last : System} (h : OwnsTable first reader slot table)
    (hfirst : Sound first) (hreader : reader < first.transactions.length) (hslot : slot ≠ Engine.mainSlot)
    (hrun : Run (fun system action ↦ action ≠ .reset reader ∧ ¬Takes system reader slot action)
      first last)
    (hunfinished : (last.transaction reader).state.isFinished = false) :
    OwnsTable last reader slot table := by
  induction hrun with
  | nil => exact h
  | step hrun hallowed ih =>
      have hsound := hfirst.run hrun
      have hlt := hrun.lt_length hfirst hreader
      exact (ih (hsound.unfinished_back hlt hunfinished)).act hsound hlt hslot hunfinished hallowed.1
        hallowed.2

/-- Through a handle of the slot the reader answers from the table. -/
theorem OwnsTable.answers (h : OwnsTable system reader slot table) (hsound : Sound system)
    (hadmits : Admits system reader held) (hslot : held.slot = slot) :
    Answers system reader held (.ok table) := by
  obtain ⟨found, hattends, howns⟩ := h
  subst hslot
  obtain ⟨content, husable, hload⟩ := howns.load (system.engineOf reader).slots
  have hanswers := hattends.answers hsound hadmits howns.whole husable
  rw [hload] at hanswers
  exact hanswers

/-- By an open that takes its slot a reader comes to have the table that its snapshot has under the
name. -/
theorem Sound.owns_of_open (h : Sound system) (hreader : (system.transaction reader).readOnly = true)
    (hopen : (system.openThrough reader name flags).result = .ok database)
    (htakes : Takes system reader database.slot (.openDatabase reader name flags)) :
    database.slot ≠ Engine.mainSlot ∧ ∃ found, Attends system reader found ∧
      OwnsTable (system.after (.openDatabase reader name flags)) reader database.slot
        (found.snapshot.table database.engineName) := by
  have hissued := h.issued hopen
  have hlt := htakes.lt h
  obtain ⟨engine, hopened⟩ := openedThrough_of_ok hopen
  have hafter : (system.after (.openDatabase reader name flags)).engine (system.transaction reader).env
      = engine := by
    rw [hopened.engine_eq]
    exact engine_setEngine engine (h.anchored.env_lt reader hlt)
  obtain ⟨found, hmem, hknown, hreadOnly, hawake⟩ :=
    h.attended.awake h.anchored hreader (active_of_lifecycleFault hopened.fault).1
  have hattends : Attends system reader found := ⟨hmem, Engine.handle_of_txn? hknown⟩
  have hmoved := htakes.moved
  rw [occupant, hafter] at hmoved
  have hroster : (system.engineOf reader).Roster := h.anchored.roster _
  obtain ⟨hslot, text, found', htext, hreading, hkin, howns⟩ :=
    hroster.opens_reader hknown hreadOnly hawake hopened.answer hmoved
  have hname : database.engineName = text := by
    rw [Database.engineName, hissued.name_eq, htext]
    rfl
  refine ⟨hslot, found, hattends, found', ?_, hname ▸ howns⟩
  exact hattends.replaced h hlt (hafter ▸ hreading) hkin.handle

/-- When a reader commits, a slot that it has opened and that has kept an occupant is offered. -/
theorem OwnsTable.offers (h : OwnsTable system reader slot table) (hsound : Sound system)
    (hslot : slot ≠ Engine.mainSlot) (hcommit : (system.commit reader).result = .ok ())
    (hname : (system.occupant (system.transaction reader).env slot).name ≠ []) :
    ((system.after (.commit reader)).engine (system.transaction reader).env).Offers slot := by
  obtain ⟨found, hattends, howns⟩ := h
  obtain ⟨hknown, hreadOnly⟩ := hattends.known hsound
  obtain ⟨engine, hfault, hengine, hstate⟩ := commit_ok hcommit
  have henv := hsound.anchored.env_lt reader (lt_of_lifecycleFault hfault)
  have hended : engine = (system.engineOf reader).endReader found true := by
    have hanswer := hengine
    simp only [Engine.commit, hknown, hreadOnly, if_true] at hanswer
    exact (congrArg Prod.snd hanswer).symm
  rw [show system.after (.commit reader) = _ from hstate, engine_finish, engine_handOver,
    setEngineOf, engine_setEngine engine henv, hended]
  exact howns.offers hslot hname

/-- A reset that succeeds puts a reader that can be used to rest. -/
theorem of_reset (hreset : (system.reset reader).result = .ok ()) :
    (system.transaction reader).lifecycleFault = none ∧ (system.reset reader).state =
      (system.setEngineOf reader ((system.engineOf reader).reset (system.native reader))).setState
        reader .reset := by
  have houtcome := system.reset_outcome reader
  generalize system.reset reader = outcome at hreset houtcome ⊢
  cases houtcome with
  | unready | writer => cases hreset
  | reset hfault => exact ⟨hfault, rfl⟩

/-- When a reader is reset, a slot that it has opened is freed. -/
theorem OwnsTable.freed (h : OwnsTable system reader slot table) (hsound : Sound system)
    (hslot : slot ≠ Engine.mainSlot) (hreset : (system.reset reader).result = .ok ()) :
    ((system.after (.reset reader)).occupant (system.transaction reader).env slot).name = [] := by
  obtain ⟨found, hattends, howns⟩ := h
  obtain ⟨hknown, hreadOnly⟩ := hattends.known hsound
  obtain ⟨hfault, hstate⟩ := of_reset hreset
  have henv := hsound.anchored.env_lt reader (lt_of_lifecycleFault hfault)
  rw [occupant, show system.after (.reset reader) = _ from hstate, engine_setState, setEngineOf,
    engine_setEngine _ henv]
  exact howns.freed hslot hknown hreadOnly

/-! ## What becomes of the handles -/

/-- An action after which a reader goes on with a slot as before: it is neither put to rest nor
takes the slot. -/
def CarriesOn (reader : TxnId) (slot : Nat) (system : System) (action : Action) : Prop :=
  action ≠ .reset reader ∧ ¬Takes system reader slot action

/-- A slot that a reader cannot use it still cannot as long as it carries on. -/
theorem Lacks.run_reader {first last : System} (h : Lacks first reader slot)
    (hfirst : Reachable first) (hreader : (first.transaction reader).readOnly = true)
    (hlt : reader < first.transactions.length) (hrun : Run (CarriesOn reader slot) first last) :
    Lacks last reader slot := by
  induction hrun with
  | nil => exact h
  | @step last action hrun hallowed ih =>
      have hlast := hfirst.run hrun
      have hstill := (congrArg (·.2.2.1) (hrun.identity hfirst.sound hlt)).trans hreader
      refine ih.act hlast (hrun.lt_length hfirst.sound hlt) (hlast.sound.attended.root reader hstill)
        hallowed.1 fun opener hnested ↦ ?_
      -- nothing is nested in a reader
      obtain rfl := eq_of_reader_mem_lineage hlast hnested hstill
      exact hallowed.2

/-- Reads through a handle fail with an error of the engine. -/
structure Unreadable (system : System) (reader : TxnId) (database : Database) : Prop where
  get : ∀ key : Bytes, key.length ≤ Engine.maxKeySize →
    (system.act (.get reader database key)).result = .error (.error (ofCode Engine.invalid))
  stat : (system.act (.stat reader database)).result = .error (.error (ofCode Engine.invalid))

/-- Reads through a handle of a slot that a reader cannot use fail, though the gate lets them
through. -/
theorem Lacks.unreadable (h : Lacks system reader database.slot) (hreachable : Reachable system)
    (hadmits : Admits system reader database) : Unreadable system reader database := by
  have hnested := self_mem_lineage hreachable.sound.anchored reader
  exact ⟨fun key hkey ↦ h.fails hreachable hnested rfl rfl
      (hadmits.gateFault (some key) fun bytes hbytes ↦ Option.some.inj hbytes ▸ hkey),
    h.fails hreachable hnested rfl rfl (hadmits.gateFault none nofun)⟩

/-- What becomes of a handle when its reader is renewed. Without the slot it cannot be read through,
and with the slot it is read from the database that occupies the slot then. -/
theorem Remembers.renewed {last : System} (h : Remembers system reader database)
    (hreachable : Reachable system) (hrenew : (system.renew reader).result = .ok ()) :
    (¬((system.after (.renew reader)).engineOf reader).Offers database.slot →
        Run (CarriesOn reader database.slot) (system.after (.renew reader)) last →
        (last.transaction reader).lifecycleFault = none → Unreadable last reader database) ∧
      (Usable (system.after (.renew reader)) reader database →
        Run (fun system action ↦ Leaves reader database.env action ∧
          ¬Disturbs reader database system action) (system.after (.renew reader)) last →
        Answers last reader database
          (.ok ((system.after (.renew reader)).stored database.env database.slot))) := by
  have hsound := hreachable.sound
  have hwoken := hreachable.act (.renew reader)
  have hstep : Run anything system (system.after (.renew reader)) := .single _ trivial
  have hremembers := h.run hsound hstep
  constructor
  · intro hoffers hrun hfault
    have henters : Enters system reader (.renew reader) := .renewed hrenew
    have hlacks := (henters.footing hsound database.slot).2 hoffers
    have hlast := hwoken.run hrun
    exact (hlacks.run_reader hwoken hremembers.readOnly hremembers.carried.lt hrun).unreadable hlast
      ((hremembers.run hwoken.sound hrun.anything).admits hlast.sound hfault)
  · intro husable hrun
    have hstarts : Starts system reader (.renew reader) := .renewed hrenew
    obtain ⟨origin, -, hbroken, hobserves⟩ := hstarts.observes hsound husable
    exact (hobserves.run hwoken hrun).answers (hwoken.sound.run hrun) hbroken

/-- As long as its occupation stands a slot has the database that a handle was opened on. -/
theorem Sound.occupant_stands {last : System} (h : Sound system)
    (hopen : (system.openThrough reader name flags).result = .ok database)
    (hrun : Run anything (system.after (.openDatabase reader name flags)) last)
    (hstands : Stands database (system.after (.openDatabase reader name flags)) last) :
    (last.occupant database.env database.slot).name = database.engineName := by
  have hissued := h.issued hopen
  have henv := Nat.lt_of_lt_of_le hissued.env_lt
    (h.transition (.openDatabase reader name flags)).length.2
  obtain ⟨-, -, hlater⟩ := (h.act (.openDatabase reader name flags)).later henv hrun
  exact ((hlater database.slot).name_eq hstands).trans hissued.occupant

/-- Opens of a reader outlive its resets in the handle layer, and do not in the engine.

Until the reader ends its handle is accepted in it, and a commit hands over the generation. The slot
then still has the database that was opened, if its counter has not moved since the open.

From an open that takes the slot on, the reader answers from the database as its snapshot has it,
until it is reset or takes the slot again. If it commits before that the slot is offered to others,
and if it is reset the slot is freed. After a renewal without the slot, reads through the handle
fail with an error of the engine, until the reader takes the slot again. After a renewal with the
slot, it reads what was last committed of the database that occupies the slot then. -/
theorem opens_outlive_reset {first : System} (hfirst : Reachable first)
    (hreader : (first.transaction reader).readOnly = true)
    (hopen : (first.openThrough reader name flags).result = .ok database) :
    let opened := first.after (.openDatabase reader name flags)
    (∀ last, Run anything opened last → (last.transaction reader).state.isFinished = false →
        last.accepts reader database = true ∧ ((last.commit reader).result = .ok () →
          ((last.after (.commit reader)).retained database.env).lookup database.slot
              = some database.generation ∧
            (Stands database opened last →
              ((last.after (.commit reader)).occupant database.env database.slot).name
                = database.engineName))) ∧
      (Takes first reader database.slot (.openDatabase reader name flags) →
        ∃ found, Attends first reader found ∧
          ∀ last, Run (CarriesOn reader database.slot) opened last →
            (∀ held, Admits last reader held → held.slot = database.slot →
              Answers last reader held (.ok (found.snapshot.table database.engineName))) ∧
            ((last.commit reader).result = .ok () → Stands database opened last →
              ((last.after (.commit reader)).engine database.env).Offers database.slot) ∧
            ((last.reset reader).result = .ok () →
              ((last.after (.reset reader)).occupant database.env database.slot).name = [])) ∧
      ∀ slept last, Run anything opened slept → (slept.renew reader).result = .ok () →
        let woken := slept.after (.renew reader)
        (¬(woken.engineOf reader).Offers database.slot →
          Run (CarriesOn reader database.slot) woken last →
          (last.transaction reader).lifecycleFault = none → Unreadable last reader database) ∧
        (Usable woken reader database →
          Run (fun system action ↦ Leaves reader database.env action ∧
            ¬Disturbs reader database system action) woken last →
          Answers last reader database (.ok (woken.stored database.env database.slot))) := by
  intro opened
  have hsound := hfirst.sound
  have hopened : Reachable opened := hfirst.act _
  -- The handle layer only needs that the reader has recorded the open, which nothing takes back.
  have hremembers : ∀ {last}, Run anything opened last → Remembers last reader database :=
    fun hrun ↦ (hsound.remembers hreader hopen).run hopened.sound hrun
  refine ⟨fun last hrun hunfinished ↦ ?_, fun htakes ↦ ?_, fun slept last hslept hrenew ↦
    (hremembers hslept).renewed (hopened.run hslept) hrenew⟩
  · have hlast := hopened.sound.run hrun
    exact ⟨(hremembers hrun).accepts hlast hunfinished, fun hcommit ↦
      ⟨(hremembers hrun).retained hlast hcommit, fun hstands ↦
        (occupant_commit hlast hcommit _ _).trans (hsound.occupant_stands hopen hrun hstands)⟩⟩
  -- For the engine the reader has to own the table behind the slot, which a reset ends.
  · obtain ⟨hslot, found, hattends, howns⟩ := hsound.owns_of_open hreader hopen htakes
    refine ⟨found, hattends, fun last hrun ↦ ?_⟩
    have hlast := hopened.sound.run hrun
    have hplace := (hremembers hrun.anything).carried.env_eq
    have howned := fun hfault ↦ howns.run hopened.sound (hremembers .nil).carried.lt hslot hrun
      (unfinished_of_lifecycleFault hfault)
    refine ⟨fun held hadmits hheld ↦ (howned hadmits.lifecycle).answers hlast hadmits hheld,
      fun hcommit hstands ↦ ?_, fun hreset ↦ ?_⟩
    · have hname : (last.occupant database.env database.slot).name ≠ [] := by
        have hissued := hsound.issued hopen
        rw [hsound.occupant_stands hopen hrun.anything hstands, ← hissued.occupant, hissued.env_eq]
        exact htakes.name
      rw [← hplace] at hname ⊢
      exact (howned (lifecycleFault_of_commit hcommit)).offers hlast hslot hcommit hname
    · rw [← hplace]
      exact (howned (of_reset hreset).1).freed hlast hslot hreset

/-- The sample after a value was committed, in an environment that was opened anew. A reader of that
environment has begun. -/
def sampleReopened : System :=
  sampleWritten.afterAll [.close 0,
    .openEnvironment samplePath .empty { maxDbs := 4, maxReaders := 4 } .default,
    .begin 1 none TxnFlags.readOnly mainThread]

/-- A process can reach the sample with the reader. -/
theorem sampleReopened_reachable : Reachable sampleReopened :=
  (sample_reachable.run (.all _ _)).run (.all _ _)

/-- The handle that the reader of the sample gets by an open. -/
def sampleReopenedDatabase : Database := ⟨2, 1, 1, some "a", .empty⟩

/-- By the open the reader of the sample takes the slot. -/
theorem sampleReopened_takes :
    Takes sampleReopened 2 2 (.openDatabase 2 (some "a") .empty) := by
  have hplaced : ((sampleReopened.after (.openDatabase 2 (some "a") .empty)).occupant
        (sampleReopened.transaction 2).env 2).name ≠ [] ∧
      ((sampleReopened.after (.openDatabase 2 (some "a") .empty)).occupant
        (sampleReopened.transaction 2).env 2).sequence
          ≠ (sampleReopened.occupant (sampleReopened.transaction 2).env 2).sequence := by
    decide +kernel
  exact ⟨rfl, hplaced.1, hplaced.2⟩

/-- A reader answers through the handle that it has opened, but not once it has been reset and
renewed, unless another reader has opened the database and has committed in between. The commit of
the reader hands over a generation of a free slot. -/
theorem opens_outlive_reset_renewed :
    let opened := sampleReopened.after (.openDatabase 2 (some "a") .empty)
    let slept := opened.after (.reset 2)
    let woken := slept.after (.renew 2)
    let shared := slept.afterAll [.begin 1 none TxnFlags.readOnly mainThread,
      .openDatabase 3 (some "a") .empty, .commit 3]
    (∃ table, Answers opened 2 sampleReopenedDatabase (.ok table)) ∧
      (slept.occupant 1 2).name = [] ∧ woken.accepts 2 sampleReopenedDatabase = true ∧
      (woken.act (.get 2 sampleReopenedDatabase [107])).result
        = .error (.error (ofCode Engine.invalid)) ∧
      ((woken.after (.commit 2)).retained 1).lookup 2 = some 1 ∧
      ((shared.after (.renew 2)).get 2 sampleReopenedDatabase [107]).result = .ok (some [118]) := by
  intro opened slept woken shared
  obtain ⟨hopen, hreader, hfault, henv, haccepts, hreset⟩ :
      (sampleReopened.openThrough 2 (some "a") .empty).result = .ok sampleReopenedDatabase ∧
        (sampleReopened.transaction 2).readOnly = true ∧
        (opened.transaction 2).lifecycleFault = none ∧
        sampleReopenedDatabase.env = (opened.transaction 2).env ∧
        opened.accepts 2 sampleReopenedDatabase = true ∧
        (opened.reset 2).result = .ok () := by decide +kernel
  obtain ⟨hrenew, hknown, hready, hcommit⟩ : (slept.renew 2).result = .ok () ∧
      ((woken.engineOf 2).slots.info 2).known = false ∧
      (woken.transaction 2).lifecycleFault = none ∧ (woken.commit 2).result = .ok () := by
    decide +kernel
  obtain ⟨hshared, hread, hstored⟩ : (shared.renew 2).result = .ok () ∧
      ((shared.after (.renew 2)).get 2 sampleReopenedDatabase [107]).result = .ok (some [118]) ∧
      ((shared.after (.renew 2)).stored 1 2).value [107] = some [118] := by decide +kernel
  obtain ⟨hrecorded, htaken, hrenewed⟩ := opens_outlive_reset sampleReopened_reachable hreader hopen
  obtain ⟨found, -, hbefore⟩ := htaken sampleReopened_takes
  obtain ⟨hanswers, -, hfreed⟩ := hbefore opened .nil
  have hslept : Run anything opened slept := .single _ trivial
  obtain ⟨hlive, hretained⟩ :=
    hrecorded woken (hslept.step trivial) (unfinished_of_lifecycleFault hready)
  have hoffers : ¬(woken.engineOf 2).Offers 2 := by
    rintro (hslot | ⟨index, -, -, hoffered⟩)
    · cases hslot
    · rw [hknown] at hoffered
      cases hoffered
  have hgone := (hrenewed slept woken hslept hrenew).1 hoffers .nil hready
  have hback := (hrenewed shared (shared.after (.renew 2)) (hslept.trans (.all slept _)) hshared).2
    (usable_of_found hread) .nil
  refine ⟨⟨_, hanswers _ ⟨hfault, henv, fun _ ↦ haccepts⟩ rfl⟩, hfreed hreset, hlive,
    hgone.get [107] (by decide), (hretained hcommit).1, ?_⟩
  rw [hback.get [107] (by decide) (by decide)]
  exact congrArg Except.ok hstored

/-- After a reset and a renewal a reader accepts the handle that it has opened, though its slot is
free: reads fail with an error of the engine, and the commit makes the environment retain the slot.
-/
theorem handle_outlives_reset : ∃ (first : System) (reader : TxnId) (database : Database)
    (key value : Bytes), Reachable first ∧
      Takes first reader database.slot (.openDatabase reader (some "a") .empty) ∧
      first.checks = true ∧ (first.transaction reader).readOnly = true ∧
      (first.openThrough reader (some "a") .empty).result = .ok database ∧
      ((first.after (.openDatabase reader (some "a") .empty)).get reader database key).result
        = .ok (some value) ∧
      let woken := first.afterAll [.openDatabase reader (some "a") .empty, .reset reader,
        .renew reader]
      (woken.transaction reader).lifecycleFault = none ∧
        (woken.get reader database key).result = .error (.error (ofCode Engine.invalid)) ∧
        (woken.commit reader).result = .ok () ∧
        ((woken.after (.commit reader)).retained database.env).lookup database.slot
          = some database.generation ∧
        ((woken.after (.commit reader)).occupant database.env database.slot).name = [] := by
  refine ⟨sampleReopened, 2, sampleReopenedDatabase, [107], [118], sampleReopened_reachable,
    sampleReopened_takes, ?_⟩
  decide +kernel

end MappedStore.System
