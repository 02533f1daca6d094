import MappedStore.Proofs.Isolation
import MappedStore.Proofs.Linkage
import MappedStore.Proofs.Unchecked

/-!
# Where the slots of accepted handles can be used

The handle layer decides by its own records whether a handle is accepted, and the engine decides by
what each transaction knows of the slot whether it can be used. `System.accepted_usable` says how
far the two agree.
-/

namespace MappedStore

open Error (ofCode)
open Engine (SlotFault)

/-- The flags with which an action stores a value are some that the engine takes. -/
def Action.FlagsAccepted (action : Action) : Prop :=
  ∀ txn use flags, action.use? = some (txn, use) → use.flags? = some flags →
    WriteFlags.accepted.contains flags = true

namespace System

variable {system after : System} {action start : Action} {env : EnvId} {slot : Nat}
  {txn root reader opener : TxnId} {access : Access} {error : Error} {found : Engine.Txn}

/-! ## Failures because of the slot -/

/-- An action fails because of the slot that it uses: with an error of the engine that says so. -/
def Blames (system : System) (action : Action) : Prop :=
  ∃ code, SlotFault code ∧ (system.act action).result = .error (.error (ofCode code))

/-- What the gate objects to is no concern of the engine. -/
theorem code_of_gateFault (h : system.gateFault txn access = some error) : error.code = none := by
  rcases Option.or_eq_some_iff.mp h with hguard | ⟨-, hcourtesy⟩
  · exact code_of_guardFault hguard
  · split at hcourtesy
    · exact code_of_courtesyFault hcourtesy
    · cases hcourtesy

/-- An access that fails because of the slot was let through by the gate. -/
theorem Blames.passed (h : Blames system action) (haccess : action.access? = some (txn, access)) :
    system.gateFault txn access = none := by
  obtain ⟨code, -, hresult⟩ := h
  cases hgate : system.gateFault txn access with
  | none => rfl
  | some error =>
      have herror := (act_refused haccess hgate).1
      rw [hresult] at herror
      obtain rfl : ofCode code = error := by simpa using herror
      have hcode := code_of_gateFault hgate
      rw [Error.code_ofCode] at hcode
      cases hcode

/-- An access through a slot that the transaction commands does not fail because of the slot. -/
theorem not_blames_of_commands (haccess : action.access? = some (txn, access))
    (hflags : action.FlagsAccepted)
    (hfound : (system.engineOf txn).txn? (system.native txn) = some found)
    (hcommands : found.Commands (system.engineOf txn).slots access.database.slot) :
    ¬Blames system action := by
  intro hblames
  have hgate := hblames.passed haccess
  obtain ⟨code, hfault, hresult⟩ := hblames
  obtain ⟨use, other, huse, hrefusal, hcode⟩ := refusal_of_error haccess hgate hresult
  obtain ⟨used, hused, hslot, -, -⟩ := use_of_access? haccess
  obtain rfl : use = used := congrArg Prod.snd (Option.some.inj (huse.symm.trans hused))
  have hsame : code = other := by
    have hcodes := congrArg Error.code hcode
    rw [Error.code_ofCode, Error.code_ofCode] at hcodes
    exact Option.some.inj hcodes
  exact Engine.refusal_commands hfound hcommands hslot (fun flags ↦ hflags txn use flags huse)
    hrefusal (hsame ▸ hfault)

/-- An access through a slot that the transaction cannot use fails because of that, if the gate lets
it through. -/
theorem fails_of_barred (hsound : Sound system) (haccess : action.access? = some (txn, access))
    (hgate : system.gateFault txn access = none)
    (hbars : (system.engineOf txn).Bars (system.native txn) access.database.slot) :
    (system.act action).result = .error (.error (ofCode Engine.invalid)) := by
  obtain ⟨use, huse, hslot, -, -⟩ := use_of_access? haccess
  obtain ⟨code, rfl, hrefusal, -⟩ := (hsound.anchored.roster _).refusal_barred hbars hslot
  exact (fails_of_refusal haccess hgate huse hrefusal fun _ ↦ by decide).result

/-! ## Readers -/

/-- What an action does through a transaction is nothing, or a use of it, unless the action ends it
or puts it to rest or wakes it. -/
theorem Transition.use_of_through (h : Transition system action after)
    (hthrough : action.through? = some txn) (htxn : txn < system.transactions.length)
    (henv : (system.transaction txn).env < system.environments.length)
    (hunfinished : (after.transaction txn).state.isFinished = false) (hreset : action ≠ .reset txn)
    (hawake : (system.transaction txn).state ≠ .reset) :
    after.engine (system.transaction txn).env = system.engineOf txn ∨
      ∃ use, after.engine (system.transaction txn).env
        = (system.engineOf txn).use (system.native txn) use := by
  have hset : ∀ engine, (system.setEngineOf txn engine).engine (system.transaction txn).env
      = engine := fun engine ↦ engine_setEngine engine henv
  have hended : ∀ {ending : System} {state : TxnState},
      ending.transactions.length = system.transactions.length → state.isFinished = true →
      ((ending.finish txn state).transaction txn).state.isFinished ≠ false := by
    intro ending state hlength hstate
    rw [field_finish_self (·.state) (fun _ _ ↦ by rfl) state (hlength ▸ htxn)]
    simp [hstate]
  cases h with
  | idle | files => exact .inl rfl
  | openedEnvironment | closed | began => cases hthrough
  | aside _ haction => simp [haction] at hthrough
  | used use haction =>
      obtain rfl := Option.some.inj ((through_of_use haction).symm.trans hthrough)
      exact .inr ⟨use, hset _⟩
  | @reopened opener name flags slot generation engine hfault hopen =>
      cases hthrough
      refine .inr ⟨.openDatabase (name.map Bytes.ofText) flags, ?_⟩
      rw [engine_recordOpen, hset, Engine.use, hopen]
  | @opened opener name flags slot engine hfault hopen =>
      cases hthrough
      refine .inr ⟨.openDatabase (name.map Bytes.ofText) flags, ?_⟩
      rw [engine_recordOpen, engine_advance, hset, Engine.use, hopen]
  | @dropped dropper database engine hfault henv hlive hslot hdrop =>
      cases hthrough
      refine .inr ⟨.drop database.slot true, ?_⟩
      rw [engine_recordDrop, hset, Engine.use, hdrop]
  | committed => cases hthrough; exact absurd hunfinished (hended (length_handOver _ _) rfl)
  | commitFailed => cases hthrough; exact absurd hunfinished (hended rfl rfl)
  | discarded haction =>
      rcases haction with rfl | rfl
      all_goals cases hthrough; exact absurd hunfinished (hended rfl rfl)
  | reset => cases hthrough; exact absurd rfl hreset
  | renewed hstate => cases hthrough; exact absurd hstate hawake

/-- A reader that is put in the place of another by an action. -/
theorem Attends.replaced {found' : Engine.Txn} (h : Attends system reader found)
    (hsound : Sound system) (hreader : reader < system.transactions.length)
    (hreading : ((system.after action).engine (system.transaction reader).env).reading
      = ((system.engineOf reader).replace found').reading)
    (hhandle : found'.handle = found.handle) : Attends (system.after action) reader found' := by
  have hidentity := (hsound.transition action).identity hreader
  constructor
  · rw [engineOf, show ((system.after action).transaction reader).env
      = (system.transaction reader).env from congrArg (·.1) hidentity, hreading]
    exact List.mem_map.mpr ⟨found, h.mem, if_pos hhandle.symm⟩
  · exact (hhandle.trans h.handle).trans (congrArg (·.2.1) hidentity).symm

/-- A reader that an action neither ends nor puts to rest goes on as it was, or is used. -/
theorem Attends.kept_or_used (h : Attends system reader found) (hsound : Sound system)
    (hreader : reader < system.transactions.length) (hawake : found.idle = false)
    (hunfinished : ((system.after action).transaction reader).state.isFinished = false)
    (hreset : action ≠ .reset reader) :
    Attends (system.after action) reader found ∨ action.through? = some reader ∧ ∃ use,
      (system.after action).engine (system.transaction reader).env
        = (system.engineOf reader).use (system.native reader) use := by
  have htransition := hsound.transition action
  have hidentity := htransition.identity hreader
  have hkept : found ∈ ((system.after action).engine (system.transaction reader).env).reading →
      Attends (system.after action) reader found := fun hmem ↦ by
    refine ⟨?_, h.handle.trans (congrArg (·.2.1) hidentity).symm⟩
    rw [engineOf, show ((system.after action).transaction reader).env
      = (system.transaction reader).env from congrArg (·.1) hidentity]
    exact hmem
  by_cases hthrough : action.through? = some reader
  · have howner := (hsound.attended.readers _).owner hsound.anchored hreader rfl h.mem h.handle
    have hactive : (system.transaction reader).state ≠ .reset := by
      rw [howner.2, hawake]
      decide
    rcases htransition.use_of_through hthrough hreader (hsound.anchored.env_lt reader hreader)
        hunfinished hreset hactive with hsame | hused
    · exact .inl (hkept (hsame ▸ h.mem))
    · exact .inr ⟨hthrough, hused⟩
  · exact .inl (hkept (hsound.reading_kept hreader h.mem h.handle hthrough))

/-- How a reader that an action neither ends nor puts to rest stands to a slot. -/
theorem Attends.shifts (h : Attends system reader found) (hsound : Sound system)
    (hreader : reader < system.transactions.length) (hawake : found.idle = false)
    (hunfinished : ((system.after action).transaction reader).state.isFinished = false)
    (hreset : action ≠ .reset reader) (slot : Nat) :
    ∃ found', Attends (system.after action) reader found' ∧ (found' = found ∨
      action.through? = some reader ∧
        Engine.Txn.Shifts (system.engineOf reader).slots
          ((system.after action).engine (system.transaction reader).env).slots slot
          ((system.engineOf reader).isBlocked found) found found') := by
  rcases h.kept_or_used hsound hreader hawake hunfinished hreset with hkept | ⟨hthrough, use, huse⟩
  · exact ⟨found, hkept, .inl rfl⟩
  · have hused := Engine.use_used (system.engineOf reader) (system.native reader) use
    rw [← huse] at hused
    obtain ⟨found', hhandle, -, hreading, hshifts⟩ :=
      hused.shifts (hsound.anchored.roster _) (h.known hsound).1 slot
    exact ⟨found', h.replaced hsound hreader hreading (hhandle.trans h.handle.symm),
      .inr ⟨hthrough, hshifts⟩⟩

/-- An action through a transaction by which a slot gets another occupant. -/
structure Takes (system : System) (opener : TxnId) (slot : Nat) (action : Action) : Prop where
  through : action.through? = some opener
  name : ((system.after action).occupant (system.transaction opener).env slot).name ≠ []
  moved : ((system.after action).occupant (system.transaction opener).env slot).sequence
    ≠ (system.occupant (system.transaction opener).env slot).sequence

/-- A reader that is awake, with what it knows of the counter of a slot that it can use. -/
def Awaits (system : System) (reader : TxnId) (slot : Nat) (footing : Option Nat) : Prop :=
  ∃ found, Attends system reader found ∧ found.idle = false ∧ found.footing slot = footing

/-- A reader that can use a slot still can, whatever happens, until it ends or is put to rest. -/
theorem Sound.usable_kept (h : Sound system) (hreader : reader < system.transactions.length)
    (hunfinished : ((system.after action).transaction reader).state.isFinished = false)
    (hreset : action ≠ .reset reader) {sequence : Nat}
    (husable : Awaits system reader slot (some sequence)) :
    ∃ sequence, Awaits (system.after action) reader slot (some sequence) := by
  obtain ⟨found, hfound, hawake, hfooting⟩ := husable
  obtain ⟨found', hfound', rfl | ⟨-, hshifts⟩⟩ :=
    hfound.shifts h hreader hawake hunfinished hreset slot
  · exact ⟨sequence, found', hfound', hawake, hfooting⟩
  · cases hshifts with
    | alike halike =>
        exact ⟨sequence, found', hfound', halike.idle.trans hawake, halike.footing.trans hfooting⟩
    | placed _ hidle hplaced =>
        exact ⟨_, found', hfound', hidle.trans hawake, hplaced hawake⟩
    | freed hwriter =>
        rw [(hfound.known h).2] at hwriter
        cases hwriter

/-- A reader that cannot use a slot still cannot, unless it takes the slot or is put to rest. -/
theorem Sound.lacking_kept (h : Sound system) (hreader : reader < system.transactions.length)
    (hunfinished : ((system.after action).transaction reader).state.isFinished = false)
    (hreset : action ≠ .reset reader) (htakes : ¬Takes system reader slot action)
    (hlacks : Awaits system reader slot none) : Awaits (system.after action) reader slot none := by
  obtain ⟨found, hfound, hawake, hfooting⟩ := hlacks
  obtain ⟨found', hfound', rfl | ⟨hthrough, hshifts⟩⟩ :=
    hfound.shifts h hreader hawake hunfinished hreset slot
  · exact ⟨found', hfound', hawake, hfooting⟩
  · cases hshifts with
    | alike halike =>
        exact ⟨found', hfound', halike.idle.trans hawake, halike.footing.trans hfooting⟩
    | placed _ _ _ _ hname hmoved =>
        exact absurd ⟨hthrough, hname, Nat.ne_of_gt hmoved⟩ htakes
    | freed hwriter =>
        rw [(hfound.known h).2] at hwriter
        cases hwriter

/-! ## Writers -/

/-- Whatever happens while a transaction can write, the engine only makes of its writers what a step
can make of writers among which no new root begins. -/
theorem restacks_of_writes (h : Reachable system) (hroot : root < system.transactions.length)
    (hwrites : Writes (system.after action) root) (slot : Nat) :
    Engine.Restacks (system.engineOf root)
      ((system.after action).engine (system.transaction root).env)
      (system.actor (system.transaction root).env action) slot := by
  have hsound := h.sound
  have htransition := hsound.transition action
  have hroster := hsound.anchored.roster
  have henv := hsound.anchored.env_lt root hroot
  obtain ⟨ids, hchain⟩ := hsound.chained (system.transaction root).env
  have hmember := (hchain.writes_iff hsound.anchored rfl).mp (hsound.writes_back hroot hwrites)
  obtain ⟨ids', hchain'⟩ := (hsound.act action).chained (system.transaction root).env
  generalize system.after action = after at *
  rcases htransition.length_cases with hlength |
    ⟨place, parent, flags, thread, native, engine, rfl, hentrance⟩
  · refine ((htransition.turn hroster henv).restacks (hroster _) (h.wakeful _) slot).resolve_right ?_
    rintro ⟨writer, hwriters, -, hhandle⟩
    -- a new writer has a handle that no transaction had
    have hnew : writer.handle ∈ ids'.map after.native := by
      rw [← hchain'.handles, hwriters]
      exact List.mem_map_of_mem List.mem_cons_self
    obtain ⟨owner, howner, hnative⟩ := List.mem_map.mp hnew
    have hlt : owner < system.transactions.length := hlength ▸ hchain'.lt howner
    have hidentity := htransition.identity hlt
    have hplace : (system.transaction owner).env = (system.transaction root).env :=
      (congrArg (·.1) hidentity).symm.trans (hchain'.env_eq owner howner)
    have hknown := hsound.anchored.native_lt owner hlt
    rw [engineOf, hplace] at hknown
    have hsame : after.native owner = system.native owner := congrArg (·.2.1) hidentity
    exact absurd (hsame.symm.trans (hnative.trans hhandle)) (Nat.ne_of_lt hknown)
  · have hactor : system.actor (system.transaction root).env (.begin place parent flags thread)
        = none := rfl
    rw [hactor]
    by_cases hplace : (system.transaction root).env = place
    · subst hplace
      rw [hentrance.engine_eq]
      refine (hentrance.began.restacks (hroster _) slot).resolve_right ?_
      rintro ⟨hparent, hflags, -⟩
      have hlocked := hchain.locked (List.ne_nil_of_mem hmember)
      rw [hentrance.unlocked hflags (Option.map_eq_none_iff.mp hparent)] at hlocked
      cases hlocked
    · rw [hentrance.engine_of_ne hplace]
      exact .of_eq rfl

/-! ## Transactions that can use a slot, and those that cannot -/

/-- A transaction and those nested in it can use a slot, as long as they can be used at all. -/
structure Grips (system : System) (root : TxnId) (slot : Nat) : Prop where
  reader : (system.transaction root).readOnly = true →
    (system.transaction root).state.isFinished = false →
    ∃ sequence, Awaits system root slot (some sequence)
  writer : Writes system root →
    Engine.Commanded (system.engineOf root).slots slot (system.engineOf root).writers

/-- Neither a transaction nor one of those nested in it can use a slot. -/
structure Lacks (system : System) (root : TxnId) (slot : Nat) : Prop where
  reader : (system.transaction root).readOnly = true →
    (system.transaction root).state.isFinished = false → Awaits system root slot none
  writer : Writes system root → ∀ writer ∈ (system.engineOf root).writers, writer.footing slot = none

/-- A slot that can be used still can, unless a reader is put to rest, or the counter of the slot
moves under a writer. -/
theorem Grips.act (h : Grips system root slot) (hreachable : Reachable system)
    (hroot : root < system.transactions.length) (hreset : action ≠ .reset root)
    (hstands : (system.transaction root).readOnly = false →
      ((system.after action).occupant (system.transaction root).env slot).sequence
        = (system.occupant (system.transaction root).env slot).sequence) :
    Grips (system.after action) root slot := by
  have hsound := hreachable.sound
  have htransition := hsound.transition action
  have hidentity := htransition.identity hroot
  have henv : (system.after action).engineOf root
      = (system.after action).engine (system.transaction root).env :=
    congrArg (system.after action).engine (congrArg (·.1) hidentity)
  constructor
  · intro hreader hunfinished
    have hbefore := hsound.unfinished_back hroot hunfinished
    obtain ⟨sequence, hawaits⟩ :=
      h.reader ((congrArg (·.2.2.1) hidentity).symm.trans hreader) hbefore
    exact hsound.usable_kept hroot hunfinished hreset hawaits
  · intro hwrites
    have hbefore := hsound.writes_back hroot hwrites
    have hturn := htransition.turn hsound.anchored.roster (hsound.anchored.env_lt root hroot)
    obtain ⟨-, -, hlater⟩ := (hsound.anchored.roster _).of_turn hturn
    rw [henv]
    exact (restacks_of_writes hreachable hroot hwrites slot).commanded hlater
      (hstands (hsound.of_writes hbefore).1) (h.writer hbefore)

/-- A slot that cannot be used still cannot, unless a reader is put to rest, or it is taken by the
transaction or one nested in it. -/
theorem Lacks.act (h : Lacks system root slot) (hreachable : Reachable system)
    (hroot : root < system.transactions.length) (hparent : (system.transaction root).parent = none)
    (hreset : action ≠ .reset root)
    (htakes : ∀ opener, root ∈ system.lineage opener → ¬Takes system opener slot action) :
    Lacks (system.after action) root slot := by
  have hsound := hreachable.sound
  have htransition := hsound.transition action
  have hidentity := htransition.identity hroot
  have henv : (system.after action).engineOf root
      = (system.after action).engine (system.transaction root).env :=
    congrArg (system.after action).engine (congrArg (·.1) hidentity)
  constructor
  · intro hreader hunfinished
    have hbefore := hsound.unfinished_back hroot hunfinished
    exact hsound.lacking_kept hroot hunfinished hreset
      (htakes root (self_mem_lineage hsound.anchored root))
      (h.reader ((congrArg (·.2.2.1) hidentity).symm.trans hreader) hbefore)
  · intro hwrites
    have hbefore := hsound.writes_back hroot hwrites
    obtain ⟨ids, hchain⟩ := hsound.chained (system.transaction root).env
    have hmember := (hchain.writes_iff hsound.anchored rfl).mp hbefore
    rw [henv]
    refine (restacks_of_writes hreachable hroot hwrites slot).lacking
      (fun writer hwriter hactor hname ↦ ?_) (h.writer hbefore)
    by_contra hmoved
    obtain ⟨opener, hopener, hnative⟩ := Option.map_eq_some_iff.mp hactor
    obtain ⟨hthrough, hplace⟩ := Option.filter_eq_some_iff.mp hopener
    have hplace : (system.transaction opener).env = (system.transaction root).env := by
      simpa using hplace
    refine htakes opener ?_ ⟨hthrough, ?_, ?_⟩
    · -- a writer of this engine is nested in the root
      have hlt : opener < system.transactions.length := by
        by_contra hge
        refine hmoved ?_
        rw [htransition.engine_kept hthrough (Nat.le_of_not_lt hge)]
        rfl
      have hmem := hchain.mem hsound.anchored hlt hplace hwriter hnative.symm
      obtain ⟨inner, rest, rfl⟩ := List.append_of_mem hmember
      have hrest : rest = [] := by
        have hhead := (hchain.nested.suffix (List.suffix_append inner (root :: rest))).1
        rw [hparent] at hhead
        exact List.head?_eq_none_iff.mp hhead.symm
      subst hrest
      exact hchain.nested.mem_lineage hsound.anchored hmem
    · rw [hplace]
      exact hname
    · rw [hplace]
      exact hmoved

/-- A slot that can be used still can after a run in which a reader is not put to rest, and under a
writer the counter of the slot has not moved. -/
theorem Grips.run {first last : System} (h : Grips first root slot) (hfirst : Reachable first)
    (hroot : root < first.transactions.length)
    (hrun : Run (fun _ action ↦ action ≠ .reset root) first last)
    (hstands : (last.transaction root).readOnly = false →
      (last.occupant (first.transaction root).env slot).sequence
        = (first.occupant (first.transaction root).env slot).sequence) :
    Grips last root slot := by
  induction hrun with
  | nil => exact h
  | @step last action hrun hallowed ih =>
      have hsound := hfirst.sound.run hrun
      have hlt := hrun.lt_length hfirst.sound hroot
      have hidentity := (hsound.transition action).identity hlt
      have hplace : (last.transaction root).env = (first.transaction root).env :=
        congrArg (·.1) (hrun.identity hfirst.sound hroot)
      have henvLt := hfirst.sound.anchored.env_lt root hroot
      obtain ⟨hmiddle, -, hbefore⟩ := hfirst.sound.later henvLt hrun
      have hstep : Run anything last (last.after action) := .single action trivial
      obtain ⟨-, -, hafter⟩ := hsound.later hmiddle hstep
      -- the counter can only rise, so it has not moved on the way either
      have hcounters : (last.transaction root).readOnly = false →
          (last.occupant (first.transaction root).env slot).sequence
              = (first.occupant (first.transaction root).env slot).sequence ∧
            ((last.after action).occupant (first.transaction root).env slot).sequence
              = (last.occupant (first.transaction root).env slot).sequence := by
        intro hwriter
        have hstands := hstands ((congrArg (·.2.2.1) hidentity).trans hwriter)
        have hle : (first.occupant (first.transaction root).env slot).sequence
            ≤ (last.occupant (first.transaction root).env slot).sequence :=
          (hbefore slot).sequence_le
        have hle' : (last.occupant (first.transaction root).env slot).sequence
            ≤ ((last.after action).occupant (first.transaction root).env slot).sequence :=
          (hafter slot).sequence_le
        omega
      have hgrips := ih fun hwriter ↦ (hcounters hwriter).1
      exact hgrips.act (hfirst.run hrun) hlt hallowed fun hwriter ↦ hplace ▸ (hcounters hwriter).2

/-- A slot that cannot be used still cannot after a run in which a reader is not put to rest and the
slot is not taken. -/
theorem Lacks.run {first last : System} (h : Lacks first root slot) (hfirst : Reachable first)
    (hroot : root < first.transactions.length) (hparent : (first.transaction root).parent = none)
    (hrun : Run (fun system action ↦ action ≠ .reset root ∧
      ∀ opener, root ∈ system.lineage opener → ¬Takes system opener slot action) first last) :
    Lacks last root slot := by
  induction hrun with
  | nil => exact h
  | step hrun hallowed ih =>
      have hidentity := hrun.identity hfirst.sound hroot
      exact ih.act (hfirst.run hrun) (hrun.lt_length hfirst.sound hroot)
        ((congrArg (·.2.2.2) hidentity).trans hparent) hallowed.1 hallowed.2

/-! ### Beginnings -/

/-- The actions with which a transaction that is not nested begins, or wakes. -/
inductive Enters (system : System) (root : TxnId) : Action → Prop where
  | begun {env : EnvId} {flags : TxnFlags} {thread : Nat}
      (hbegin : (system.begin env none flags thread).result = .ok root) :
      Enters system root (.begin env none flags thread)
  | renewed (hrenew : (system.renew root).result = .ok ()) : Enters system root (.renew root)

/-- A transaction that begins, or wakes, is then active, and not nested. It reads, or it is the only
writer of its engine and has all that the engine offers. -/
theorem Enters.entered (h : Enters system root start) (hsound : Sound system) :
    ((system.after start).transaction root).state = .active ∧
      ((system.after start).transaction root).parent = none ∧
      (Starts system root start ∨
        ((system.after start).transaction root).readOnly = false ∧
        ∃ txn : Engine.Txn, ((system.after start).engineOf root).writers = [txn] ∧
          ∀ slot, (((system.after start).engineOf root).Offers slot → txn.footing slot
              = some (((system.after start).engineOf root).slots.info slot).sequence) ∧
            (¬((system.after start).engineOf root).Offers slot → txn.footing slot = none)) := by
  cases h with
  | @begun env flags thread hbegin =>
      obtain ⟨rfl, native, engine, hentrance⟩ := entrance_of_begin hbegin
      rw [hentrance.transaction_eq, hentrance.engineOf_eq]
      refine ⟨rfl, rfl, ?_⟩
      cases hflags : flags.contains TxnFlags.readOnly with
      | true => exact .inl (.begun hflags hbegin)
      | false =>
          refine .inr ⟨hflags, ?_⟩
          cases hentrance.began with
          | reading _ _ _ hreader =>
              rw [hflags] at hreader
              cases hreader
          | nested hparent => cases hparent
          | root hparent _ =>
              -- The environment lets a root begin to write only while its engine has no writer.
              have hempty := hsound.writers_eq_nil (hentrance.unlocked hflags rfl)
              refine ⟨_, congrArg _ hempty, fun slot ↦ ?_⟩
              exact Engine.Txn.footing_of_fresh rfl rfl rfl slot
  | renewed hrenew =>
      have hstarts : Starts system root (.renew root) := .renewed hrenew
      obtain ⟨hlt, found, hattends, -⟩ := hstarts.started hsound
      have hafter := hsound.act (.renew root)
      have howner := (hafter.attended.readers _).owner hafter.anchored hlt rfl hattends.mem
        hattends.handle
      refine ⟨?_, hafter.attended.root root howner.1, .inl hstarts⟩
      obtain ⟨engine, hreset, -, hstate⟩ := renew_ok hrenew
      rw [show system.after (.renew root) = (system.setEngineOf root engine).setState root .active
        from hstate]
      exact congrArg Transaction.state (transaction_modifyTransaction_self
        (system.setEngineOf root engine) _ (lt_of_state hreset rfl))

/-- A transaction that begins, or wakes, can use the slots that the engine offers, and no others. -/
theorem Enters.footing (h : Enters system root start) (hsound : Sound system) (slot : Nat) :
    (((system.after start).engineOf root).Offers slot → Grips (system.after start) root slot) ∧
      (¬((system.after start).engineOf root).Offers slot →
        Lacks (system.after start) root slot) := by
  have hafter := hsound.act start
  obtain ⟨hactive, -, hstarts | ⟨hwriter, txn, hwriters, hfooting⟩⟩ := h.entered hsound
  · obtain ⟨hlt, found, hattends, hbegun⟩ := hstarts.started hsound
    have howner := (hafter.attended.readers _).owner hafter.anchored hlt rfl hattends.mem
      hattends.handle
    have hidle : found.idle = false := idle_of_readingState (howner.2.symm.trans hactive)
    obtain ⟨memory, hnamed⟩ := hbegun.named
    have hfooting := Engine.Txn.footing_of_fresh hidle hbegun.main hnamed slot
    have hreads : ¬Writes (system.after start) root := by
      intro hwrites
      rw [(hafter.of_writes hwrites).1] at howner
      cases howner.1
    exact ⟨fun hoffers ↦ ⟨fun _ _ ↦ ⟨_, found, hattends, hidle, hfooting.1 hoffers⟩,
        fun hwrites ↦ absurd hwrites hreads⟩,
      fun hoffers ↦ ⟨fun _ _ ↦ ⟨found, hattends, hidle, hfooting.2 hoffers⟩,
        fun hwrites ↦ absurd hwrites hreads⟩⟩
  · have hreader : ((system.after start).transaction root).readOnly ≠ true := by simp [hwriter]
    refine ⟨fun hoffers ↦ ⟨fun h ↦ absurd h hreader, fun _ ↦ ?_⟩,
      fun hoffers ↦ ⟨fun h ↦ absurd h hreader, fun _ writer hmem ↦ ?_⟩⟩
    · rw [hwriters]
      exact ⟨⟨_, (hfooting slot).1 hoffers, .inr rfl⟩, .inr trivial⟩
    · rw [hwriters] at hmem
      obtain rfl := List.mem_singleton.mp hmem
      exact (hfooting slot).2 hoffers

/-! ### Slots that are taken -/

/-- A transaction that takes a slot has a number that was given out. -/
theorem Takes.lt (h : Takes system opener slot action) (hsound : Sound system) :
    opener < system.transactions.length := by
  by_contra hge
  refine h.moved (congrArg (fun engine : Engine ↦ (engine.slots.info slot).sequence) ?_)
  exact (hsound.transition action).engine_kept h.through (Nat.le_of_not_lt hge) _

/-- A transaction that takes a slot can be used. -/
theorem Takes.ready (h : Takes system opener slot action) (hsound : Sound system) :
    (system.transaction opener).lifecycleFault = none := by
  have htransition := hsound.transition action
  have hroster := hsound.anchored.roster (system.transaction opener).env
  have henv := hsound.anchored.env_lt opener (h.lt hsound)
  obtain ⟨hthrough, hname, hmoved⟩ := h
  generalize system.after action = after at *
  cases htransition with
  | idle | files => exact absurd rfl hmoved
  | openedEnvironment | closed | began => cases hthrough
  | aside _ haction => simp [haction] at hthrough
  | used use haction hfault =>
      obtain rfl := Option.some.inj ((through_of_use haction).symm.trans hthrough)
      exact hfault
  | reopened hfault | opened hfault | dropped hfault | committed hfault | commitFailed hfault
    | reset hfault =>
      cases hthrough
      exact hfault
  | @discarded _ txn haction =>
      obtain rfl : txn = opener := by
        rcases haction with rfl | rfl <;> exact Option.some.inj hthrough
      -- an end at most frees the slot
      obtain ⟨-, -, -, hinfo⟩ := hroster.abort_stack (system.native txn) slot
      rw [occupant, engine_finish, setEngineOf, engine_setEngine _ henv] at hname hmoved
      rcases hinfo with hinfo | hinfo
      · exact absurd (congrArg Engine.SlotInfo.sequence hinfo) hmoved
      · exact absurd ((congrArg Engine.SlotInfo.name hinfo).trans (Engine.SlotInfo.name_closed _))
          hname
  | @renewed txn thread engine hstate hrenew =>
      cases hthrough
      rw [occupant, engine_setState, setEngineOf, engine_setEngine _ henv] at hmoved
      cases renewed_of_renew hrenew
      exact absurd rfl hmoved

/-- Nothing is nested in a transaction that only reads. -/
theorem eq_of_reader_mem_lineage (hreachable : Reachable system) (hmem : root ∈ system.lineage txn)
    (hreader : (system.transaction root).readOnly = true) : root = txn := by
  by_contra hne
  obtain ⟨child, -, hparent⟩ := child_of_mem_lineage hreachable.sound.anchored hmem hne
  rw [hreachable.writer_of_parent hparent] at hreader
  cases hreader

/-- From the action on by which a slot is taken, the transaction that takes it and those around it
can use the slot. -/
theorem Takes.grips (h : Takes system opener slot action) (hreachable : Reachable system)
    (hnested : root ∈ system.lineage opener) : Grips (system.after action) root slot := by
  have hsound := hreachable.sound
  have hafter := hsound.act action
  have hopener := h.lt hsound
  have hanchored := hsound.anchored
  have hfault := h.ready hsound
  have htransition := hsound.transition action
  have hroster := hanchored.roster (system.transaction opener).env
  have hroot := Nat.lt_of_le_of_lt (le_of_mem_lineage hanchored hnested) hopener
  have hplace := env_of_lineage hanchored hnested
  have hidentity := htransition.identity hroot
  have hengine : (system.after action).engineOf root
      = (system.after action).engine (system.transaction opener).env :=
    congrArg (system.after action).engine ((congrArg (·.1) hidentity).trans hplace.symm)
  have hturn := htransition.turn hanchored.roster (hanchored.env_lt opener hopener)
  obtain ⟨handle, txn, txn', hactor, htxn, hblocked, hhandle, hreadOnly, hsameIdle, hwriters,
    hreading, hfooting, hopened⟩ := hturn.placed hroster h.name h.moved
  obtain rfl : system.native opener = handle := by simpa [actor, h.through] using hactor
  constructor
  · intro hreader _
    have hbefore : (system.transaction root).readOnly = true :=
      (congrArg (·.2.2.1) hidentity).symm.trans hreader
    -- Nothing is nested in a reader, so it has taken the slot itself.
    obtain rfl := eq_of_reader_mem_lineage hreachable hnested hbefore
    obtain ⟨found, hfound, hknown, -, hidle⟩ :=
      hsound.attended.awake hanchored hbefore (active_of_lifecycleFault hfault).1
    obtain rfl : txn = found := Option.some.inj (htxn.symm.trans hknown)
    have hattends : Attends system root txn := ⟨hfound, Engine.handle_of_txn? htxn⟩
    exact ⟨_, txn', hattends.replaced hsound hroot hreading (hhandle.trans hattends.handle.symm),
      hsameIdle.trans hidle, hfooting hidle⟩
  · intro hwrites
    -- The opener is not blocked, so it is the innermost writer, and only that one has changed.
    have hwriter := (hsound.writer_of_lineage (hsound.writes_back hroot hwrites) hnested).2
    have hreads := hsound.writer_of_found hopener hwriter htxn
    obtain ⟨rest, hinnermost⟩ := hroster.innermost htxn hreads hblocked
    have hidle := hreachable.wakeful _ txn (hroster.mem_writers htxn hreads)
    rw [hengine, hwriters]
    have hreplaced := hroster.replace_innermost hinnermost (hhandle.trans
      (Engine.handle_of_txn? htxn).symm)
    rw [hreplaced]
    exact ⟨⟨_, hfooting hidle, .inr rfl⟩, .inl ⟨hopened, h.name⟩⟩

/-! ## Accesses -/

/-- A transaction that is nested in one that does not only read does not only read either. -/
theorem Sound.writer_of_nested (h : Sound system) (hnested : root ∈ system.lineage txn)
    (hwriter : (system.transaction root).readOnly = false) :
    (system.transaction txn).readOnly = false := by
  rcases (mem_lineage h.anchored).mp hnested with rfl | ⟨parent, hparent, -⟩
  · exact hwriter
  · by_contra hreader
    have hroot := h.attended.root txn (Bool.eq_true_of_not_eq_false hreader)
    rw [hparent] at hroot
    cases hroot

/-- Through a slot that can be used no access fails because of the slot. -/
theorem Grips.not_blames (h : Grips system root slot) (hreachable : Reachable system)
    (hnested : root ∈ system.lineage txn) (hsheltered : Sheltered system txn)
    (haccess : action.access? = some (txn, access)) (hslot : access.database.slot = slot)
    (hflags : action.FlagsAccepted) : ¬Blames system action := by
  intro hblames
  have hsound := hreachable.sound
  have hroster := hsound.anchored.roster (system.transaction txn).env
  have hgate := hblames.passed haccess
  obtain ⟨hguard, -⟩ := Option.or_eq_none_iff.mp hgate
  have hfault := (lifecycleFault_of_guardFault hguard).1
  have hunfinished := unfinished_of_lifecycleFault hfault
  subst hslot
  cases hreader : (system.transaction root).readOnly with
  | true =>
      obtain rfl := eq_of_reader_mem_lineage hreachable hnested hreader
      obtain ⟨sequence, found, hattends, -, hfooting⟩ := h.reader hreader hunfinished
      obtain ⟨hfound, hreads⟩ := hattends.known hsound
      exact not_blames_of_commands haccess hflags hfound ⟨sequence, hfooting, .inl hreads⟩ hblames
  | false =>
      have hlinked : Linked system (system.transaction txn).env txn := by
        refine ⟨rfl, hsound.writer_of_nested hnested hreader, fun outer houter ↦ ?_⟩
        by_cases hself : outer = txn
        · rw [hself]
          exact hunfinished
        · exact hsheltered outer houter hself
      obtain ⟨writer, rest, hwriters, hhandle⟩ := hlinked.innermost hreachable hfault
      obtain ⟨hwrites, hplace⟩ := hsound.writes_lineage (hreachable.enlisted _ txn hlinked) hnested
      have hcommanded := h.writer hwrites
      rw [engineOf, hplace, hwriters] at hcommanded
      have hfound : (system.engineOf txn).txn? (system.native txn) = some writer := by
        rw [← hhandle]
        refine hroster.txn?_handle (List.mem_append_left _ ?_)
        rw [hwriters]
        exact List.mem_cons_self
      exact not_blames_of_commands haccess hflags hfound hcommanded.1 hblames

/-- Through a slot that cannot be used every access fails because of the slot, if the gate lets it
through. -/
theorem Lacks.fails (h : Lacks system root slot) (hreachable : Reachable system)
    (hnested : root ∈ system.lineage txn) (haccess : action.access? = some (txn, access))
    (hslot : access.database.slot = slot) (hgate : system.gateFault txn access = none) :
    (system.act action).result = .error (.error (ofCode Engine.invalid)) := by
  have hsound := hreachable.sound
  have hroster := hsound.anchored.roster (system.transaction txn).env
  obtain ⟨hguard, -⟩ := Option.or_eq_none_iff.mp hgate
  have hfault := (lifecycleFault_of_guardFault hguard).1
  have hlt := lt_of_lifecycleFault hfault
  subst hslot
  refine fails_of_barred hsound haccess hgate fun found hfound ↦
    Option.map_eq_none_iff.mp (?_ : found.footing access.database.slot = none)
  cases hreader : (system.transaction root).readOnly with
  | true =>
      obtain rfl := eq_of_reader_mem_lineage hreachable hnested hreader
      obtain ⟨reader, hattends, -, hfooting⟩ :=
        h.reader hreader (unfinished_of_lifecycleFault hfault)
      obtain rfl : found = reader := Option.some.inj (hfound.symm.trans (hattends.known hsound).1)
      exact hfooting
  | false =>
      have hwriter := hsound.writer_of_nested hnested hreader
      have hmem := hroster.mem_writers hfound (hsound.writer_of_found hlt hwriter hfound)
      have hwrites : Writes system txn := ⟨hlt, found, hmem, Engine.handle_of_txn? hfound⟩
      obtain ⟨hroot, hplace⟩ := hsound.writes_lineage hwrites hnested
      refine h.writer hroot found ?_
      rw [engineOf, hplace]
      exact hmem

/-- The action that lets a transaction, and those nested in it, use a slot: one with which it begins
or wakes while the engine offers the slot, or by which it, or one nested in it, takes the slot. -/
inductive Gains (system : System) (root : TxnId) (slot : Nat) (action : Action) : Prop where
  | offered (henters : Enters system root action)
      (hoffers : ((system.after action).engineOf root).Offers slot)
  | taken {opener : TxnId} (hnested : root ∈ system.lineage opener)
      (htakes : Takes system opener slot action)

/-- Whether the engine lets an accepted handle be used does not depend on whether it is accepted.

A transaction, with those nested in it, can use the slots that were offered when it began, or was
last renewed, and the slots that one of them has taken since: no access through such a slot fails
because of the slot, for a reader until it is reset, and for a writer as long as the counter of the
slot stands. Through a slot that was not offered, and that none of them has taken, every access that
the gate lets through fails, and with an error of the engine. -/
theorem accepted_usable {first last : System} (hfirst : Reachable first) :
    (Gains first root slot start →
        Run (fun _ action ↦ action ≠ .reset root) (first.after start) last →
        ((last.transaction root).readOnly = false →
          (last.occupant (last.transaction root).env slot).sequence
            = ((first.after start).occupant (last.transaction root).env slot).sequence) →
        ∀ txn action access, root ∈ last.lineage txn → Sheltered last txn →
          action.access? = some (txn, access) → access.database.slot = slot →
          action.FlagsAccepted → ¬Blames last action) ∧
      (Enters first root start → ¬((first.after start).engineOf root).Offers slot →
        Run (fun system action ↦ action ≠ .reset root ∧
          ∀ opener, root ∈ system.lineage opener → ¬Takes system opener slot action)
          (first.after start) last →
        ∀ txn action access, root ∈ last.lineage txn → action.access? = some (txn, access) →
          access.database.slot = slot → last.gateFault txn access = none →
          (last.act action).result = .error (.error (ofCode Engine.invalid))) := by
  have hsound := hfirst.sound
  have hstarted := hfirst.act start
  have hentered : Enters first root start → root < (first.after start).transactions.length :=
    fun henters ↦ lt_of_state (henters.entered hsound).1 rfl
  constructor
  -- The hold on the slot is there after the first action, and lasts along the run.
  · intro hgains hrun hstands txn action access hnested hsheltered haccess hslot hflags
    have hgrips : Grips (first.after start) root slot := by
      cases hgains with
      | offered henters hoffers => exact (henters.footing hsound slot).1 hoffers
      | taken hnested htakes => exact htakes.grips hfirst hnested
    have hroot : root < (first.after start).transactions.length := by
      cases hgains with
      | offered henters => exact hentered henters
      | taken hnested htakes =>
          have hle := le_of_mem_lineage hsound.anchored hnested
          exact (hsound.transition start).lt_length (Nat.lt_of_le_of_lt hle (htakes.lt hsound))
    have hplace : (last.transaction root).env = ((first.after start).transaction root).env :=
      congrArg (·.1) (hrun.identity hstarted.sound hroot)
    exact (hgrips.run hstarted hroot hrun (hplace ▸ hstands)).not_blames (hstarted.run hrun) hnested
      hsheltered haccess hslot hflags
  · intro henters hoffers hrun txn action access hnested haccess hslot hgate
    obtain ⟨-, hparent, -⟩ := henters.entered hsound
    exact (((henters.footing hsound slot).2 hoffers).run hstarted (hentered henters) hparent
      hrun).fails (hstarted.run hrun) hnested haccess hslot hgate

/-- A writer reads what it has written through a slot that was offered when it began. A reader that
begins after such a slot was freed by a drop, and the drop was undone, fails through the handle that
it accepts. -/
theorem accepted_usable_written :
    let start : Action := .begin 0 none .empty mainThread
    let last := (sample.after start).after (.put 1 sampleDatabase [107] [118] .empty)
    let undone := sample.afterAll [start, .dropDatabase 1 sampleDatabase, .abort 1]
    let reading := undone.after (.begin 0 none TxnFlags.readOnly mainThread)
    Gains sample 1 2 start ∧ ¬Blames last (.get 1 sampleDatabase [107]) ∧
      reading.gateFault 2 { database := sampleDatabase, key := some [107] } = none ∧
      (reading.act (.get 2 sampleDatabase [107])).result
        = .error (.error (ofCode Engine.invalid)) := by
  intro start last undone reading
  have hbegin : (sample.begin 0 none .empty mainThread).result = .ok 1 := by decide +kernel
  have hgains : Gains sample 1 2 start :=
    .offered (.begun hbegin) (.inr ⟨0, by decide +kernel, rfl, by decide +kernel⟩)
  have hrun : Run (fun _ action ↦ action ≠ .reset 1) (sample.after start) last := .single _ nofun
  have hstands : (last.occupant (last.transaction 1).env 2).sequence
      = ((sample.after start).occupant (last.transaction 1).env 2).sequence := by decide +kernel
  have hnested : 1 ∈ last.lineage 1 := by decide +kernel
  have hsheltered : Sheltered last 1 := by
    unfold Sheltered
    decide +kernel
  have hundone : Reachable undone := sample_reachable.run (.all sample _)
  have henters : Enters undone 2 (.begin 0 none TxnFlags.readOnly mainThread) :=
    .begun (by decide +kernel)
  have hoffers : ¬((undone.after (.begin 0 none TxnFlags.readOnly mainThread)).engineOf 2).Offers
      2 := by
    rintro (hslot | ⟨index, -, -, hknown⟩)
    · cases hslot
    · revert hknown
      decide +kernel
  have hnested' : 2 ∈ reading.lineage 2 := by decide +kernel
  have hgate : reading.gateFault 2 { database := sampleDatabase, key := some [107] } = none := by
    decide +kernel
  exact ⟨hgains, (accepted_usable sample_reachable).1 hgains hrun (fun _ ↦ hstands) 1
      (.get 1 sampleDatabase [107]) _ hnested hsheltered rfl rfl nofun, hgate,
    (accepted_usable hundone).2 henters hoffers .nil 2 (.get 2 sampleDatabase [107]) _ hnested' rfl
      rfl hgate⟩

/-- A drop that is undone leaves the slot of the dropped database freed. A transaction that begins
then accepts the handle, and its reads through it fail with an error of the engine. -/
theorem accepted_handle_unusable : ∃ (first last : System) (opener txn : TxnId)
    (database : Database) (key : Bytes), Reachable first ∧ first.checks = true ∧
      (first.openThrough opener (some "a") DbFlags.create).result = .ok database ∧
      Run anything (first.after (.openDatabase opener (some "a") DbFlags.create)) last ∧
      (last.transaction txn).lifecycleFault = none ∧
      database.env = (last.transaction txn).env ∧ last.accepts txn database = true ∧
      (last.act (.get txn database key)).result = .error (.error (ofCode Engine.invalid)) := by
  refine ⟨System.afterAll { files := sampleFiles }
      [.openEnvironment samplePath .empty { maxDbs := 4, maxReaders := 4 } .default,
        .begin 0 none .empty mainThread], _, 0, 2, sampleDatabase, [107],
    ⟨true, sampleFiles, .all _ _⟩, by decide +kernel, by decide +kernel,
    .all _ [.commit 0, .begin 0 none .empty mainThread, .dropDatabase 1 sampleDatabase, .abort 1,
      .begin 0 none TxnFlags.readOnly mainThread], by decide +kernel, by decide +kernel,
    by decide +kernel, by decide +kernel⟩

end System

end MappedStore
