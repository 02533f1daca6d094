import MappedStore.Proofs.Courses
import MappedStore.Proofs.Engine.Grounding
import MappedStore.Proofs.Order

/-!
# Where the stacks of nested transactions start

A root write transaction that has begun and opened databases, and done nothing else, is the only
writer of its engine (`System.Prepared`). What it has of the databases that it can use is the bottom
of a stack (`System.Prepares.grounds`): the committed maps, and empty ones for the databases that it
has created (`System.Grounds`). The tables behind them are in order if the process is
(`System.Ready.plain`).
-/

namespace MappedStore

open Engine (Contents mainSlot Setting Preparing)

namespace System

variable {before system start : System} {env : EnvId} {root : TxnId} {database : Database}
  {databases : Set Database}

/-! ## Opens after the begin of a root -/

/-- A root write transaction that is the latest to have begun and has only opened databases. -/
structure Prepared (root : TxnId) (system : System) : Prop where
  length : system.transactions.length = root + 1
  preparing : ∃ txn, Preparing (system.native root) ((system.transaction root).opened.map (·.1))
    (system.engineOf root) txn

/-- After an open the root is prepared, if it has recorded the slot that the engine has given. -/
theorem Prepared.opened (h : Prepared root system) {after : System} {engine : Engine}
    {name : Option Bytes} {flags : DbFlags} {answer : Except Code Nat}
    (hopen : (system.engineOf root).openDatabase (system.native root) name flags = (answer, engine))
    (hlength : after.transactions.length = system.transactions.length)
    (hidentity : (after.transaction root).identity = (system.transaction root).identity)
    (hengine : after.engine (system.transaction root).env = engine)
    (hopened : (after.transaction root).opened.map (·.1)
      = answer.toOption.toList ++ (system.transaction root).opened.map (·.1)) :
    Prepared root after := by
  obtain ⟨txn, hpreparing⟩ := h.preparing
  obtain ⟨txn', hafter⟩ := hpreparing.openDatabase hopen
  have henv : (after.transaction root).env = (system.transaction root).env :=
    congrArg (·.1) hidentity
  refine ⟨hlength.trans h.length, txn', ?_⟩
  rw [show after.native root = system.native root from congrArg (·.2.1) hidentity, engineOf, henv,
    hengine, hopened]
  exact hafter

/-- The opens of databases through a transaction. -/
def OpensThrough (root : TxnId) (_ : System) (action : Action) : Prop :=
  ∃ name flags, action = .openDatabase root name flags

/-- An open leaves the root prepared. -/
theorem Prepared.act (h : Prepared root system) (hsound : Sound system) {action : Action}
    (haction : OpensThrough root system action) : Prepared root (system.after action) := by
  obtain ⟨name, flags, rfl⟩ := haction
  have hlt : root < system.transactions.length := by rw [h.length]; exact Nat.lt_succ_self root
  have henv := hsound.anchored.env_lt root hlt
  have htransition := hsound.transition (.openDatabase root name flags)
  have hlength := htransition.length_kept nofun
  have hidentity := htransition.identity hlt
  rcases hresult : (system.openThrough root name flags).result with refusal | database
  · rcases openThrough_error hresult with hstate | ⟨-, code, engine, hopen, hstate⟩
    · rwa [show system.after (.openDatabase root name flags) = _ from hstate]
    · rw [show system.after (.openDatabase root name flags) = _ from hstate] at hidentity ⊢
      exact h.opened hopen rfl hidentity (engine_setEngine engine henv) rfl
  · obtain ⟨engine, hopened⟩ := openedThrough_of_ok hresult
    refine h.opened hopened.answer hlength hidentity ?_ ?_
    · rw [hopened.engine_eq]
      exact engine_setEngine engine henv
    · rw [hopened.opened_eq]
      rfl

/-- Opens leave the root prepared. -/
theorem Prepared.run (h : Prepared root system) (hsound : Sound system)
    (hrun : Run (OpensThrough root) system start) : Prepared root start := by
  induction hrun with
  | nil => exact h
  | step hrun haction ih => exact ih.act (hsound.run hrun) haction

/-! ## The bottom of a stack -/

/-- Whether the main database is one of several. -/
def HasMain (databases : Set Database) : Prop :=
  ∃ database ∈ databases, database.slot = mainSlot

/-- Databases that a root can use, each behind a slot of its own, without duplicates. -/
structure Ready (system : System) (root : TxnId) (databases : Set Database) : Prop where
  usable : ∀ database ∈ databases, Usable system root database
  unique : ∀ database ∈ databases, ∀ found table,
    (system.engineOf root).txn? (system.native root) = some found →
    found.Sees (system.engineOf root).slots database.slot table → table.hasDuplicates = false
  separate : ∀ first ∈ databases, ∀ second ∈ databases, first.slot ≠ mainSlot →
    second.slot ≠ mainSlot →
    (system.occupant (system.transaction root).env first.slot).name
      = (system.occupant (system.transaction root).env second.slot).name → first.slot = second.slot

/-- In a process in order such databases have their keys once each and in order, with one value for
each. -/
theorem Ready.plain (h : Ready system root databases)
    (horderly : system.Orderly (HasMain databases)) (hdatabase : database ∈ databases)
    {found : Engine.Txn} {table : Engine.Table}
    (hfound : (system.engineOf root).txn? (system.native root) = some found)
    (hsees : found.Sees (system.engineOf root).slots database.slot table) : table.Plain := by
  have hunique := h.unique database hdatabase found table hfound hsees
  have hengine : (system.engineOf root).Orderly (HasMain databases) := horderly.engines _
  have htable := (hengine.found hfound).of_sees hsees fun hslot ↦ ⟨database, hdatabase, hslot⟩
  exact htable.plain hunique

/-- The writer that the engine has for such a root. -/
structure Prepares (system : System) (root : TxnId) (txn : Engine.Txn) : Prop where
  preparing : Preparing (system.native root) ((system.transaction root).opened.map (·.1))
    (system.engineOf root) txn
  found : (system.engineOf root).txn? (system.native root) = some txn
  writer : txn.readOnly = false
  coherent : txn.Coherent (system.engineOf root).slots

variable {txn : Engine.Txn}

/-- The slots of some databases. -/
def slotsOf (databases : Set Database) (slot : Nat) : Prop :=
  ∃ database ∈ databases, database.slot = slot

/-- The writer sees a table of each database that can be used, and is not broken if there is one. -/
theorem Prepares.sees (h : Prepares start root txn) (hready : Ready start root databases)
    (horderly : start.Orderly (HasMain databases)) {slot : Nat}
    (hslot : slotsOf databases slot) : txn.broken = false ∧
      ∃ table, txn.Sees (start.engineOf root).slots slot table ∧ table.Plain := by
  obtain ⟨database, hdatabase, rfl⟩ := hslot
  obtain ⟨-, found, table, hfound, hblocked, hsees⟩ := hready.usable database hdatabase
  obtain rfl : txn = found := Option.some.inj (h.found.symm.trans hfound)
  exact ⟨(Engine.isBlocked_eq_false.mp hblocked).1, table, hsees,
    hready.plain horderly hdatabase h.found hsees⟩

/-- The databases fit what stays fixed from then on. -/
theorem Prepares.fits (h : Prepares start root txn) (hready : Ready start root databases)
    (hbroken : txn.broken = false) :
    Fits start root databases (txn.setting (start.engineOf root) (slotsOf databases)) where
  used _ := Iff.rfl
  made slot hmade := by
    obtain ⟨entry, hentry, rfl⟩ := List.mem_map.mp (h.preparing.made hbroken hmade).2
    exact ⟨hmade.1, entry, hentry, rfl⟩
  separate := by
    rintro slot other ⟨first, hfirst, rfl⟩ ⟨second, hsecond, rfl⟩ hslot hother hname
    exact hready.separate first hfirst second hsecond hslot hother hname

/-- The slots that it has opened are occupied. -/
theorem Prepares.occupied (h : Prepares start root txn) (hbroken : txn.broken = false) {slot : Nat}
    {used : Nat → Prop} (hmade : (txn.setting (start.engineOf root) used).made slot) :
    ((start.engineOf root).slots.info slot).name ≠ [] :=
  (h.preparing.made hbroken hmade).1

end System

end MappedStore
