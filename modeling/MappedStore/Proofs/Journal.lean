import Mathlib.Data.List.Induction
import Mathlib.Logic.Function.Basic
import MappedStore.Proofs.Scopes

/-!
# Journals of opens and drops

A scope keeps opens and drops apart and without their order. A journal keeps them in the order of
time: the commit of a nested transaction adds its events to those of its parent, and the commit of a
root adds them to those of the environment. `System.live_generation_replayed` says that looking up
a slot through the scopes is replaying the journal.
-/

namespace MappedStore

/-- Something that changes which generation of a slot is live. -/
inductive ScopeEvent where
  | opened (slot generation : Nat)
  | dropped (slot : Nat)
  deriving DecidableEq, Repr

namespace ScopeEvent

/-- The live generation of a slot after an event. The main database outlives its drops. -/
def effect (slot : Nat) (live : Option Nat) : ScopeEvent → Option Nat
  | opened other generation => if other = slot then some generation else live
  | dropped other => if other = slot ∧ other ≠ Engine.mainSlot then none else live

/-- The live generation of a slot after some events, the earliest first, when none was live. -/
def replay (slot : Nat) (events : List ScopeEvent) : Option Nat :=
  events.foldl (effect slot) none

end ScopeEvent

open ScopeEvent (replay)

/-- The opens and drops so far, in the order of time: those that an environment has got by commits
of roots, and those that a transaction has made, or got by commits of transactions nested in it, and
not handed over. -/
structure Journal where
  committed : EnvId → List ScopeEvent := fun _ ↦ []
  own : TxnId → List ScopeEvent := fun _ ↦ []

namespace Journal

/-- Write down an event of a transaction. -/
def write (journal : Journal) (txn : TxnId) (event : ScopeEvent) : Journal :=
  { journal with own := Function.update journal.own txn (journal.own txn ++ [event]) }

/-- Move the events of a transaction to the end of its parent's, or of its environment's if it is a
root. -/
def handOver (journal : Journal) (system : System) (txn : TxnId) : Journal :=
  let emptied := Function.update journal.own txn []
  match (system.transaction txn).parent with
  | some parent =>
      { journal with
        own := Function.update emptied parent (journal.own parent ++ journal.own txn) }
  | none =>
      let env := (system.transaction txn).env
      { committed :=
          Function.update journal.committed env (journal.committed env ++ journal.own txn)
        own := emptied }

/-- The journal after an action. An environment that is closed forgets what it had got. -/
def note (journal : Journal) (system : System) (action : Action) : Journal :=
  match action, (system.act action).result with
  | .openDatabase txn _ _, .ok (.database database) =>
      journal.write txn (.opened database.slot database.generation)
  | .dropDatabase txn database, .ok _ => journal.write txn (.dropped database.slot)
  | .commit txn, .ok _ => journal.handOver system txn
  | .close env, .ok _ =>
      if (system.environment env).closed then journal
      else { journal with committed := Function.update journal.committed env [] }
  | _, _ => journal

/-- The journal after some actions, taken one after the other. -/
def along (journal : Journal) (system : System) : List Action → Journal
  | [] => journal
  | action :: rest => (journal.note system action).along (system.after action) rest

/-- The events that a transaction can see, in the order of time: those that its environment has
got, then those of its ancestors from the root on, and then its own. -/
def visible (journal : Journal) (system : System) (txn : TxnId) : List ScopeEvent :=
  journal.committed (system.transaction txn).env
    ++ (system.lineage txn).reverse.flatMap journal.own

end Journal

/-! ## Records and events -/

namespace SlotRecord

/-- The live generation of a slot for a scope with a record of it, or without one, when `live` is
the generation for the scope around it. -/
def overlay (record : Option SlotRecord) (live : Option Nat) : Option Nat :=
  match record with
  | some (.opened generation) => some generation
  | some .dropped => none
  | none => live

/-- The later of two records counts. -/
theorem overlay_or (later earlier : Option SlotRecord) (live : Option Nat) :
    overlay (later.or earlier) live = overlay later (overlay earlier live) := by
  rcases later with - | (generation | -) <;> rfl

end SlotRecord

open SlotRecord (overlay)

namespace ScopeEvent

/-- What an event says about a slot. -/
def record? (slot : Nat) : ScopeEvent → Option SlotRecord
  | opened other generation => if other = slot then some (.opened generation) else none
  | dropped other => if other = slot ∧ other ≠ Engine.mainSlot then some .dropped else none

/-- What the last event says that says something about a slot. -/
def summary (slot : Nat) (events : List ScopeEvent) : Option SlotRecord :=
  events.foldl (fun found event ↦ (event.record? slot).or found) none

variable {slot : Nat} {live : Option Nat} {events : List ScopeEvent}

/-- An event has the effect of the record that it makes. -/
theorem effect_eq (slot : Nat) (live : Option Nat) (event : ScopeEvent) :
    event.effect slot live = overlay (event.record? slot) live := by
  cases event <;> simp only [effect, record?] <;> split <;> rfl

/-- One more event. -/
theorem summary_concat (slot : Nat) (events : List ScopeEvent) (event : ScopeEvent) :
    summary slot (events ++ [event]) = (event.record? slot).or (summary slot events) := by
  simp [summary]

/-- Events after others. -/
theorem summary_append (slot : Nat) (earlier later : List ScopeEvent) :
    summary slot (earlier ++ later) = (summary slot later).or (summary slot earlier) := by
  induction later using List.reverseRecOn with
  | nil => simp [summary]
  | append_singleton later event ih =>
      rw [← List.append_assoc, summary_concat, ih, summary_concat, Option.or_assoc]

/-- One more event takes its effect. -/
theorem replay_concat (slot : Nat) (events : List ScopeEvent) (event : ScopeEvent) :
    replay slot (events ++ [event]) = event.effect slot (replay slot events) := by
  simp [replay]

/-- Replaying events amounts to what they say last. -/
theorem replay_append (slot : Nat) (earlier later : List ScopeEvent) :
    replay slot (earlier ++ later) = overlay (summary slot later) (replay slot earlier) := by
  induction later using List.reverseRecOn with
  | nil => simp [summary, overlay]
  | append_singleton later event ih =>
      rw [← List.append_assoc, replay_concat, ih, effect_eq, summary_concat,
        SlotRecord.overlay_or]

end ScopeEvent

namespace System

variable {system : System} {journal : Journal} {action : Action} {txn : TxnId} {env : EnvId}
  {slot generation : Nat}

/-- What a scope says about a slot. -/
def recordIn (scope : Opens × List Nat) (slot : Nat) : Option SlotRecord :=
  match scope.1.lookup slot with
  | some generation => some (.opened generation)
  | none => if scope.2.contains slot then some .dropped else none

/-- What a transaction says about a slot is what its scope does. -/
theorem record?_eq (system : System) (txn : TxnId) (slot : Nat) :
    (system.transaction txn).record? slot = recordIn (system.scope txn) slot := rfl

/-- A scope with one more open. -/
theorem recordIn_open (scope : Opens × List Nat) (opened generation slot : Nat) :
    recordIn ((opened, generation) :: scope.1, scope.2) slot =
      ((ScopeEvent.opened opened generation).record? slot).or (recordIn scope slot) := by
  by_cases h : opened = slot
  · subst h
    simp [recordIn, ScopeEvent.record?]
  · have hne : (slot == opened) = false := beq_eq_false_iff_ne.mpr (Ne.symm h)
    simp [recordIn, ScopeEvent.record?, List.lookup_cons, hne, h]

/-- A scope with one more drop. It loses its opens of the slot, so the drop counts. -/
theorem recordIn_drop (scope : Opens × List Nat) {dropped : Nat} (hnamed : dropped ≠ Engine.mainSlot)
    (slot : Nat) :
    recordIn (scope.1.filter (·.1 ≠ dropped), dropped :: scope.2) slot =
      ((ScopeEvent.dropped dropped).record? slot).or (recordIn scope slot) := by
  have hfilter := lookup_filter scope.1 (fun other ↦ decide (other ≠ dropped)) slot
  simp only [recordIn, hfilter, ScopeEvent.record?, List.contains_cons]
  by_cases h : dropped = slot
  · subst h
    simp [hnamed]
  · simp [h, Ne.symm h]

/-- A scope into which another has been merged says what the inner one says, if that says
something. -/
theorem recordIn_merge (outer inner : Opens × List Nat) (slot : Nat) :
    recordIn (Opens.merge outer.1 inner.1 inner.2, inner.2 ++ outer.2) slot =
      (recordIn inner slot).or (recordIn outer slot) := by
  simp only [recordIn, lookup_merge]
  cases inner.1.lookup slot with
  | some generation => rfl
  | none => by_cases h : slot ∈ inner.2 <;> simp [h]

/-- What is retained after a scope has been merged into it. -/
theorem lookup_merge_overlay (retained : Opens) (inner : Opens × List Nat) (slot : Nat) :
    (Opens.merge retained inner.1 inner.2).lookup slot =
      overlay (recordIn inner slot) (retained.lookup slot) := by
  rw [lookup_merge]
  unfold recordIn
  cases inner.1.lookup slot with
  | some generation => rfl
  | none => by_cases h : slot ∈ inner.2 <;> simp [h, overlay]

/-- The live generation of a slot: as the scope of the transaction says, or else as its parent or,
for a root, its environment has it. -/
theorem liveGeneration_overlay (h : Anchored system) (txn : TxnId) (slot : Nat) :
    system.liveGeneration txn slot = overlay (recordIn (system.scope txn) slot)
      (match (system.transaction txn).parent with
      | some parent => system.liveGeneration parent slot
      | none => (system.retained (system.transaction txn).env).lookup slot) := by
  rw [liveGeneration_eq h, record?_eq]
  rcases recordIn (system.scope txn) slot with - | (generation | -)
  · cases (system.transaction txn).parent <;> rfl
  · rfl
  · rfl

/-! ## Journals that are kept -/

/-- A journal that agrees with the scopes of a process. -/
structure Keeps (journal : Journal) (system : System) : Prop where
  own : ∀ txn slot, recordIn (system.scope txn) slot = ScopeEvent.summary slot (journal.own txn)
  committed : ∀ env slot, (system.retained env).lookup slot = replay slot (journal.committed env)

/-- The events that a transaction can see are those that its parent can see, or those of the
environment of a root, and then its own. -/
theorem visible_eq (h : Anchored system) (journal : Journal) (txn : TxnId) :
    journal.visible system txn =
      (match (system.transaction txn).parent with
      | some parent => journal.visible system parent
      | none => journal.committed (system.transaction txn).env) ++ journal.own txn := by
  unfold Journal.visible
  rw [lineage_eq h]
  cases hparent : (system.transaction txn).parent with
  | none => simp
  | some parent => simp [h.parent_env txn parent hparent]

/-- With a journal that is kept, the live generation of a slot is what replaying the visible events
gives. -/
theorem Keeps.live (h : Keeps journal system) (hanchored : Anchored system) (txn : TxnId)
    (slot : Nat) : system.liveGeneration txn slot = replay slot (journal.visible system txn) := by
  induction txn using Nat.strongRecOn with
  | ind txn ih =>
      rw [liveGeneration_overlay hanchored, visible_eq hanchored, ScopeEvent.replay_append,
        h.own txn slot]
      cases hparent : (system.transaction txn).parent with
      | none => exact congrArg (overlay _) (h.committed _ slot)
      | some parent => exact congrArg (overlay _) (ih parent (hanchored.parent_lt _ _ hparent))

/-- A drop that is refused, or is of the main database, changes nothing but the engine. -/
theorem dropDatabase_unrecorded {database : Database}
    (h : (∃ refusal, (system.dropDatabase txn database).result = .error refusal) ∨
      database.slot = Engine.mainSlot) :
    ∃ engine, (system.dropDatabase txn database).state = system.setEngineOf txn engine := by
  have houtcome := system.dropDatabase_outcome txn database
  generalize system.dropDatabase txn database = outcome at h houtcome ⊢
  cases houtcome with
  | guarded | objected => exact ⟨system.engineOf txn, (setEngine_engine _ _).symm⟩
  | failed | emptied => exact ⟨_, rfl⟩
  | dropped _ _ _ hslot =>
      obtain ⟨refusal, hrefused⟩ := h.resolve_right hslot
      cases hrefused

/-- A journal is kept by what changes neither scopes nor what environments retain. -/
theorem Keeps.of_same (h : Keeps journal system) {after : System}
    (scope : ∀ txn, after.scope txn = system.scope txn)
    (retained : ∀ env, after.retained env = system.retained env) : Keeps journal after where
  own txn slot := by rw [scope, h.own]
  committed env slot := by rw [retained, h.committed]

/-- A new environment retains nothing, like one that is not there. -/
theorem Transition.retained_kept {after : System} (h : Transition system action after)
    (hretained : ∀ env < system.environments.length, after.retained env = system.retained env)
    (env : EnvId) : after.retained env = system.retained env := by
  rcases Nat.lt_or_ge env system.environments.length with henv | henv
  · exact hretained env henv
  · have hbefore : system.retained env = [] := by
      simp [System.retained, environment, List.getD_eq_getElem?_getD, henv, Environment.absent]
    exact (h.newborn henv).2.trans hbefore.symm

/-- A journal is kept by what changes nothing but the engine of a transaction. -/
theorem Keeps.setEngineOf (h : Keeps journal system) (txn : TxnId) (engine : Engine) :
    Keeps journal (system.setEngineOf txn engine) :=
  h.of_same (fun _ ↦ rfl) fun env ↦ retained_setEngine engine env

/-- A journal is kept when the event that a transaction writes down is what its scope records. -/
theorem Keeps.write (h : Keeps journal system) {after : System} {event : ScopeEvent}
    (self : ∀ slot, recordIn (after.scope txn) slot =
      (event.record? slot).or (recordIn (system.scope txn) slot))
    (others : ∀ other ≠ txn, after.scope other = system.scope other)
    (retained : ∀ env, after.retained env = system.retained env) :
    Keeps (journal.write txn event) after where
  own other slot := by
    by_cases hother : other = txn
    · subst hother
      simp [Journal.write, self, h.own, ScopeEvent.summary_concat]
    · simp [Journal.write, hother, others other hother, h.own]
  committed env slot := by rw [retained, h.committed]; rfl

/-- A journal is kept by an open. -/
theorem Keeps.open (h : Keeps journal system) (txn : TxnId) (name : Option String)
    (flags : DbFlags) :
    Keeps (journal.note system (.openDatabase txn name flags))
      (system.after (.openDatabase txn name flags)) := by
  rcases hresult : (system.openThrough txn name flags).result with refusal | database
  · -- a refused open changes nothing but the engine
    obtain ⟨engine, hstate⟩ :
        ∃ engine, (system.openThrough txn name flags).state = system.setEngineOf txn engine := by
      rcases openThrough_error hresult with hstate | ⟨-, code, engine, -, hstate⟩
      · exact ⟨_, hstate.trans (setEngine_engine _ _).symm⟩
      · exact ⟨engine, hstate⟩
    have hnote : journal.note system (.openDatabase txn name flags) = journal := by
      simp [Journal.note, act, Outcome.map, hresult, Except.map]
    rw [hnote, show system.after (.openDatabase txn name flags) = _ from hstate]
    exact h.setEngineOf txn engine
  · obtain ⟨engine, hopened⟩ := openedThrough_of_ok hresult
    have hnote : journal.note system (.openDatabase txn name flags) =
        journal.write txn (.opened database.slot database.generation) := by
      simp [Journal.note, act, Outcome.map, hresult, Except.map]
    rw [hnote]
    refine h.write (fun other ↦ ?_) hopened.scope_of_ne hopened.retained_eq
    rw [hopened.scope_eq, ← recordIn_open]
    rfl

/-- A journal is kept by a drop. -/
theorem Keeps.drop (h : Keeps journal system) (txn : TxnId) (database : Database) :
    Keeps (journal.note system (.dropDatabase txn database))
      (system.after (.dropDatabase txn database)) := by
  rcases hresult : (system.dropDatabase txn database).result with refusal | ⟨⟨⟩⟩
  · obtain ⟨engine, hstate⟩ := dropDatabase_unrecorded (.inl ⟨refusal, hresult⟩)
    have hnote : journal.note system (.dropDatabase txn database) = journal := by
      simp [Journal.note, act, Outcome.map, hresult, Except.map]
    rw [hnote, show system.after (.dropDatabase txn database) = _ from hstate]
    exact h.setEngineOf txn engine
  have hnote : journal.note system (.dropDatabase txn database) =
      journal.write txn (.dropped database.slot) := by
    simp [Journal.note, act, Outcome.map, hresult, Except.map]
  rw [hnote]
  by_cases hslot : database.slot = Engine.mainSlot
  · obtain ⟨engine, hstate⟩ := @dropDatabase_unrecorded system txn database (.inr hslot)
    rw [show system.after (.dropDatabase txn database) = _ from hstate]
    -- The journal has the drop of the main database, but it has no effect.
    refine h.write (fun slot ↦ ?_) (fun _ _ ↦ rfl) fun env ↦ retained_setEngine _ env
    simp only [ScopeEvent.record?, hslot, ne_eq, not_true_eq_false, and_false, if_false]
    rfl
  rcases system.dropDatabase_cases txn database with
    ⟨(⟨refusal, hrefused⟩ | hslot'), -⟩ | ⟨engine, hfault, -, -, -, -, -, hstate⟩
  · exact absurd (hresult.symm.trans hrefused) (by simp)
  · exact absurd hslot' hslot
  obtain ⟨hself, hothers⟩ := @scope_recordDrop (system.setEngineOf txn engine) txn
    database.slot (lt_of_lifecycleFault hfault)
  rw [show system.after (.dropDatabase txn database) = _ from hstate]
  refine h.write (fun slot ↦ ?_) hothers fun env ↦ retained_setEngine _ env
  rw [hself]
  exact recordIn_drop (system.scope txn) hslot slot

/-- A journal is kept by a commit. -/
theorem Keeps.commit (h : Keeps journal system) (hanchored : Anchored system) (txn : TxnId) :
    Keeps (journal.note system (.commit txn)) (system.after (.commit txn)) := by
  -- Only a commit that succeeds is noted, and only such a commit hands a scope over.
  rcases hresult : (system.commit txn).result with refusal | ⟨⟨⟩⟩
  · have hnote : journal.note system (.commit txn) = journal := by
      simp [Journal.note, act, Outcome.map, hresult, Except.map]
    rw [hnote]
    have htransition : Transition system (.commit txn) (system.commit txn).state := transition_commit
    cases htransition.rescoped hanchored with
    | same scope retained => exact h.of_same scope (htransition.retained_kept retained)
    | nested _ hcommit | root _ hcommit => exact absurd (hresult.symm.trans hcommit) (by simp)
  have hnote : journal.note system (.commit txn) = journal.handOver system txn := by
    simp [Journal.note, act, Outcome.map, hresult, Except.map]
  rw [hnote, show system.after (.commit txn) = (system.commit txn).state from rfl]
  unfold Journal.handOver
  cases hparent : (system.transaction txn).parent with
  | some parent =>
      obtain ⟨hself, houter, hothers, hretained⟩ := scopes_commit_nested hanchored hresult hparent
      have hne : parent ≠ txn := Nat.ne_of_lt (hanchored.parent_lt txn parent hparent)
      refine ⟨fun other slot ↦ ?_, fun env slot ↦ ?_⟩
      · dsimp only
        by_cases hother : other = parent
        · subst hother
          rw [houter, Function.update_self, ScopeEvent.summary_append, ← h.own, ← h.own]
          exact recordIn_merge (system.scope other) (system.scope txn) slot
        by_cases hsame : other = txn
        · subst hsame
          rw [hself, Function.update_of_ne hother, Function.update_self]
          rfl
        · rw [hothers other hsame hother, Function.update_of_ne hother,
            Function.update_of_ne hsame, h.own]
      · rw [hretained, h.committed]
  | none =>
      obtain ⟨hself, hothers, hretained, hapart⟩ := scopes_commit_root hanchored hresult hparent
      refine ⟨fun other slot ↦ ?_, fun env slot ↦ ?_⟩
      · dsimp only
        by_cases hsame : other = txn
        · subst hsame
          rw [hself, Function.update_self]
          rfl
        · rw [hothers other hsame, Function.update_of_ne hsame, h.own]
      · dsimp only
        by_cases henv : env = (system.transaction txn).env
        · subst henv
          rw [hretained, Function.update_self, ScopeEvent.replay_append, ← h.own, ← h.committed]
          exact lookup_merge_overlay _ (system.scope txn) slot
        · rw [hapart env henv, Function.update_of_ne henv, h.committed]

/-- An environment is closed unless it was closed before or has transactions. -/
theorem close_cases (system : System) (env : EnvId) :
    ((system.close env).state = system ∧ ((system.environment env).closed = true ∨
        ∃ refusal, (system.close env).result = .error refusal)) ∨
      (system.environment env).closed = false ∧ (system.environment env).active = 0 ∧
        (system.close env).result = .ok () ∧ ∃ files, (system.close env).state =
          { system.modifyEnvironment env ({ · with closed := true, retained := [] }) with
            files := files } := by
  have houtcome := system.close_outcome env
  generalize system.close env = outcome at houtcome ⊢
  cases houtcome with
  | idle hclosed => exact .inl ⟨rfl, .inl hclosed⟩
  | busy => exact .inl ⟨rfl, .inr ⟨_, rfl⟩⟩
  | closed hopen hactive => exact .inr ⟨hopen, hactive, rfl, _, rfl⟩

/-- A journal is kept by the closing of an environment. -/
theorem Keeps.close (h : Keeps journal system) (env : EnvId) :
    Keeps (journal.note system (.close env)) (system.after (.close env)) := by
  have hclose : system.after (.close env) = (system.close env).state := rfl
  rcases system.close_cases env with ⟨hstate, hrefused⟩ | ⟨hclosed, -, hresult, files, hstate⟩
  · have hnote : journal.note system (.close env) = journal := by
      rcases hrefused with hclosed | ⟨refusal, hresult⟩
      · cases hresult : (system.close env).result <;>
          simp [Journal.note, act, Outcome.map, hresult, Except.map, hclosed]
      · simp [Journal.note, act, Outcome.map, hresult, Except.map]
    rwa [hnote, hclose, hstate]
  have hnote : journal.note system (.close env) =
      { journal with committed := Function.update journal.committed env [] } := by
    simp [Journal.note, act, Outcome.map, hresult, Except.map, hclosed]
  rw [hnote, hclose, hstate]
  refine ⟨h.own, fun other slot ↦ ?_⟩
  dsimp only
  by_cases hother : other = env
  · subst hother
    have hretained := congrArg Environment.retained (environment_modifyEnvironment_self system
      ({ · with closed := true, retained := [] }) (env_lt_of_open hclosed))
    rw [Function.update_self]
    exact congrArg (List.lookup slot) hretained
  · have hretained := congrArg Environment.retained (environment_modifyEnvironment_of_ne system
      ({ · with closed := true, retained := [] }) hother)
    rw [Function.update_of_ne hother, ← h.committed]
    exact congrArg (List.lookup slot) hretained

/-- A journal is kept by every action. -/
theorem Keeps.act (h : Keeps journal system) (hsound : Sound system) (action : Action) :
    Keeps (journal.note system action) (system.after action) := by
  have htransition := hsound.transition action
  cases action with
  | openDatabase txn name flags => exact h.open txn name flags
  | dropDatabase txn database => exact h.drop txn database
  | commit txn => exact h.commit hsound.anchored txn
  | close env => exact h.close env
  | _ =>
      cases htransition.rescoped hsound.anchored with
      | same scope retained => exact h.of_same scope (htransition.retained_kept retained)

/-! ## Views before and after an end -/

/-- The live generation of a slot depends on the scopes of the transaction and its ancestors and on
what the environment retains. -/
theorem liveGeneration_congr {after : System} (hanchored : Anchored system)
    (hafter : Anchored after)
    (hidentity : ∀ other ≤ txn,
      (after.transaction other).identity = (system.transaction other).identity)
    (hscope : ∀ other ∈ system.lineage txn, after.scope other = system.scope other)
    (hretained : (after.retained (system.transaction txn).env).lookup slot
      = (system.retained (system.transaction txn).env).lookup slot) :
    after.liveGeneration txn slot = system.liveGeneration txn slot := by
  induction txn using Nat.strongRecOn with
  | ind txn ih =>
      have hparent : (after.transaction txn).parent = (system.transaction txn).parent :=
        congrArg (·.2.2.2) (hidentity txn (Nat.le_refl txn))
      have henv : (after.transaction txn).env = (system.transaction txn).env :=
        congrArg (·.1) (hidentity txn (Nat.le_refl txn))
      rw [lineage_eq hanchored] at hscope
      rw [liveGeneration_overlay hafter, liveGeneration_overlay hanchored,
        hscope txn List.mem_cons_self, hparent, henv]
      cases hfound : (system.transaction txn).parent with
      | none => exact congrArg (overlay _) hretained
      | some parent =>
          have hlt := hanchored.parent_lt txn parent hfound
          rw [hfound] at hscope
          refine congrArg (overlay _) (ih parent hlt (fun other hle ↦ ?_) (fun other hmem ↦ ?_) ?_)
          · exact hidentity other (Nat.le_trans hle (Nat.le_of_lt hlt))
          · exact hscope other (List.mem_cons_of_mem _ hmem)
          · rwa [hanchored.parent_env txn parent hfound]

/-- The members of a lineage were begun before the innermost one, that one itself apart. -/
theorem le_of_mem_lineage (hanchored : Anchored system) {other : TxnId}
    (hmem : other ∈ system.lineage txn) : other ≤ txn := by
  induction txn using Nat.strongRecOn with
  | ind txn ih =>
      rw [lineage_eq hanchored] at hmem
      rcases List.mem_cons.mp hmem with rfl | hmem
      · exact Nat.le_refl _
      · cases hfound : (system.transaction txn).parent with
        | none => simp [hfound] at hmem
        | some parent =>
            have hlt := hanchored.parent_lt txn parent hfound
            rw [hfound] at hmem
            exact Nat.le_trans (ih parent hlt hmem) (Nat.le_of_lt hlt)

/-- An action that begins no transaction leaves the identities of all numbers. -/
theorem Sound.identity_kept (h : Sound system)
    (hbegin : ∀ env parent flags thread, action ≠ .begin env parent flags thread) (other : TxnId) :
    ((system.after action).transaction other).identity = (system.transaction other).identity := by
  have htransition := h.transition action
  rcases Nat.lt_or_ge other system.transactions.length with hlt | hge
  · exact htransition.identity hlt
  have hlength := htransition.length_kept hbegin
  rw [transaction_of_length_le hge, transaction_of_length_le (hlength ▸ hge)]

/-- The commit of a nested transaction gives its parent the view that it had itself, for every
slot. -/
theorem Sound.live_commit_nested (h : Sound system) {parent : TxnId}
    (hcommit : (system.commit txn).result = .ok ())
    (hparent : (system.transaction txn).parent = some parent) (slot : Nat) :
    (system.after (.commit txn)).liveGeneration parent slot = system.liveGeneration txn slot := by
  obtain ⟨-, houter, hothers, hretained⟩ := scopes_commit_nested h.anchored hcommit hparent
  have hafter := (h.act (.commit txn)).anchored
  have hidentity := @h.identity_kept _ (.commit txn) nofun
  have hrecord : recordIn ((system.after (.commit txn)).scope parent) slot
      = (recordIn (system.scope txn) slot).or (recordIn (system.scope parent) slot) :=
    (congrArg (recordIn · slot) houter).trans
      (recordIn_merge (system.scope parent) (system.scope txn) slot)
  have hparentKept : ((system.after (.commit txn)).transaction parent).parent
      = (system.transaction parent).parent := congrArg (·.2.2.2) (hidentity parent)
  have henvKept : ((system.after (.commit txn)).transaction parent).env
      = (system.transaction parent).env := congrArg (·.1) (hidentity parent)
  -- What lies further out than the parent is untouched, so both views end in the same way.
  have hout : (match ((system.after (.commit txn)).transaction parent).parent with
      | some outer => (system.after (.commit txn)).liveGeneration outer slot
      | none => ((system.after (.commit txn)).retained
          ((system.after (.commit txn)).transaction parent).env).lookup slot) =
      match (system.transaction parent).parent with
      | some outer => system.liveGeneration outer slot
      | none => (system.retained (system.transaction parent).env).lookup slot := by
    rw [hparentKept, henvKept]
    cases hfound : (system.transaction parent).parent with
    | none => exact congrArg (List.lookup slot) (hretained _)
    | some outer =>
        have hlt := h.anchored.parent_lt txn parent hparent
        have hltOuter := h.anchored.parent_lt parent outer hfound
        refine liveGeneration_congr h.anchored hafter (fun other _ ↦ hidentity other)
          (fun other hmem ↦ ?_) (congrArg (List.lookup slot) (hretained _))
        have hltOther : other < parent :=
          Nat.lt_of_le_of_lt (le_of_mem_lineage h.anchored hmem) hltOuter
        exact hothers other (Nat.ne_of_lt (Nat.lt_trans hltOther hlt)) (Nat.ne_of_lt hltOther)
  rw [liveGeneration_overlay hafter, hrecord, hout, SlotRecord.overlay_or,
    liveGeneration_overlay h.anchored txn, hparent, ← liveGeneration_overlay h.anchored parent]

/-- The commit of a root makes what the environment retains the view that the root had, for every
slot. -/
theorem Sound.retained_commit_root (h : Sound system)
    (hcommit : (system.commit txn).result = .ok ())
    (hparent : (system.transaction txn).parent = none) (slot : Nat) :
    ((system.after (.commit txn)).retained (system.transaction txn).env).lookup slot
      = system.liveGeneration txn slot := by
  obtain ⟨-, -, hretained, -⟩ := scopes_commit_root h.anchored hcommit hparent
  rw [show (system.after (.commit txn)).retained _ = _ from hretained,
    liveGeneration_overlay h.anchored, hparent]
  exact lookup_merge_overlay _ (system.scope txn) slot

/-- The ways in which a transaction ends without handing anything over: an abort, a drop of a
transaction that has not ended, and a commit that fails. -/
inductive EndsWithout (system : System) (txn : TxnId) : Action → Prop where
  | abort : EndsWithout system txn (.abort txn)
  | drop : EndsWithout system txn (.drop txn)
  | commit {refusal : Refusal} (h : (system.commit txn).result = .error refusal) :
      EndsWithout system txn (.commit txn)

/-- A transaction that ends without handing anything over changes no view: of no transaction, and
of no environment. -/
theorem EndsWithout.views (h : EndsWithout system txn action) (hsound : Sound system) :
    (∀ other slot, (system.after action).liveGeneration other slot
        = system.liveGeneration other slot) ∧
      ∀ env slot, ((system.after action).retained env).lookup slot
        = (system.retained env).lookup slot := by
  have hrescoped := (hsound.transition action).rescoped hsound.anchored
  have hsame : (∀ txn, (system.after action).scope txn = system.scope txn) ∧
      ∀ env < system.environments.length,
        (system.after action).retained env = system.retained env := by
    cases h with
    | abort | drop =>
        cases hrescoped with
        | same scope retained => exact ⟨scope, retained⟩
    | commit hresult =>
        cases hrescoped with
        | same scope retained => exact ⟨scope, retained⟩
        | nested _ hcommit | root _ hcommit => exact absurd (hresult.symm.trans hcommit) (by simp)
  have hidentity := @hsound.identity_kept _ action (by cases h <;> nofun)
  have hretained := (hsound.transition action).retained_kept hsame.2
  exact ⟨fun other slot ↦ liveGeneration_congr hsound.anchored (hsound.act action).anchored
      (fun inner _ ↦ hidentity inner) (fun scope _ ↦ hsame.1 scope)
      (congrArg (List.lookup slot) (hretained _)),
    fun env slot ↦ congrArg (List.lookup slot) (hretained env)⟩

/-! ## The refinement -/

/-- A state that a process can reach, with the journal of the actions that led to it. -/
inductive Recorded : System → Journal → Prop where
  | start (checks : Bool) (files : Files.Tree) : Recorded { checks := checks, files := files } {}
  | step {system : System} {journal : Journal} (h : Recorded system journal) (action : Action) :
      Recorded (system.after action) (journal.note system action)

/-- A journal that was recorded is kept. -/
theorem Recorded.sound_and_keeps (h : Recorded system journal) :
    Sound system ∧ Keeps journal system := by
  induction h with
  | start checks files => exact ⟨sound_start checks files, ⟨fun _ _ ↦ rfl, fun _ _ ↦ rfl⟩⟩
  | step _ action ih => exact ⟨ih.1.act action, ih.2.act ih.1 action⟩

/-- Every state that a process can reach has a journal. -/
theorem Reachable.recorded (h : Reachable system) : ∃ journal, Recorded system journal := by
  obtain ⟨checks, files, hrun⟩ := h
  induction hrun with
  | nil => exact ⟨_, .start checks files⟩
  | step _ _ ih =>
      obtain ⟨journal, hrecorded⟩ := ih
      exact ⟨_, hrecorded.step _⟩

/-- Some more actions. -/
theorem Recorded.along (h : Recorded system journal) (actions : List Action) :
    Recorded (system.afterAll actions) (journal.along system actions) := by
  induction actions generalizing system journal with
  | nil => exact h
  | cons action rest ih => exact ih (h.step action)

/-- Looking up a slot through the scopes is replaying the events that are visible, in the order of
time: the last open or drop of the slot decides. So a commit passes the view of the transaction on,
for every slot, to its parent or to the environment, and a transaction that is aborted, dropped or
fails to commit changes no view of any other. -/
theorem live_generation_replayed (h : Recorded system journal) :
    (∀ txn slot, system.liveGeneration txn slot = replay slot (journal.visible system txn)) ∧
      (∀ env slot, (system.retained env).lookup slot = replay slot (journal.committed env)) ∧
      (∀ txn, (system.commit txn).result = .ok () →
        match (system.transaction txn).parent with
        | some parent => ∀ slot, (system.after (.commit txn)).liveGeneration parent slot
            = system.liveGeneration txn slot
        | none => ∀ slot,
            ((system.after (.commit txn)).retained (system.transaction txn).env).lookup slot
              = system.liveGeneration txn slot) ∧
      ∀ action txn, EndsWithout system txn action →
        (∀ other slot, (system.after action).liveGeneration other slot
            = system.liveGeneration other slot) ∧
          ∀ env slot, ((system.after action).retained env).lookup slot
            = (system.retained env).lookup slot := by
  obtain ⟨hsound, hkeeps⟩ := h.sound_and_keeps
  refine ⟨fun txn slot ↦ hkeeps.live hsound.anchored txn slot, hkeeps.committed,
    fun txn hcommit ↦ ?_, fun action txn hends ↦ hends.views hsound⟩
  cases hparent : (system.transaction txn).parent with
  | some parent => exact fun slot ↦ hsound.live_commit_nested hcommit hparent slot
  | none => exact fun slot ↦ hsound.retained_commit_root hcommit hparent slot

/-- A nested transaction drops the database that its parent has opened and opens it anew. Both see
the new generation once it has committed. -/
theorem live_generation_replayed_nested :
    let nested : System := System.afterAll { files := sampleFiles }
      [.openEnvironment samplePath .empty { maxDbs := 4, maxReaders := 4 } .default,
        .begin 0 none .empty mainThread, .openDatabase 0 (some "a") DbFlags.create,
        .begin 0 (some 0) .empty mainThread, .dropDatabase 1 sampleDatabase,
        .openDatabase 1 (some "a") DbFlags.create]
    nested.liveGeneration 0 2 = some 1 ∧ nested.liveGeneration 1 2 = some 2 ∧
      (nested.after (.commit 1)).liveGeneration 0 2 = some 2 := by
  have hrecorded := (Recorded.start true sampleFiles).along
    [.openEnvironment samplePath .empty { maxDbs := 4, maxReaders := 4 } .default,
      .begin 0 none .empty mainThread, .openDatabase 0 (some "a") DbFlags.create,
      .begin 0 (some 0) .empty mainThread, .dropDatabase 1 sampleDatabase,
      .openDatabase 1 (some "a") DbFlags.create]
  obtain ⟨hlive, -, hcommit, -⟩ := live_generation_replayed hrecorded
  have hparent := hcommit 1 (by decide +kernel)
  rw [show (System.transaction _ 1).parent = some 0 from by decide +kernel] at hparent
  have hchild := hlive 1 2
  rw [show ScopeEvent.replay 2 _ = some 2 from by decide +kernel] at hchild
  exact ⟨(hlive 0 2).trans (by decide +kernel), hchild, (hparent 2).trans hchild⟩

end System

end MappedStore
