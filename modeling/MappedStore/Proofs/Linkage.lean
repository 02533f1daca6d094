import MappedStore.Proofs.Engine.Footing
import MappedStore.Proofs.Rollback
import MappedStore.Proofs.WriterLock

/-!
# Linked transactions are the writers of their engine

Behind each transaction that can write and is cut off from none around it, the engine has a writer
(`System.Enlisted`). So the linked transactions are exactly those that the engine can write through,
and none of these is at rest (`Reachable.wakeful`).
-/

namespace MappedStore

namespace Engine

variable {before after last : Engine}

/-- An engine that still has the writers of another. -/
def Spares (before after : Engine) : Prop :=
  ∀ writer ∈ before.writers, ∃ found ∈ after.writers, found.handle = writer.handle

/-- An engine has its own writers. -/
theorem Spares.refl (engine : Engine) : Spares engine engine := fun writer hwriter ↦
  ⟨writer, hwriter, rfl⟩

/-- An engine that keeps the handles of the writers has them still. -/
theorem Spares.of_keeps (h : System.KeepsWriters before after) : Spares before after := by
  intro writer hwriter
  have hhandle := List.mem_map_of_mem (f := Txn.handle) hwriter
  rw [← h] at hhandle
  exact List.mem_map.mp hhandle

/-- A begin ends no writer. -/
theorem Spares.of_began {parent : Option Nat} {flags : TxnFlags} {native : Nat}
    (h : Began before parent flags native after) : Spares before after := by
  cases h with
  | reading => exact .refl before
  | root | nested => exact fun writer hwriter ↦ ⟨writer, List.mem_cons_of_mem _ hwriter, rfl⟩

end Engine

namespace System

variable {system after : System} {action : Action} {env : EnvId} {txn : TxnId}

/-- The end of a transaction spares the writers of other environments. -/
theorem spares_or_ends_finish (henv : env < system.environments.length) {engine : Engine}
    {ending : System} {state : TxnState} (htxn : txn < system.transactions.length)
    (hstate : state.isFinished = true)
    (hends : EndsWriter (system.native txn) (system.engineOf txn) engine)
    (hengine : ∀ env, ending.engine env = (system.setEngineOf txn engine).engine env)
    (hlength : ending.transactions.length = system.transactions.length) :
    Engine.Spares (system.engine env) ((ending.finish txn state).engine env) ∨
      ∃ ended < system.transactions.length, (system.transaction ended).env = env ∧
        ((ending.finish txn state).transaction ended).state.isFinished = true ∧
        EndsWriter (system.native ended) (system.engine env)
          ((ending.finish txn state).engine env) := by
  have hafter : (ending.finish txn state).engine env
      = (system.setEngine (system.transaction txn).env engine).engine env :=
    (engine_finish ..).trans (hengine env)
  rw [hafter]
  by_cases hplace : (system.transaction txn).env = env
  · refine .inr ⟨txn, htxn, hplace, ?_, ?_⟩
    · rw [field_finish_self (·.state) (fun _ _ ↦ by rfl) state (hlength ▸ htxn)]
      exact hstate
    · rw [hplace, engine_setEngine engine henv, ← hplace]
      exact hends
  · rw [engine_setEngine_of_ne engine (Ne.symm hplace)]
    exact .inl (.refl _)

/-- Either an engine still has its writers after a transition, or a transaction has ended by it. -/
theorem Transition.spares_or_ends (h : Transition system action after) (hanchored : Anchored system)
    (henv : env < system.environments.length) :
    Engine.Spares (system.engine env) (after.engine env) ∨
      ∃ ended < system.transactions.length, (system.transaction ended).env = env ∧
        (after.transaction ended).state.isFinished = true ∧
        EndsWriter (system.native ended) (system.engine env) (after.engine env) := by
  have hroster := hanchored.roster
  have hset : ∀ {place : EnvId} {engine : Engine}, Engine.Spares (system.engine place) engine →
      Engine.Spares (system.engine env) ((system.setEngine place engine).engine env) := fun hspares ↦
    engine_setEngine_induction Engine.Spares Engine.Spares.refl hspares env
  have hused : ∀ {txn : TxnId} {engine : Engine},
      Engine.Used (system.engineOf txn) (system.native txn) engine →
      Engine.Spares (system.engine env) ((system.setEngineOf txn engine).engine env) := fun hused ↦
    hset (.of_keeps (.of_stays ((hroster _).stays_used hused)))
  cases h with
  | idle | files => exact .inl (.refl _)
  | openedEnvironment hopen =>
      rw [engine, engine, environment_append _ _ henv]
      exact .inl (.refl _)
  | @closed place files hactive =>
      have hsame : ((system.modifyEnvironment place
          ({ · with closed := true, retained := [] })).environment env).engine
            = (system.environment env).engine :=
        field_modifyEnvironment (·.engine) (fun _ ↦ by rfl) system place env
      exact .inl ((congrArg (Engine.Spares (system.engine env)) hsame).mpr (.refl _))
  | aside files haction haside =>
      obtain ⟨readers, next, -, rfl⟩ := haside
      exact .inl (hset fun writer hwriter ↦ ⟨writer, hwriter, rfl⟩)
  | used use => exact .inl (hused (Engine.use_used _ _ use))
  | reopened hfault hopen => exact .inl (by simpa using hused (used_of_open hopen))
  | opened hfault hopen => exact .inl (by simpa using hused (used_of_open hopen))
  | dropped hfault henv hlive hslot hdrop => exact .inl (by simpa using hused (used_of_drop hdrop))
  | began hfault hwriter hbegin =>
      rw [engine_enter]
      exact .inl (hset (.of_began (began_of_begin hbegin)))
  | committed hfault hcommit =>
      exact spares_or_ends_finish henv (lt_of_lifecycleFault hfault) rfl
        (endsWriter_of_committed (hroster _) (committed_of_commit (hroster _) hcommit))
        (engine_handOver _ _) (length_handOver _ _)
  | commitFailed hfault hcommit =>
      obtain ⟨middle, hrefused, rfl⟩ := refused_of_commit (hroster _) hcommit
      exact spares_or_ends_finish henv (lt_of_lifecycleFault hfault) rfl
        (endsWriter_of_refused (hroster _) hrefused) (fun _ ↦ rfl) rfl
  | discarded haction hstate =>
      exact spares_or_ends_finish henv (lt_of_state rfl hstate) rfl
        (endsWriter_of_aborted (hroster _) (Engine.abort_cases (hroster _) _).1) (fun _ ↦ rfl) rfl
  | @reset txn hfault hreader =>
      have hreset := Engine.reset_cases (system.engineOf txn) (system.native txn)
      have hspares := hset (.of_keeps (.of_stays ((hroster _).stays_reset hreset)))
      exact .inl (by simpa [setEngineOf] using hspares)
  | renewed hstate hrenew =>
      have hstays := (hroster _).stays_renewed (renewed_of_renew hrenew)
      have hspares := hset (.of_keeps (.of_stays hstays))
      exact .inl (by simpa [setEngineOf] using hspares)

/-- A transaction before another among those that are nested in each other is nested in that one. -/
theorem Nested.mem_lineage {inner rest : List TxnId} {outer : TxnId} (hanchored : Anchored system)
    (h : Nested system (inner ++ outer :: rest)) (htxn : txn ∈ inner ++ [outer]) :
    outer ∈ system.lineage txn := by
  induction inner generalizing txn with
  | nil =>
      obtain rfl : txn = outer := by simpa using htxn
      exact self_mem_lineage hanchored txn
  | cons first inner ih =>
      rcases List.mem_cons.mp htxn with rfl | hinner
      · cases inner with
        | nil =>
            exact (System.mem_lineage hanchored).mpr
              (.inr ⟨outer, h.1, self_mem_lineage hanchored outer⟩)
        | cons next inner =>
            exact (System.mem_lineage hanchored).mpr
              (.inr ⟨next, h.1, ih h.2 List.mem_cons_self⟩)
      · exact ih h.2 hinner

/-- Every linked transaction is one that the engine can write through. -/
def Enlisted (system : System) : Prop := ∀ env txn, Linked system env txn → Writes system txn

/-- A transaction that is linked after an action was so before it. -/
theorem Linked.back (h : Linked (system.after action) env txn) (hsound : Sound system)
    (htxn : txn < system.transactions.length) : Linked system env txn := by
  have hidentity := (hsound.transition action).identity htxn
  refine ⟨(congrArg (·.1) hidentity).symm.trans h.env_eq,
    (congrArg (·.2.2.1) hidentity).symm.trans h.writer, fun outer houter ↦ ?_⟩
  have hle := le_of_mem_lineage hsound.anchored houter
  exact hsound.unfinished_back (Nat.lt_of_le_of_lt hle htxn)
    (h.unfinished outer ((hsound.lineage_kept htxn).symm ▸ houter))

/-- A transaction that an action has begun is one that the engine can write through, unless it only
reads. -/
theorem Sound.writes_new (h : Sound system) (hnew : system.transactions.length ≤ txn)
    (hwriter : ((system.after action).transaction txn).readOnly = false)
    (hafter : txn < (system.after action).transactions.length) :
    Writes (system.after action) txn := by
  obtain ⟨rfl, env, outer, flags, thread, native, engine, -, hentrance⟩ :=
    (h.transition action).of_new hnew hafter
  rw [hentrance.transaction_eq] at hwriter
  refine ⟨hafter, ?_⟩
  rw [hentrance.native_eq, hentrance.engineOf_eq]
  cases hentrance.began with
  | reading _ _ _ hflags =>
      rw [show flags.contains TxnFlags.readOnly = false from hwriter] at hflags
      cases hflags
  | root | nested => exact ⟨_, List.mem_cons_self, rfl⟩

/-- Whatever happens, linked transactions are those that the engine can write through. -/
theorem Enlisted.act (h : Enlisted system) (hsound : Sound system) (action : Action) :
    Enlisted (system.after action) := by
  intro env txn hlinked
  have hafter := hsound.act action
  rcases Nat.lt_or_ge txn system.transactions.length with htxn | hnew
  · have hback := hlinked.back hsound htxn
    have hwrites := h env txn hback
    have hidentity := (hsound.transition action).identity htxn
    obtain rfl := hback.env_eq
    have hkept : Engine.Spares (system.engineOf txn)
        ((system.after action).engine (system.transaction txn).env) →
        Writes (system.after action) txn := by
      intro hspares
      obtain ⟨-, writer, hwriter, hhandle⟩ := hwrites
      obtain ⟨found, hfound, hsame⟩ := hspares writer hwriter
      refine ⟨(hsound.transition action).lt_length htxn, found, ?_, ?_⟩
      · rw [engineOf, hlinked.env_eq]
        exact hfound
      · exact (hsame.trans hhandle).trans (congrArg (·.2.1) hidentity).symm
    rcases (hsound.transition action).spares_or_ends hsound.anchored
        (hsound.anchored.env_lt txn htxn) with hspares | ⟨ended, hended, henv, hfinished, hends⟩
    · exact hkept hspares
    rcases hends with ⟨-, hkeeps⟩ | ⟨inner, writer, outer, hwriters, hhandle, hrest⟩
    · exact hkept (.of_keeps hkeeps)
    -- those that end with a writer are nested in it, and so cut off from it
    obtain ⟨ids, hchain⟩ := hsound.chained (system.transaction txn).env
    obtain ⟨before, rest, rfl, hhandles⟩ := hchain.split hsound.anchored hended henv hwriters hhandle
    have hmember := (hchain.writes_iff hsound.anchored rfl).mp hwrites
    rw [← List.singleton_append, ← List.append_assoc] at hmember
    rcases List.mem_append.mp hmember with hcut | hmember
    · have hlineage := hchain.nested.mem_lineage hsound.anchored hcut
      have hunfinished := hlinked.unfinished ended ((hsound.lineage_kept htxn).symm ▸ hlineage)
      rw [hfinished] at hunfinished
      cases hunfinished
    · have hhandle := List.mem_map_of_mem (f := system.native) hmember
      rw [← hhandles, ← hrest] at hhandle
      obtain ⟨found, hfound, hnative⟩ := List.mem_map.mp hhandle
      refine ⟨(hsound.transition action).lt_length htxn, found, ?_, ?_⟩
      · rw [engineOf, hlinked.env_eq]
        exact hfound
      · exact hnative.trans (congrArg (·.2.1) hidentity).symm
  · refine hsound.writes_new hnew hlinked.writer (lt_of_state rfl (hlinked.self hafter.anchored))

end System

/-- In every state that a process can reach, the linked transactions are enlisted. -/
theorem Reachable.enlisted {system : System} (h : Reachable system) : system.Enlisted := by
  obtain ⟨checks, files, hrun⟩ := h
  have hstart := System.sound_start checks files
  induction hrun with
  | nil =>
      intro env txn hlinked
      exact absurd (System.lt_of_state rfl (hlinked.self hstart.anchored)) (Nat.not_lt_zero txn)
  | step hrun _ ih => exact ih.act (hstart.run hrun) _

/-- In every state that a process can reach, no writer is at rest. -/
theorem Reachable.wakeful {system : System} (h : Reachable system) (env : EnvId) :
    Engine.Wakeful (system.engine env) := by
  obtain ⟨checks, files, hrun⟩ := h
  have hstart := System.sound_start checks files
  have hnewborn : ∀ {engine : Engine}, Engine.Newborn engine → Engine.Wakeful engine := by
    intro engine hnewborn txn htxn
    rw [hnewborn.1] at htxn
    cases htxn
  induction hrun generalizing env with
  | nil => exact fun txn htxn ↦ absurd htxn List.not_mem_nil
  | @step middle action hrun _ ih =>
      have hsound := hstart.run hrun
      have htransition := hsound.transition action
      rcases Nat.lt_or_ge env middle.environments.length with henv | henv
      · exact (ih env).turn (hsound.anchored.roster env)
          (htransition.turn hsound.anchored.roster henv)
      · exact hnewborn (htransition.newborn henv).1

namespace System

variable {system : System} {env : EnvId} {txn : TxnId}

/-- The linked transactions are exactly those that the engine can write through. -/
theorem linked_iff_writes (h : Reachable system) :
    Linked system (system.transaction txn).env txn ↔ Writes system txn := by
  have hsound := h.sound
  refine ⟨h.enlisted _ txn, fun hwrites ↦ ⟨rfl, (hsound.of_writes hwrites).1, fun outer houter ↦ ?_⟩⟩
  rw [(hsound.of_writes (hsound.writes_lineage hwrites houter).1).2]
  rfl

/-- A linked transaction that can be used is the innermost writer of its engine. -/
theorem Linked.innermost (h : Linked system env txn) (hreachable : Reachable system)
    (hfault : (system.transaction txn).lifecycleFault = none) :
    ∃ writer rest, (system.engine env).writers = writer :: rest ∧
      writer.handle = system.native txn := by
  obtain rfl := h.env_eq
  have hsound := hreachable.sound
  obtain ⟨ids, hchain⟩ := hsound.chained (system.transaction txn).env
  have hmember := (hchain.writes_iff hsound.anchored rfl).mp (hreachable.enlisted _ txn h)
  cases ids with
  | nil => cases hmember
  | cons first rest =>
      obtain ⟨writer, outer, hwriters, hhandle, -⟩ := List.map_eq_cons_iff.mp hchain.handles
      refine ⟨writer, outer, hwriters, hhandle.trans (congrArg system.native ?_)⟩
      by_contra hne
      -- otherwise one that has not ended is nested in it
      have hlineage : txn ∈ system.lineage first := by
        obtain ⟨inner, further, hsplit⟩ := List.append_of_mem hmember
        refine (hsplit ▸ hchain.nested).mem_lineage hsound.anchored ?_
        cases inner with
        | nil => exact absurd (List.cons.inj hsplit).1 hne
        | cons head inner => simp [(List.cons.inj hsplit).1]
      obtain ⟨child, hchild, hparent⟩ := child_of_mem_lineage hsound.anchored hlineage
        fun heq ↦ hne heq.symm
      have hfirst := (hchain.writes_iff hsound.anchored (hchain.env_eq first List.mem_cons_self)).mpr
        List.mem_cons_self
      have hactive := (hsound.of_writes (hsound.writes_lineage hfirst hchild).1).2
      have hcount := hreachable.counted.children_pos hparent (by rw [hactive]; rfl)
      exact absurd (active_of_lifecycleFault hfault).2 (Nat.ne_of_gt hcount)

end System

end MappedStore
