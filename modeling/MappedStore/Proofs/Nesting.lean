import MappedStore.Proofs.Counts
import MappedStore.Proofs.Engine.Operations
import MappedStore.Proofs.Reading
import MappedStore.Proofs.Retention
import MappedStore.Proofs.Stacks

/-!
# Nested transactions and stacks of maps

The transactions nested in a root hold the maps of a stack, the innermost the top
(`System.Mirrors`). Every action on them that succeeds keeps it so, and makes of the stack what
`Stack.next` says.
-/

namespace MappedStore

open Engine (Contents mainSlot Setting Levels Turned)

namespace System

variable {α : Type} {system : System} {env : EnvId} {root txn user : TxnId} {database : Database}
  {key : Bytes}

/-! ## Operations that succeed -/

/-- An operation that succeeds behind the gate was let through. -/
theorem withAccess_ok {access : Access} {use : Transaction → Outcome α} {value : α}
    (h : (system.withAccess user access use).result = .ok value) :
    (use (system.transaction user)).result = .ok value ∧
      (system.withAccess user access use).state = (use (system.transaction user)).state := by
  rcases withAccess_cases system user access use with ⟨error, hresult, -⟩ | ⟨-, -, hresult, hstate⟩
  · simp [hresult] at h
  · exact ⟨hresult.symm.trans h, hstate⟩

/-- A relayed use of the engine that succeeds. -/
theorem relay_ok [Inhabited α] {call : Call} {run : Engine → Engine.Answer Engine α} {value : α}
    (hproper : Engine.Proper (run (system.engine env)))
    (h : (system.relay env call run).result = .ok value) :
    ∃ engine, run (system.engine env) = (.ok value, engine) ∧
      (system.relay env call run).state = system.setEngine env engine := by
  rcases system.relay_cases env call run hproper with
    ⟨code, engine, -, hrelay⟩ | ⟨found, engine, hrun, hrelay⟩
  · simp [hrelay] at h
  · rw [hrelay] at h ⊢
    obtain rfl : found = value := Except.ok.inj h
    exact ⟨engine, hrun, rfl⟩

/-- A value was read, or missed. -/
theorem get_state {value : Option Bytes} (h : (system.get user database key).result = .ok value) :
    (system.get user database key).state = system.setEngineOf user
      ((system.engineOf user).get (system.native user) database.slot key).2 := by
  rw [get_eq_seek] at h ⊢
  rw [(withAccess_ok h).2, seek_state]
  rfl

/-- Figures were asked for. -/
theorem stat_state {stat : Engine.Stat} (h : (system.stat user database).result = .ok stat) :
    (system.stat user database).state = system.setEngineOf user
      ((system.engineOf user).statOf (system.native user) database.slot).2 := by
  unfold System.stat at h ⊢
  rw [(withAccess_ok h).2, relay_state]
  rfl

/-- A value was stored. -/
theorem put_ok {value : Bytes} {flags : WriteFlags}
    (h : (system.put user database key value flags).result = .ok ()) :
    ∃ engine, (system.engineOf user).put (system.native user) database.slot key (.bytes value)
        (flags.minus WriteFlags.reserve) = (.ok (), engine) ∧
      (system.put user database key value flags).state = system.setEngineOf user engine := by
  unfold put at h ⊢
  obtain ⟨hresult, hstate⟩ := withAccess_ok h
  rw [hstate]
  exact relay_ok (Engine.proper_put ..) hresult

/-- A database was emptied. -/
theorem clear_ok (h : (system.clear user database).result = .ok ()) :
    ∃ engine, (system.engineOf user).drop (system.native user) database.slot false
        = (.ok (), engine) ∧
      (system.clear user database).state = system.setEngineOf user engine := by
  unfold clear at h ⊢
  obtain ⟨hresult, hstate⟩ := withAccess_ok h
  rw [hstate]
  exact relay_ok (Engine.proper_drop ..) hresult

/-- A key was removed, or missed. -/
theorem del_ok {item : Option Bytes} {found : Bool}
    (h : (system.del user database key item).result = .ok found) :
    ∃ answer engine, (system.engineOf user).del (system.native user) database.slot key item
        = (answer, engine) ∧
      (answer = .ok () ∨ answer = .error Condition.notFound.code) ∧
      (found = true ↔ answer = .ok ()) ∧
      (system.del user database key item).state = system.setEngineOf user engine := by
  rw [del_eq_seek] at h ⊢
  obtain ⟨hresult, hstate⟩ := withAccess_ok h
  rw [hstate]
  obtain ⟨answer, hanswer, rfl⟩ := map_eq_ok.mp hresult
  rcases seek_ok hanswer with ⟨⟨⟩, engine, rfl, hdel, hleft⟩ | ⟨engine, rfl, hdel, hleft⟩
  · exact ⟨_, engine, hdel, .inl rfl, by simp, hleft⟩
  · exact ⟨_, engine, hdel, .inr rfl, by simp, hleft⟩

/-! ## Transactions nested in a root -/

/-- A chain is known by the handles of its writers. -/
theorem Chain.eq_of_handles {ids expected : List TxnId} (h : Chain system env ids)
    (hanchored : Anchored system)
    (hexpected : ∀ txn ∈ expected, txn < system.transactions.length ∧
      (system.transaction txn).env = env)
    (hhandles : (system.engine env).writers.map (·.handle) = expected.map system.native) :
    ids = expected := by
  have hnatives : ids.map system.native = expected.map system.native := h.handles.symm.trans hhandles
  have hids : ∀ txn ∈ ids, txn < system.transactions.length ∧ (system.transaction txn).env = env :=
    fun txn htxn ↦ ⟨h.lt htxn, h.env_eq txn htxn⟩
  clear h hhandles
  induction ids generalizing expected with
  | nil => simpa using hnatives.symm
  | cons txn ids ih =>
      cases expected with
      | nil => simp at hnatives
      | cons other expected =>
          simp only [List.map_cons, List.cons.injEq] at hnatives
          obtain ⟨htxn, henv⟩ := hids txn List.mem_cons_self
          obtain ⟨hother, henv'⟩ := hexpected other List.mem_cons_self
          rw [hanchored.native_inj txn htxn other hother (henv.trans henv'.symm) hnatives.1,
            ih (fun txn hmem ↦ hexpected txn (List.mem_cons_of_mem _ hmem)) hnatives.2
              fun txn hmem ↦ hids txn (List.mem_cons_of_mem _ hmem)]

/-! ## The invariant -/

/-- The transactions nested in a root hold the maps of a stack. Only the root has opened databases,
those that it had opened at the start, and nothing is nested in them that does not belong to the
stack. -/
structure Mirrors (start : System) (setting : Setting) (root : TxnId) (system : System)
    (stack : Stack) : Prop where
  levels : Levels setting (system.engine (start.transaction root).env) stack.maps
  chain : Chain system (start.transaction root).env stack.ids
  bottom : stack.ids.getLast? = some root
  own : system.scope root = start.scope root
  scopes : ∀ txn ∈ stack.ids, txn ≠ root → system.scope txn = ([], [])
  retained : system.retained (start.transaction root).env
    = start.retained (start.transaction root).env
  adopted : ∀ txn outer, (system.transaction txn).parent = some outer →
    (system.transaction txn).state.isFinished = false → outer ∈ stack.ids → txn ∈ stack.ids

namespace Mirrors

variable {start after : System} {setting : Setting} {stack outer : Stack} {contents : Contents}

/-- The root is a member of its stack. -/
theorem root_mem (h : Mirrors start setting root system stack) : root ∈ stack.ids :=
  List.mem_of_getLast? h.bottom

/-- The root writes. -/
theorem root_writes (h : Mirrors start setting root system stack) (hsound : Sound system) :
    Writes system root ∧ (system.transaction root).env = (start.transaction root).env := by
  have henv := h.chain.env_eq root h.root_mem
  exact ⟨(h.chain.writes_iff hsound.anchored henv).mpr h.root_mem, henv⟩

/-- A transaction nested in the root is of the environment, and does not only read. -/
theorem of_lineage (h : Mirrors start setting root system stack) (hsound : Sound system)
    (hmem : root ∈ system.lineage user) : user < system.transactions.length ∧
      (system.transaction user).env = (start.transaction root).env ∧
      (system.transaction user).readOnly = false := by
  obtain ⟨hwrites, henv⟩ := h.root_writes hsound
  obtain ⟨hlt, hwriter⟩ := hsound.writer_of_lineage hwrites hmem
  exact ⟨hlt, (env_of_lineage hsound.anchored hmem).trans henv, hwriter⟩

/-- What the engine finds for a transaction nested in the root is a writer, and the innermost one if
it is not blocked. -/
theorem found (h : Mirrors start setting root system stack) (hsound : Sound system)
    (hmem : root ∈ system.lineage user) {found : Engine.Txn}
    (hfound : (system.engineOf user).txn? (system.native user) = some found) :
    found.readOnly = false ∧ user ∈ stack.ids ∧
      ((system.engineOf user).isBlocked found = false → stack.ids.head? = some user) := by
  obtain ⟨hlt, henv, hwriter⟩ := h.of_lineage hsound hmem
  have hfoundWriter := hsound.writer_of_found hlt hwriter hfound
  rw [show system.engineOf user = system.engine (start.transaction root).env from
    congrArg system.engine henv] at hfound ⊢
  have hwriters := (hsound.anchored.roster _).mem_writers hfound hfoundWriter
  exact ⟨hfoundWriter,
    h.chain.mem hsound.anchored hlt henv hwriters (Engine.handle_of_txn? hfound),
    h.chain.innermost hsound.anchored hlt henv hfound hfoundWriter⟩

/-- The chain after an action, from the handles that the engine then has. -/
theorem chain_of_handles (hsound : Sound after) {ids : List TxnId} (env : EnvId)
    (hids : ∀ txn ∈ ids, txn < after.transactions.length ∧ (after.transaction txn).env = env)
    (hhandles : (after.engine env).writers.map (·.handle) = ids.map after.native) :
    Chain after env ids := by
  obtain ⟨found, hchain⟩ := hsound.chained env
  rwa [hchain.eq_of_handles hsound.anchored hids hhandles] at hchain

/-! ### Uses -/

/-- The environment of the root has a number that was given out. -/
theorem env_lt (h : Mirrors start setting root system stack) (hsound : Sound system) :
    (start.transaction root).env < system.environments.length := by
  obtain ⟨hwrites, henv⟩ := h.root_writes hsound
  exact henv ▸ hsound.anchored.env_lt root hwrites.1

/-- A use of the engine through the innermost transaction changes the top of the stack. -/
theorem used {contents' : Contents} {handle : Nat} {engine : Engine}
    (h : Mirrors start setting root system ((txn, contents) :: outer)) (hsound : Sound system)
    (hturned : Turned setting (system.engine (start.transaction root).env) handle
      (contents' :: outer.maps) engine) :
    Mirrors start setting root (system.setEngine (start.transaction root).env engine)
      ((txn, contents') :: outer) := by
  have hengine := engine_setEngine engine (h.env_lt hsound)
  refine ⟨?_, ?_, h.bottom, h.own, h.scopes, ?_, h.adopted⟩
  · rw [hengine]
    exact hturned.levels
  · refine h.chain.keep ?_ (fun _ _ _ _ _ ↦ rfl) (fun _ henv hholds ↦ ⟨henv, hholds⟩) fun hlocked ↦ ?_
    · rw [hengine]
      exact hturned.handles
    · rwa [field_setEngine Environment.writerLocked fun _ _ ↦ rfl]
  · exact (retained_setEngine engine _).trans h.retained

end Mirrors

/-- The databases in use have the slots that a setting says, no two named ones have the same
occupant, and the named slots that the root has opened are those that it has recorded. -/
structure Fits (start : System) (root : TxnId) (databases : Set Database) (setting : Setting) :
    Prop where
  used : ∀ slot, setting.used slot ↔ ∃ database ∈ databases, database.slot = slot
  made : ∀ slot, setting.made slot →
    slot ≠ mainSlot ∧ ∃ entry ∈ (start.transaction root).opened, entry.1 = slot
  separate : setting.Separate

namespace Mirrors

variable {start after : System} {setting : Setting} {stack outer : Stack} {contents : Contents}
  {databases : Set Database}

/-- The engine of a transaction nested in the root. -/
theorem engineOf_eq (h : Mirrors start setting root system stack) (hsound : Sound system)
    (hmem : root ∈ system.lineage user) (engine : Engine) :
    system.engineOf user = system.engine (start.transaction root).env ∧
      system.setEngineOf user engine = system.setEngine (start.transaction root).env engine := by
  have henv := (h.of_lineage hsound hmem).2.1
  exact ⟨congrArg system.engine henv, congrArg (system.setEngine · engine) henv⟩

/-- The innermost transaction is the one whose handle the innermost writer has. -/
theorem innermost_eq (h : Mirrors start setting root system ((txn, contents) :: outer))
    (hsound : Sound system) (hmem : root ∈ system.lineage user)
    (hhead : (system.engine (start.transaction root).env).writers.head?.map (·.handle)
      = some (system.native user)) : user = txn := by
  rw [← List.head?_map, h.chain.handles] at hhead
  obtain ⟨hlt, henv, -⟩ := h.of_lineage hsound hmem
  have htop : txn ∈ Stack.ids ((txn, contents) :: outer) := by simp [Stack.ids]
  exact (hsound.anchored.native_inj txn (h.chain.lt htop) user hlt
    ((h.chain.env_eq txn htop).trans henv.symm) (by simpa [Stack.ids] using hhead)).symm

/-- A stack that is mirrored has a top. -/
theorem exists_top (h : Mirrors start setting root system stack) :
    ∃ txn contents outer, stack = (txn, contents) :: outer := by
  cases stack with
  | nil => simpa [Stack.ids] using h.bottom
  | cons top outer => exact ⟨top.1, top.2, outer, rfl⟩

/-- A read that succeeds leaves the stack. -/
theorem get (h : Mirrors start setting root system stack) (hsound : Sound system)
    (hmem : root ∈ system.lineage user) {value : Option Bytes}
    (hget : (system.get user database key).result = .ok value) :
    Mirrors start setting root (system.get user database key).state stack := by
  obtain ⟨-, found, content, hfound, -, hblocked, -⟩ := usable_of_get hget
  obtain ⟨hwriter, -, -⟩ := h.found hsound hmem hfound
  obtain ⟨txn, contents, outer, rfl⟩ := h.exists_top
  rw [get_state hget, (h.engineOf_eq hsound hmem _).2]
  rw [(h.engineOf_eq hsound hmem (system.engineOf user)).1] at hfound hblocked ⊢
  exact h.used hsound (h.levels.get (hsound.anchored.roster _) hfound hwriter hblocked)

/-- A question for figures that succeeds leaves the stack. -/
theorem stat (h : Mirrors start setting root system stack) (hsound : Sound system)
    (hmem : root ∈ system.lineage user) {stat : Engine.Stat}
    (hstat : (system.stat user database).result = .ok stat) :
    Mirrors start setting root (system.stat user database).state stack := by
  obtain ⟨-, found, content, hfound, -, hblocked⟩ := usable_of_stat hstat
  obtain ⟨hwriter, -, -⟩ := h.found hsound hmem hfound
  obtain ⟨txn, contents, outer, rfl⟩ := h.exists_top
  rw [stat_state hstat, (h.engineOf_eq hsound hmem _).2]
  rw [(h.engineOf_eq hsound hmem (system.engineOf user)).1] at hfound hblocked ⊢
  exact h.used hsound (h.levels.stat (hsound.anchored.roster _) hfound hwriter hblocked)

/-- A value that is stored is written at the top. -/
theorem put (h : Mirrors start setting root system stack) (hsound : Sound system)
    (hfits : Fits start root databases setting) (hdatabase : database ∈ databases)
    (hmem : root ∈ system.lineage user) {value : Bytes}
    (hput : (system.put user database key value .empty).result = .ok ()) :
    Mirrors start setting root (system.put user database key value .empty).state
      (stack.write database.slot fun map ↦ Function.update map key (some value)) := by
  obtain ⟨engine, hengine, hstate⟩ := put_ok hput
  obtain ⟨txn, contents, outer, rfl⟩ := h.exists_top
  rw [hstate, (h.engineOf_eq hsound hmem _).2]
  rw [(h.engineOf_eq hsound hmem engine).1] at hengine
  exact h.used hsound (h.levels.put (hsound.anchored.roster _) hfits.separate
    ((hfits.used _).mpr ⟨database, hdatabase, rfl⟩) hengine)

/-- A key that is removed goes from the top. It was there if the answer says so. -/
theorem del (h : Mirrors start setting root system stack) (hsound : Sound system)
    (hfits : Fits start root databases setting) (hdatabase : database ∈ databases)
    (hmem : root ∈ system.lineage user) {found : Bool}
    (hdel : (system.del user database key none).result = .ok found) :
    Mirrors start setting root (system.del user database key none).state
        (stack.write database.slot fun map ↦ Function.update map key none) ∧
      ∀ contents ∈ stack.maps.head?, (found = true ↔ contents database.slot key ≠ none) := by
  obtain ⟨answer, engine, hengine, hanswer, hfound, hstate⟩ := del_ok hdel
  obtain ⟨txn, contents, outer, rfl⟩ := h.exists_top
  rw [hstate, (h.engineOf_eq hsound hmem _).2]
  rw [(h.engineOf_eq hsound hmem engine).1] at hengine
  obtain ⟨hturned, hpresent⟩ := h.levels.del (hsound.anchored.roster _) hfits.separate
    ((hfits.used _).mpr ⟨database, hdatabase, rfl⟩) hengine hanswer
  refine ⟨h.used hsound hturned, fun top htop ↦ ?_⟩
  obtain rfl : contents = top := by simpa [Stack.maps] using htop
  exact hfound.trans hpresent

/-- A database that is emptied is empty at the top. -/
theorem clear (h : Mirrors start setting root system stack) (hsound : Sound system)
    (hfits : Fits start root databases setting) (hdatabase : database ∈ databases)
    (hmem : root ∈ system.lineage user)
    (hmain : database.slot = mainSlot → (∀ other ∈ databases, other.slot = mainSlot) ∧
      ∀ entry ∈ (system.transaction root).opened, entry.1 = mainSlot)
    (hclear : (system.clear user database).result = .ok ()) :
    Mirrors start setting root (system.clear user database).state
      (stack.write database.slot fun _ _ ↦ none) := by
  obtain ⟨engine, hengine, hstate⟩ := clear_ok hclear
  obtain ⟨txn, contents, outer, rfl⟩ := h.exists_top
  rw [hstate, (h.engineOf_eq hsound hmem _).2]
  rw [(h.engineOf_eq hsound hmem engine).1] at hengine
  refine h.used hsound (h.levels.clear (hsound.anchored.roster _) hfits.separate
    ((hfits.used _).mpr ⟨database, hdatabase, rfl⟩) (fun hslot other hother ↦ ?_) hengine)
  obtain ⟨hothers, hentries⟩ := hmain hslot
  rintro (hused | hmade)
  · obtain ⟨found, hfound, rfl⟩ := (hfits.used other).mp hused
    exact hother (hothers found hfound)
  · obtain ⟨-, entry, hentry, rfl⟩ := hfits.made other hmade
    rw [show (system.transaction root).opened = (start.transaction root).opened from
      congrArg Prod.fst h.own] at hentries
    exact hother (hentries entry hentry)

/-! ### Begins -/

/-- A nested transaction that begins has a copy of the top. -/
theorem begin (h : Mirrors start setting root system stack) (hsound : Sound system)
    (hmem : root ∈ system.lineage user) {place : EnvId} {flags : TxnFlags} {thread : Nat}
    {child : TxnId} (hbegin : (system.begin place (some user) flags thread).result = .ok child) :
    Mirrors start setting root (system.begin place (some user) flags thread).state
      (stack.push child) := by
  obtain ⟨txn, contents, outer, rfl⟩ := h.exists_top
  obtain ⟨hlt, henv, -⟩ := h.of_lineage hsound hmem
  obtain ⟨rfl, native, engine, hentrance⟩ := entrance_of_begin hbegin
  change Entrance system place (some user) flags thread native engine
    (system.begin place (some user) flags thread).state at hentrance
  generalize (system.begin place (some user) flags thread).state = after at hentrance ⊢
  obtain rfl : place = (start.transaction root).env :=
    ((of_beginFault hentrance.fault).2 user rfl).1.symm.trans henv
  have hbegan := hentrance.began
  have hengine := hentrance.engine_eq
  have houtcome := hentrance.outcome
  have hwriter : flags.contains TxnFlags.readOnly = false := by
    cases hbegan with
    | reading _ _ hparent => simp at hparent
    | root hparent => simp at hparent
    | nested _ hflags => exact hflags
  obtain ⟨hlevels, hhead, hhandles⟩ := h.levels.nested (hsound.anchored.roster _) hbegan
  obtain rfl := h.innermost_eq hsound hmem hhead
  obtain rfl := hentrance.after_eq
  refine ⟨?_, ?_, ?_, ?_, ?_, ?_, fun other parent hparent hunfinished hmember ↦ ?_⟩
  · rw [hengine]
    exact hlevels
  · exact h.chain.cons (h.env_lt hsound) hhandles rfl hwriter rfl rfl (by simp [entrant, Stack.ids])
  · simpa [Stack.push, Stack.ids, List.getLast?_cons_cons] using h.bottom
  · exact (scope_enter rfl rfl root).trans h.own
  · intro other hother hne
    refine (scope_enter rfl rfl other).trans ?_
    rcases List.mem_cons.mp hother with rfl | hother
    · exact scope_of_length_le (Nat.le_refl system.transactions.length)
    · exact h.scopes other hother hne
  · exact ((field_environment_enter Environment.retained (fun _ _ _ ↦ rfl) _ _ _).trans
      (retained_setEngine engine _)).trans h.retained
  · -- the new transaction is the only one that is nested in another than before
    have hother := houtcome other
    generalize System.transaction _ other = found at hother hparent hunfinished
    cases hother with
    | kept _ hlt =>
        have hparentLt := Nat.lt_trans (hsound.anchored.parent_lt other parent hparent) hlt
        exact List.mem_cons_of_mem _ (h.adopted other parent hparent hunfinished
          ((List.mem_cons.mp hmember).resolve_left (Nat.ne_of_lt hparentLt)))
    | entered => exact List.mem_cons_self
    | beyond => cases hparent

/-! ### Ends -/

/-- Among transactions nested in each other, those before one of them are not nested directly in
those after it. -/
theorem parent_not_mem {inner rest : List TxnId} (hnested : Nested system (inner ++ user :: rest))
    (hnodup : (inner ++ user :: rest).Nodup) {parent : TxnId} (htxn : txn ∈ inner)
    (hparent : (system.transaction txn).parent = some parent) : parent ∉ rest := by
  obtain ⟨before, between, rfl⟩ := List.append_of_mem htxn
  rw [List.append_assoc, List.cons_append] at hnested hnodup
  have hhead := (hnested.suffix (List.suffix_append before _)).1
  rw [hparent] at hhead
  have hnodup' := (List.nodup_cons.mp hnodup.of_append_right).2
  cases between with
  | nil =>
      obtain rfl : parent = user := by simpa using hhead
      exact (List.nodup_cons.mp hnodup').1
  | cons next between =>
      obtain rfl : parent = next := by simpa using hhead
      have hout := (List.nodup_cons.mp hnodup').1
      exact fun hrest ↦ hout (List.mem_append_right _ (List.mem_cons_of_mem _ hrest))

/-- After an action that leaves the outer part of the chain, the stack is another with that part. -/
theorem carried {action : Action} (h : Mirrors start setting root system stack)
    (hsound : Sound system) (hsuffix : outer.ids <:+ stack.ids) (houter : outer ≠ [])
    (hlevels : Levels setting ((system.after action).engine (start.transaction root).env) outer.maps)
    (hhandles : ((system.after action).engine (start.transaction root).env).writers.map (·.handle)
      = outer.ids.map system.native)
    (hlength : (system.after action).transactions.length = system.transactions.length)
    (hscope : ∀ txn ∈ outer.ids, (system.after action).scope txn = system.scope txn)
    (hretained : ∀ env < system.environments.length,
      (system.after action).retained env = system.retained env)
    (hadopted : ∀ txn ∈ stack.ids, ((system.after action).transaction txn).state.isFinished = false →
      ∀ parent ∈ outer.ids, (system.transaction txn).parent = some parent → txn ∈ outer.ids) :
    Mirrors start setting root (system.after action) outer := by
  have htransition := hsound.transition action
  have hmembers : ∀ txn ∈ outer.ids, txn ∈ stack.ids := fun txn htxn ↦ hsuffix.subset htxn
  have hbottom : outer.ids.getLast? = some root :=
    (getLast?_suffix hsuffix (by simpa [Stack.ids] using houter)).trans h.bottom
  refine ⟨hlevels, chain_of_handles (hsound.act action) _ (fun txn htxn ↦ ?_) ?_, hbottom,
    (hscope root (List.mem_of_getLast? hbottom)).trans h.own,
    fun txn htxn hne ↦ (hscope txn htxn).trans (h.scopes txn (hmembers txn htxn) hne),
    (hretained _ (h.env_lt hsound)).trans h.retained, fun txn parent hnested hunfinished hmem ↦ ?_⟩
  · have hlt := h.chain.lt (hmembers txn htxn)
    exact ⟨hlength ▸ hlt, (congrArg (·.1) (htransition.identity hlt)).trans
      (h.chain.env_eq txn (hmembers txn htxn))⟩
  · rw [hhandles]
    exact List.map_congr_left fun txn htxn ↦
      (congrArg (·.2.1) (htransition.identity (h.chain.lt (hmembers txn htxn)))).symm
  · have hlt : txn < system.transactions.length := hlength ▸ lt_of_parent hnested
    have hparent := (congrArg (·.2.2.2) (htransition.identity hlt)).symm.trans hnested
    have hmember := h.adopted txn parent hparent (hsound.unfinished_back hlt hunfinished)
      (hmembers parent hmem)
    exact hadopted txn hmember hunfinished parent hmem hparent

/-- After the end of a transaction the stack is another with those further out. -/
theorem ended {inner : List TxnId} {action : Action} (h : Mirrors start setting root system stack)
    (hsound : Sound system) (hids : stack.ids = inner ++ user :: outer.ids) (houter : outer ≠ [])
    (hlevels : Levels setting ((system.after action).engine (start.transaction root).env) outer.maps)
    (hhandles : ((system.after action).engine (start.transaction root).env).writers.map (·.handle)
      = outer.ids.map system.native)
    (hlength : (system.after action).transactions.length = system.transactions.length)
    (hfinished : ((system.after action).transaction user).state.isFinished = true)
    (hscope : ∀ other ≠ user, (system.after action).scope other = system.scope other)
    (hretained : ∀ env < system.environments.length,
      (system.after action).retained env = system.retained env) :
    Mirrors start setting root (system.after action) outer := by
  have hnested := h.chain.nested
  have hnodup := hnested.nodup hsound.anchored
  rw [hids] at hnested hnodup
  have hsuffix : outer.ids <:+ stack.ids :=
    hids ▸ (List.suffix_cons user _).trans (List.suffix_append inner _)
  refine h.carried hsound hsuffix houter hlevels hhandles hlength (fun txn htxn ↦ hscope txn ?_)
    hretained fun txn htxn hunfinished parent hmem hparent ↦ ?_
  · rintro rfl
    exact not_mem_outer hnodup htxn
  · rw [hids, List.mem_append, List.mem_cons] at htxn
    rcases htxn with hinner | rfl | hmember
    · exact absurd hmem (parent_not_mem hnested hnodup hinner hparent)
    · simp [hfinished] at hunfinished
    · exact hmember

/-- The commit of a nested transaction changes no scope but its own, which it has emptied. -/
theorem scope_commit {parent : TxnId} (h : Mirrors start setting root system stack)
    (hsound : Sound system) (hmember : user ∈ stack.ids) (hne : user ≠ root)
    (hparent : (system.transaction user).parent = some parent) :
    (∀ other ≠ user, (system.after (.commit user)).scope other = system.scope other) ∧
      ∀ env < system.environments.length,
        (system.after (.commit user)).retained env = system.retained env := by
  cases (hsound.transition (.commit user)).rescoped hsound.anchored with
  | same scope retained => exact ⟨fun other _ ↦ scope other, retained⟩
  | root _ _ hnone => simp [hparent] at hnone
  | nested _ _ hfound _ hmerged others retained =>
      obtain rfl := Option.some.inj (hparent.symm.trans hfound)
      refine ⟨fun other hother ↦ ?_, fun env _ ↦ retained env⟩
      by_cases hsame : other = parent
      · have hempty := h.scopes user hmember hne
        have hopened : (system.transaction user).opened = [] := congrArg Prod.fst hempty
        have hdropped : (system.transaction user).dropped = [] := congrArg Prod.snd hempty
        rw [hsame, hmerged, hopened, hdropped]
        simp [Opens.merge, scope]
      · exact others other hother hsame

/-- A transaction that was committed goes through the innermost writer. -/
theorem head_of_commit {engine : Engine} (h : Mirrors start setting root system stack)
    (hsound : Sound system) (hmem : root ∈ system.lineage user)
    (hcommit : (system.engineOf user).commit (system.native user) = (.ok (), engine)) :
    (system.engineOf user).writers.head?.map (·.handle) = some (system.native user) := by
  cases committed_of_commit (hsound.anchored.roster _) hcommit with
  | reader htxn hreader => simp [(h.found hsound hmem htxn).1] at hreader
  | nested hwriters hhandle | root _ hwriters hhandle =>
      exact (congrArg (fun writers ↦ writers.head?.map (·.handle)) hwriters).trans
        (congrArg some hhandle)

/-- The commit of a nested transaction hands its maps to its parent. That of the root leaves
nothing. -/
theorem commit (h : Mirrors start setting root system stack) (hsound : Sound system)
    (hmem : root ∈ system.lineage user) (hcommit : (system.commit user).result = .ok ()) :
    stack.merge = [] ∨
      Mirrors start setting root (system.after (.commit user)) stack.merge := by
  obtain ⟨engine, -, hengine, hstate⟩ := commit_ok hcommit
  have hhead := h.head_of_commit hsound hmem hengine
  obtain ⟨hengineOf, hset⟩ := h.engineOf_eq hsound hmem engine
  have hlt := (h.of_lineage hsound hmem).1
  obtain ⟨txn, contents, outer, rfl⟩ := h.exists_top
  rw [hengineOf] at hhead hengine
  obtain rfl := h.innermost_eq hsound hmem hhead
  rcases outer with _ | ⟨⟨parent, below⟩, rest⟩
  · exact .inl rfl
  refine .inr ?_
  have hids : Stack.ids ((user, contents) :: (parent, below) :: rest)
      = [] ++ user :: Stack.ids ((parent, contents) :: rest) := rfl
  have hne : user ≠ root := by
    rintro rfl
    have hnodup := h.chain.nested.nodup hsound.anchored
    have hbottom := h.bottom
    rw [hids, List.nil_append] at hnodup hbottom
    rw [show Stack.ids ((parent, contents) :: rest) = parent :: Stack.ids rest from rfl,
      List.getLast?_cons_cons] at hbottom
    exact (List.nodup_cons.mp hnodup).1 (List.mem_of_getLast? hbottom)
  obtain ⟨hscope, hretained⟩ := h.scope_commit hsound (by simp [hids]) hne h.chain.nested.1
  have hstate' : system.after (.commit user) = _ := hset ▸ hstate
  have hengine' : (system.after (.commit user)).engine (start.transaction root).env = engine := by
    rw [hstate', engine_finish, engine_handOver, engine_setEngine engine (h.env_lt hsound)]
  obtain ⟨writer, others, hwriters, -, -⟩ := h.levels.innermost
  obtain hhandle : writer.handle = system.native user := by simpa [hwriters] using hhead
  rw [← hhandle] at hengine
  obtain ⟨hlevels, hhandles⟩ := h.levels.committed (hsound.anchored.roster _) hwriters hengine
  refine h.ended hsound hids (by simp [Stack.merge]) ?_ ?_ ?_ ?_ hscope hretained
  · rw [hengine']
    exact hlevels
  · rw [hengine', hhandles, h.chain.handles]
    rfl
  · rw [hstate', length_finish, length_handOver]
    rfl
  · rw [hstate', field_finish_self (·.state) (fun _ _ ↦ by rfl) .committed
      (by rw [length_handOver]; exact hlt)]
    rfl

/-- What the engine makes of the levels when it aborts a nested transaction. -/
theorem levels_abort {inner : Stack}
    (h : Mirrors start setting root system (inner ++ (user, contents) :: outer))
    (hsound : Sound system) (houter : outer ≠ []) :
    Levels setting
        ((system.engine (start.transaction root).env).abort (system.native user)) outer.maps ∧
      ((system.engine (start.transaction root).env).abort (system.native user)).writers.map (·.handle)
        = outer.ids.map system.native := by
  have hhandles := h.chain.handles
  rw [Stack.ids_append, List.map_append, List.map_cons] at hhandles
  obtain ⟨above, rest, hwriters, habove, hrest⟩ := List.map_eq_append_iff.mp hhandles
  obtain ⟨writer, below, rfl, hhandle, hbelow⟩ := List.map_eq_cons_iff.mp hrest
  have hne : below ≠ [] := by
    rintro rfl
    simp [Stack.ids, houter] at hbelow
  obtain ⟨hlevels, hafter⟩ := h.levels.aborted (hsound.anchored.roster _) hwriters hne
  have hcount : above.length = inner.length := by
    simpa [Stack.ids] using congrArg List.length habove
  have hmaps : Stack.maps (inner ++ (user, contents) :: outer)
      = (inner.maps ++ [contents]) ++ outer.maps := by
    simp [Stack.maps]
  rw [hhandle, hmaps, List.drop_left' (by simp [Stack.maps, hcount])] at hlevels
  rw [hhandle] at hafter
  exact ⟨hlevels, hafter ▸ hbelow⟩

/-- A discarded transaction takes what is nested in it along, and its maps are lost with theirs. -/
theorem abort {action : Action} (h : Mirrors start setting root system stack)
    (hsound : Sound system) (hmem : root ∈ system.lineage user)
    (haction : system.after action = (system.abort user).state) :
    stack.discard user = [] ∨
      Mirrors start setting root (system.after action) (stack.discard user) := by
  have hlt := (h.of_lineage hsound hmem).1
  have habort := haction.trans (abort_state system user)
  split at habort
  · -- a transaction that has ended is not of the stack
    rename_i hfinished
    have hout : user ∉ stack.ids := fun hmember ↦ by
      simp [h.chain.active user hmember, TxnState.isFinished] at hfinished
    rw [habort, Stack.discard_of_not_mem hout]
    exact .inr h
  obtain ⟨hengineOf, hset⟩ := h.engineOf_eq hsound hmem
    ((system.engineOf user).abort (system.native user))
  rw [hset, hengineOf] at habort
  have hengine : (system.after action).engine (start.transaction root).env
      = (system.engine (start.transaction root).env).abort (system.native user) := by
    rw [habort, engine_finish, engine_setEngine _ (h.env_lt hsound)]
  have hlength : (system.after action).transactions.length = system.transactions.length := by
    rw [habort, length_finish]
    rfl
  have hscope : ∀ other, (system.after action).scope other = system.scope other := by
    intro other
    rw [habort, scope_finish]
    rfl
  have hretained : ∀ env, (system.after action).retained env = system.retained env := by
    intro env
    rw [habort, retained_finish, retained_setEngine]
  by_cases hmember : user ∈ stack.ids
  · obtain ⟨inner, outer, contents, rfl⟩ := Stack.exists_append hmember
    have hnodup := h.chain.nested.nodup hsound.anchored
    rw [Stack.ids_append] at hnodup
    have hinner : user ∉ Stack.ids inner := fun hin ↦
      List.disjoint_of_nodup_append hnodup hin List.mem_cons_self
    rw [Stack.discard_append hinner]
    rcases eq_or_ne outer [] with rfl | houter
    · exact .inl rfl
    obtain ⟨hlevels, hhandles⟩ := h.levels_abort hsound houter
    refine .inr (h.ended hsound (Stack.ids_append ..) houter (hengine ▸ hlevels) ?_ hlength ?_
      (fun other _ ↦ hscope other) fun env _ ↦ hretained env)
    · rw [hengine, hhandles]
    · rw [habort, field_finish_self (·.state) (fun _ _ ↦ by rfl) .aborted (by exact hlt)]
      rfl
  · -- a transaction whose writer has gone with that of its parent
    rw [Stack.discard_of_not_mem hmember]
    have hgone : (system.engine (start.transaction root).env).abort (system.native user)
        = system.engine (start.transaction root).env := by
      unfold Engine.abort
      cases hfound : (system.engine (start.transaction root).env).txn? (system.native user) with
      | none => rfl
      | some found => exact absurd (h.found hsound hmem (hengineOf ▸ hfound)).2.1 hmember
    rw [hgone] at hengine
    have hnonempty : stack ≠ [] := by
      rintro rfl
      simpa [Stack.ids] using h.bottom
    refine .inr (h.carried hsound (List.suffix_refl _) hnonempty (hengine ▸ h.levels) ?_ hlength
      (fun other _ ↦ hscope other) (fun env _ ↦ hretained env) fun txn htxn _ _ _ _ ↦ htxn)
    rw [hengine]
    exact h.chain.handles

end Mirrors

end System

end MappedStore
