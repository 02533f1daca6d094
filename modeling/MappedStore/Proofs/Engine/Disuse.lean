import MappedStore.Proofs.Engine.Breakage

/-!
# Transactions that are of no more use

Once a writer is broken, and no other is nested in it, nothing can be done through it any more
(`Engine.Roster.refusal_disused`), it cannot be committed (`commit_disused`), and none begins in it
(`begin_disused`). No operation of the engine mends it, whichever transaction that goes through: the
writer stays as it is until it ends (`Disused.use`, `Disused.commit` and so on).
-/

namespace MappedStore.Engine

variable {engine after : Engine} {handle slot : Nat} {txn txn' : Txn}

/-- Nothing can be done through the transaction with a handle: the engine has none, or it is a
writer that is broken, with none nested in it. -/
def Disused (engine : Engine) (handle : Nat) : Prop :=
  ∀ txn, engine.txn? handle = some txn →
    txn.readOnly = false ∧ txn.broken = true ∧ engine.writers.head? = some txn

/-- The innermost writer is disused once it is broken. -/
theorem disused_breakTxn (hinnermost : ∀ txn, engine.txn? handle = some txn →
      txn.readOnly = false ∧ engine.writers.head? = some txn) :
    Disused (engine.breakTxn handle) handle := by
  intro found hfound
  cases htxn : engine.txn? handle with
  | none =>
      rw [breakTxn_of_none htxn, htxn] at hfound
      cases hfound
  | some txn =>
      obtain ⟨hwriter, hhead⟩ := hinnermost txn htxn
      have hsame : ({ txn with broken := true } : Txn).handle = txn.handle := rfl
      have hreplaced := txn?_replace_self htxn hsame
      rw [breakTxn_of_some htxn] at hfound ⊢
      obtain rfl := Option.some.inj (hreplaced.symm.trans hfound)
      refine ⟨hwriter, rfl, ?_⟩
      simp [Engine.replace, List.head?_map, hhead]

/-! ## What is refused -/

/-- A disused transaction that the engine has is blocked. -/
theorem Disused.isBlocked (h : Disused engine handle) (htxn : engine.txn? handle = some txn) :
    engine.isBlocked txn = true := by
  simp [Engine.isBlocked, (h txn htxn).2.1]

section

variable {blocked : Bool}

/-- No value is looked up through a blocked transaction. -/
theorem Txn.get_blocked (txn : Txn) (hblocked : blocked = true) (slots : SlotTable) (slot : Nat)
    (key : Bytes) :
    ∃ code, code ≠ Condition.notFound.code ∧
      txn.get slots blocked slot key = (.error code, txn) := by
  have houtcome := txn.get_outcome slots blocked slot key
  generalize txn.get slots blocked slot key = answer at houtcome ⊢
  cases houtcome with
  | unusable => exact ⟨invalid, by decide, rfl⟩
  | blocked => exact ⟨_, by decide, rfl⟩
  | unread _ hopen | nameless _ hopen | missed _ hopen | found _ hopen =>
      cases hblocked.symm.trans hopen

/-- No figures are asked for through a blocked transaction. -/
theorem Txn.stat_blocked (txn : Txn) (hblocked : blocked = true) (slots : SlotTable) (slot : Nat) :
    ∃ code, code ≠ Condition.notFound.code ∧ txn.stat slots blocked slot = (.error code, txn) := by
  have houtcome := txn.stat_outcome slots blocked slot
  generalize txn.stat slots blocked slot = answer at houtcome ⊢
  cases houtcome with
  | unusable => exact ⟨invalid, by decide, rfl⟩
  | blocked => exact ⟨_, by decide, rfl⟩
  | unread _ hopen | answered _ hopen => cases hblocked.symm.trans hopen

/-- No value is stored through a blocked transaction. -/
theorem Txn.put_blocked (txn : Txn) (hblocked : blocked = true) (limit : Nat) (slots : SlotTable)
    (slot : Nat) (key : Bytes) (payload : Payload) (flags : WriteFlags) :
    ∃ code, code ≠ Condition.notFound.code ∧
      txn.put limit slots blocked slot key payload flags = (.error code, txn) := by
  have houtcome := txn.put_outcome limit slots blocked slot key payload flags
  generalize txn.put limit slots blocked slot key payload flags = answer at houtcome ⊢
  cases houtcome with
  | unusable | misflagged => exact ⟨invalid, by decide, rfl⟩
  | reader => exact ⟨denied, by decide, rfl⟩
  | blocked => exact ⟨_, by decide, rfl⟩
  | missized h | unread h | seeded h | first h | unmet h | untouched h | stored h =>
      cases hblocked.symm.trans h.unblocked

/-- Nothing is removed through a blocked transaction. -/
theorem Txn.del_blocked (txn : Txn) (hblocked : blocked = true) (limit : Nat) (slots : SlotTable)
    (slot : Nat) (key : Bytes) (item : Option Bytes) :
    ∃ code, code ≠ Condition.notFound.code ∧
      txn.del limit slots blocked slot key item = (.error code, txn) := by
  have houtcome := txn.del_outcome limit slots blocked slot key item
  generalize txn.del limit slots blocked slot key item = answer at houtcome ⊢
  cases houtcome with
  | unusable => exact ⟨invalid, by decide, rfl⟩
  | reader => exact ⟨denied, by decide, rfl⟩
  | blocked => exact ⟨_, by decide, rfl⟩
  | nameless h | unread h | missed h | unlisted h | untouched h | database h | removed h =>
      cases hblocked.symm.trans h.unblocked

end

/-- A disused transaction drops no database. -/
theorem Disused.drop_refused (h : Disused engine handle) (slot : Nat) (delete : Bool) :
    ∃ code, code ≠ Condition.notFound.code ∧
      engine.drop handle slot delete = (.error code, engine) := by
  have houtcome := engine.drop_outcome handle slot delete
  generalize engine.drop handle slot delete = answer at houtcome ⊢
  cases houtcome with
  | unknown | unusable => exact ⟨invalid, by decide, rfl⟩
  | reader => exact ⟨denied, by decide, rfl⟩
  | outdated => exact ⟨Condition.badDbi.code, by decide, rfl⟩
  | blocked => exact ⟨_, by decide, rfl⟩
  | unread htxn hwritable | dropped htxn hwritable | cleared htxn hwritable =>
      cases (h.isBlocked htxn).symm.trans hwritable.unblocked

/-- A disused transaction opens no database. -/
theorem Disused.openDatabase_refused (h : Disused engine handle) (name : Option Bytes)
    (flags : DbFlags) :
    ∃ code, code ≠ Condition.notFound.code ∧
      engine.openDatabase handle name flags = (.error code, engine) := by
  have houtcome := engine.openDatabase_outcome handle name flags
  generalize engine.openDatabase handle name flags = answer at houtcome ⊢
  cases houtcome with
  | unknown | misflagged => exact ⟨invalid, by decide, rfl⟩
  | blocked => exact ⟨_, by decide, rfl⟩
  | main htxn hunblocked | mainFlags htxn hunblocked | named htxn hunblocked =>
      cases (h.isBlocked htxn).symm.trans hunblocked

/-- Every use of a disused transaction is refused. -/
theorem Roster.refusal_disused (h : Roster engine) (hdisused : Disused engine handle) (use : Use) :
    engine.Spurns handle use (· ≠ Condition.notFound.code) := by
  have hput : ∀ slot key payload flags, ∃ code, code ≠ Condition.notFound.code ∧
      engine.put handle slot key payload flags = (.error code, engine) := fun _ _ _ _ ↦
    h.onTxn_refused (by decide) fun txn htxn ↦ txn.put_blocked (hdisused.isBlocked htxn) ..
  cases use with
  | get slot key =>
      exact spurns_of_eq rfl rfl (h.onTxn_refused (by decide) fun txn htxn ↦
        txn.get_blocked (hdisused.isBlocked htxn) ..)
  | stat slot =>
      exact spurns_of_eq rfl rfl (h.onTxn_refused (by decide) fun txn htxn ↦
        txn.stat_blocked (hdisused.isBlocked htxn) ..)
  | put slot key payload flags => exact spurns_of_eq rfl rfl (hput ..)
  | reserve slot key data flags => exact spurns_reserve (hput ..)
  | del slot key item =>
      exact spurns_of_eq rfl rfl (h.onTxn_refused (by decide) fun txn htxn ↦
        txn.del_blocked (hdisused.isBlocked htxn) ..)
  | drop slot delete => exact spurns_of_eq rfl rfl (hdisused.drop_refused ..)
  | openDatabase name flags => exact spurns_of_eq rfl rfl (hdisused.openDatabase_refused ..)

/-- The commit of a disused transaction is refused. -/
theorem commit_disused (hdisused : Disused engine handle) :
    ∃ code, (engine.commit handle).1 = .error code := by
  unfold commit
  split
  · exact ⟨_, rfl⟩
  rename_i txn htxn
  rw [if_neg (by simp [(hdisused txn htxn).1])]
  split
  · exact ⟨_, rfl⟩
  rename_i innermost outer hwriters
  split
  · rename_i hhandle
    have hbroken := (hdisused innermost (by simp [txn?, hwriters, hhandle])).2.1
    unfold commitWriter
    rw [hbroken]
    split <;> exact ⟨_, rfl⟩
  · exact ⟨_, rfl⟩

/-- None begins in a disused transaction. -/
theorem begin_disused (hdisused : Disused engine handle) (flags : TxnFlags) (thread : Nat) :
    ∃ code, (engine.begin (some handle) flags thread).1 = .error code := by
  unfold begin
  split
  · exact ⟨_, rfl⟩
  dsimp only
  unfold beginNested
  split
  · exact ⟨_, rfl⟩
  rename_i txn htxn
  rw [(hdisused txn htxn).1, hdisused.isBlocked htxn, if_neg Bool.false_ne_true, Bool.or_true,
    if_pos rfl]
  exact ⟨_, rfl⟩

/-! ## Nothing mends it -/

/-- The innermost writer is not among the other transactions. -/
theorem Roster.innermost_ne (h : Roster engine) {rest : List Txn}
    (hwriters : engine.writers = txn :: rest) {other : Txn}
    (hother : other ∈ rest ++ engine.reading) : other.handle ≠ txn.handle := by
  have hnodup := h.nodup
  rw [hwriters, List.cons_append, List.map_cons] at hnodup
  exact fun hsame ↦ (List.nodup_cons.mp hnodup).1 (List.mem_map.mpr ⟨other, hother, hsame⟩)

namespace Disused

/-- A step that only takes transactions away, or adds others, as long as the innermost writer is not
covered by another. -/
theorem of_kept (h : Disused engine handle) (hroster : Roster engine)
    (hkept : ∀ txn ∈ after.writers ++ after.reading, txn.handle = handle →
      txn ∈ engine.writers ++ engine.reading)
    (hhead : ∀ txn rest, engine.txn? handle = some txn → engine.writers = txn :: rest →
      txn ∈ after.writers ++ after.reading → after.writers.head? = some txn) :
    Disused after handle := by
  intro txn htxn
  have hfound := hroster.txn?_handle (hkept txn (mem_of_txn? htxn) (handle_of_txn? htxn))
  rw [handle_of_txn? htxn] at hfound
  obtain ⟨hwriter, hbroken, hinnermost⟩ := h txn hfound
  obtain ⟨rest, hrest⟩ := List.head?_eq_some_iff.mp hinnermost
  exact ⟨hwriter, hbroken, hhead txn rest hfound hrest (mem_of_txn? htxn)⟩

/-- Readers that end are no concern of the writers. -/
theorem of_writers (h : Disused engine handle) (hroster : Roster engine)
    (hwriters : after.writers = engine.writers) (hreading : after.reading ⊆ engine.reading) :
    Disused after handle := by
  refine h.of_kept hroster (fun txn hmem _ ↦ ?_) fun txn rest _ hrest _ ↦ ?_
  · rw [hwriters] at hmem
    exact (List.append_subset.mpr ⟨List.subset_append_left _ _,
      List.Subset.trans hreading (List.subset_append_right _ _)⟩) hmem
  · rw [hwriters, hrest]
    rfl

/-- A transaction that is replaced by another of the same handle, which is broken if it was. -/
theorem replace {other : Nat} (h : Disused engine handle) (htxn : engine.txn? other = some txn)
    (hhandle : txn'.handle = txn.handle) (hreadOnly : txn'.readOnly = txn.readOnly)
    (hbroken : other = handle → txn.broken = true → txn'.broken = true) :
    Disused (engine.replace txn') handle := by
  intro found hfound
  rw [txn?_replace] at hfound
  obtain ⟨before, hbefore, rfl⟩ := Option.map_eq_some_iff.mp hfound
  obtain ⟨hwriter, hworn, hinnermost⟩ := h before hbefore
  refine ⟨?_, ?_, by simp [Engine.replace, List.head?_map, hinnermost]⟩
  all_goals split
  · rename_i hsame
    obtain rfl : other = handle := (handle_of_txn? htxn).symm.trans
      (hhandle.symm.trans (hsame.symm.trans (handle_of_txn? hbefore)))
    obtain rfl := Option.some.inj (hbefore.symm.trans htxn)
    exact hreadOnly.trans hwriter
  · exact hwriter
  · rename_i hsame
    obtain rfl : other = handle := (handle_of_txn? htxn).symm.trans
      (hhandle.symm.trans (hsame.symm.trans (handle_of_txn? hbefore)))
    obtain rfl := Option.some.inj (hbefore.symm.trans htxn)
    exact hbroken rfl hworn
  · exact hworn

/-- A use of any transaction. -/
theorem use (h : Disused engine handle) (hroster : Roster engine) (other : Nat) (use : Use) :
    Disused (engine.use other use) handle := by
  by_cases hother : other = handle
  · subst hother
    obtain ⟨code, -, -, hsame⟩ := hroster.refusal_disused h use
    rwa [hsame]
  have hreplace {before : Txn} (htxn : engine.txn? other = some before) {base : Txn}
      (hkin : Txn.Kin before base) : Disused (engine.replace base) handle :=
    h.replace htxn hkin.handle hkin.readOnly fun hsame ↦ absurd hsame hother
  have hused := engine.use_used other use
  generalize engine.use other use = after at hused ⊢
  cases hused with
  | same => exact h
  | through slot htxn huses => exact hreplace htxn huses.kin
  | mainFlags flags htxn => exact h.replace htxn rfl rfl fun hsame ↦ absurd hsame hother
  | @occupied index name before base content htxn hoccupies =>
      have hkin := hoccupies.records.kin
      exact h.replace htxn hkin.handle hkin.readOnly fun hsame ↦ absurd hsame hother
  | dropped htxn _ _ huses => exact hreplace htxn (huses.kin.trans (Txn.kin_without ..))

/-- The breaking of any transaction. -/
theorem breakTxn (h : Disused engine handle) (other : Nat) :
    Disused (engine.breakTxn other) handle := by
  cases htxn : engine.txn? other with
  | none => rwa [breakTxn_of_none htxn]
  | some txn =>
      rw [breakTxn_of_some htxn]
      exact h.replace htxn rfl rfl fun _ _ ↦ rfl

/-- The abort of any transaction. -/
theorem abort (h : Disused engine handle) (hroster : Roster engine) (other : Nat) :
    Disused (engine.abort other) handle := by
  have haborted := (abort_cases hroster other).1
  generalize engine.abort other = after at haborted ⊢
  cases haborted with
  | unknown _ hsame => rwa [hsame]
  | reader _ _ hwriters hreading =>
      exact h.of_writers hroster hwriters (hreading ▸ List.filter_subset_self _)
  | @writer inner outer txn htxn hwriter hsplit hinner hwriters hreading =>
      have houter : after.writers ++ after.reading ⊆ engine.writers ++ engine.reading := by
        rw [hwriters, hreading, hsplit]
        intro other hmem
        simp only [List.mem_append, List.mem_cons] at hmem ⊢
        tauto
      refine h.of_kept hroster (fun txn hmem _ ↦ houter hmem) fun first rest _ hrest hmem ↦ ?_
      -- the innermost writer has ended, whether or not the others have ended with it
      rw [hwriters, hreading] at hmem
      suffices hleft : first ∈ rest ++ engine.reading from
        absurd rfl (hroster.innermost_ne hrest hleft)
      have houter : outer ⊆ rest := by
        cases inner with
        | nil => exact (List.cons.inj (hrest.symm.trans hsplit)).2 ▸ List.Subset.refl _
        | cons _ inner =>
            rw [(List.cons.inj (hrest.symm.trans hsplit)).2]
            exact List.Subset.trans (List.subset_cons_self _ _) (List.subset_append_right _ _)
      exact List.append_subset.mpr ⟨List.Subset.trans houter (List.subset_append_left _ _),
        List.subset_append_right _ _⟩ hmem

/-- A successful commit. -/
theorem of_committed (h : Disused engine handle) (hroster : Roster engine) {other : Nat}
    (hcommitted : Committed engine other after) : Disused after handle := by
  cases hcommitted with
  | @reader txn htxn hreader =>
      obtain ⟨hwriters, hreading, -⟩ := endReader_cases engine txn true
      exact h.of_writers hroster hwriters (hreading ▸ List.filter_subset_self _)
  | @nested child parent rest hwriters _ =>
      -- what is left of the child has the handle of the parent, which has not been the innermost
      have hchild : ∀ other ∈ parent :: rest ++ engine.reading, other.handle ≠ child.handle :=
        fun _ ↦ hroster.innermost_ne hwriters
      have hparent : parent.handle ≠ handle := by
        intro hsame
        have hmem : parent ∈ engine.writers ++ engine.reading := by simp [hwriters]
        have hfound := hroster.txn?_handle hmem
        rw [hsame] at hfound
        have hinnermost := (h parent hfound).2.2
        rw [hwriters] at hinnermost
        obtain rfl := Option.some.inj hinnermost
        exact hchild child (by simp) rfl
      refine h.of_kept hroster (fun txn hmem hhandle ↦ ?_) fun first outer _ hfirst hmem ↦ ?_
      · rcases List.mem_cons.mp hmem with rfl | hmem
        · exact absurd hhandle hparent
        · rw [hwriters]
          exact List.mem_cons_of_mem _ (List.mem_cons_of_mem _ hmem)
      · obtain ⟨rfl, rfl⟩ := List.cons.inj (hfirst.symm.trans hwriters)
        rcases List.mem_cons.mp hmem with hsame | hmem
        · exact absurd (congrArg Txn.handle hsame).symm (hchild parent (by simp))
        · exact absurd rfl (hchild first (List.mem_cons_of_mem _ hmem))
  | @root txn recorded image hwriters _ _ =>
      refine h.of_kept hroster (fun other hmem _ ↦ List.mem_append_right _ hmem)
        fun first outer _ hfirst hmem ↦ ?_
      exact absurd rfl (hroster.innermost_ne hfirst (List.mem_append_right _ hmem))

/-- The commit of any transaction. -/
theorem commit (h : Disused engine handle) (hroster : Roster engine) (other : Nat) :
    Disused (engine.commit other).2 handle := by
  rcases commit_cases hroster other with ⟨after, hdone, hcommitted⟩ | ⟨code, middle, hrefused, -⟩
  · rw [hdone]
    exact h.of_committed hroster hcommitted
  · generalize middle.abort other = after at hrefused
    rw [hrefused]
    unfold Engine.commit at hrefused
    split at hrefused
    · cases hrefused
      exact h
    split at hrefused
    · cases hrefused
    split at hrefused
    · cases hrefused
      exact h
    rename_i innermost outer hwriters
    split at hrefused
    · cases outer with
      | nil =>
          rw [hroster.commitWriter_root hwriters hrefused]
          exact h.abort hroster _
      | cons parent rest =>
          rw [hroster.commitWriter_nested hwriters hrefused]
          exact (h.abort hroster _).breakTxn _
    · cases hrefused
      exact h.abort hroster other

/-- The begin of a transaction, which no writer is outside of unless it is nested. -/
theorem of_began (h : Disused engine handle) (hroster : Roster engine)
    (hlt : handle < engine.nextHandle) {parent : Option Nat} {flags : TxnFlags} {native : Nat}
    (hbegan : Began engine parent flags native after)
    (hroot : parent = none → flags.contains TxnFlags.readOnly = false → engine.writers = []) :
    Disused after handle := by
  cases hbegan with
  | reading readers reader =>
      refine h.of_kept hroster (fun txn hmem hhandle ↦ ?_) fun first outer _ hfirst _ ↦ ?_
      · rcases List.mem_append.mp hmem with hmem | hmem
        · exact List.mem_append_left _ hmem
        rcases List.mem_cons.mp hmem with rfl | hmem
        · exact absurd hhandle.symm (Nat.ne_of_lt hlt)
        · exact List.mem_append_right _ hmem
      · exact congrArg List.head? hfirst
  | root hparent hflags =>
      refine h.of_kept hroster (fun txn hmem hhandle ↦ ?_) fun first outer _ hfirst _ ↦ ?_
      · rcases List.mem_cons.mp hmem with rfl | hmem
        · exact absurd hhandle.symm (Nat.ne_of_lt hlt)
        · exact hmem
      · cases (hroot hparent hflags).symm.trans hfirst
  | @nested outer txn hparent hflags htxn hwriter hblocked =>
      refine h.of_kept hroster (fun txn hmem hhandle ↦ ?_) fun first rest hfound hfirst _ ↦ ?_
      · rcases List.mem_cons.mp hmem with rfl | hmem
        · exact absurd hhandle.symm (Nat.ne_of_lt hlt)
        · exact hmem
      · -- none begins in the innermost writer, which is broken, nor in one further out
        obtain ⟨inner, hinner⟩ := hroster.innermost htxn hwriter hblocked
        obtain ⟨rfl, -⟩ := List.cons.inj (hfirst.symm.trans hinner)
        rw [Engine.isBlocked, (h first hfound).2.1] at hblocked
        cases hblocked

/-- The reset of any transaction. -/
theorem reset (h : Disused engine handle) (other : Nat) : Disused (engine.reset other) handle := by
  have hreset := reset_cases engine other
  generalize engine.reset other = after at hreset ⊢
  cases hreset with
  | same => exact h
  | idle readers reader htxn => exact h.replace htxn rfl rfl fun _ hbroken ↦ hbroken

/-- The renewal of any transaction. -/
theorem renew (h : Disused engine handle) (other thread : Nat) :
    Disused (engine.renew other thread).2 handle := by
  rcases renew_cases engine other thread with ⟨code, hrefused⟩ | ⟨after, hdone, hrenewed⟩
  · rwa [hrefused]
  · rw [hdone]
    cases hrenewed with
    | mk readers reader htxn => exact h.replace htxn rfl rfl fun _ hbroken ↦ hbroken

/-- Changes of reader slots. -/
theorem aside (h : Disused engine handle) (haside : Aside engine after) :
    Disused after handle := by
  obtain ⟨readers, next, -, rfl⟩ := haside
  exact h

end Disused

end MappedStore.Engine
