import MappedStore.Proofs.Engine.Codes

/-!
# Codes of failures

Zero is the code of success. No failure of the engine has it, so that a call has failed exactly if
its code is another one (`Engine.Proper`).
-/

namespace MappedStore

/-- No condition has the code of success. -/
theorem Condition.code_ne_zero (condition : Condition) : condition.code ≠ 0 := by
  cases condition <;> decide

namespace Files.Tree

variable {tree : Tree} {path : Bytes} {errno : Errno}

/-- Following a path fails with a proper system error. -/
theorem walk_error {location : Location} {names : List Bytes}
    (h : walk tree location names = .error errno) : Code.system errno ≠ 0 := by
  fun_induction walk tree location names
  case case1 | case7 => simp at h
  case case2 ih | case3 ih | case6 ih => exact ih h
  case case4 | case5 | case8 =>
    obtain rfl := Except.error.inj h
    decide

/-- Finding what a path names fails with a proper system error. -/
theorem locate_error (h : tree.locate path = .error errno) : Code.system errno ≠ 0 := by
  unfold locate at h
  split at h
  · obtain rfl := Except.error.inj h
    decide
  split at h
  · obtain rfl := Except.error.inj h
    decide
  split at h
  · rename_i hwalk
    obtain rfl := Except.error.inj h
    exact walk_error hwalk
  split at h
  · simp at h
  · obtain rfl := Except.error.inj h
    decide

/-- Finding the place that a path names fails with a proper system error. -/
theorem target_error (h : tree.target path = .error errno) : Code.system errno ≠ 0 := by
  unfold target at h
  split at h
  · obtain rfl := Except.error.inj h
    decide
  split at h
  · obtain rfl := Except.error.inj h
    decide
  split at h
  · rename_i hwalk
    obtain rfl := Except.error.inj h
    exact walk_error hwalk
  split at h
  · simp at h
  split at h
  · simp at h
  split at h
  · simp at h
  split at h
  · obtain rfl := Except.error.inj h
    decide
  · simp at h

/-- Opening or creating a file fails with a proper system error. -/
theorem openOrCreate_error {mode : Nat} {after : Tree}
    (h : tree.openOrCreate path mode = (.error errno, after)) : Code.system errno ≠ 0 := by
  unfold openOrCreate at h
  split at h
  · rename_i htarget
    obtain rfl := Except.error.inj (congrArg Prod.fst h)
    exact target_error htarget
  · obtain rfl := Except.error.inj (congrArg Prod.fst h)
    decide
  · have hfst := congrArg Prod.fst h
    dsimp only at hfst
    split at hfst
    · obtain rfl := Except.error.inj hfst
      decide
    · simp at hfst
  · split at h
    · obtain rfl := Except.error.inj (congrArg Prod.fst h)
      decide
    · simp at h

/-- Creating a file fails with a proper system error. -/
theorem createNew_error {file : File} {after : Tree}
    (h : tree.createNew path file = (.error errno, after)) : Code.system errno ≠ 0 := by
  unfold createNew at h
  split at h
  · rename_i htarget
    obtain rfl := Except.error.inj (congrArg Prod.fst h)
    exact target_error htarget
  · obtain rfl := Except.error.inj (congrArg Prod.fst h)
    decide
  · cases h

end Files.Tree

namespace Engine

open Files (Errno File Location Tree)

variable {tree files : Tree} {path : Bytes} {flags : EnvFlags} {config : Config} {code : Code}

/-- Opening the lock file fails with a proper system error. -/
theorem openLock_error {mode readers : Nat} {errno : Errno}
    (h : openLock tree path mode readers = (.error errno, files)) : Code.system errno ≠ 0 := by
  unfold openLock at h
  split at h
  · rename_i hopen
    obtain rfl := Except.error.inj (congrArg Prod.fst h)
    exact Files.Tree.openOrCreate_error hopen
  · split at h <;> simp at h

/-- Making the map fails with a proper system error. -/
theorem mapFault_ne_zero {size : Nat} {errno : Errno} (h : mapFault flags size = some errno) :
    Code.system errno ≠ 0 := by
  unfold mapFault at h
  split at h
  · obtain rfl := Option.some.inj h
    decide
  split at h
  · obtain rfl := Option.some.inj h
    decide
  · simp at h

/-- Starting on a data file fails with a proper code. -/
theorem start_error {location : Location} {file : File} {capacity : Nat}
    (h : start tree location file config flags capacity = (.error code, files)) : code ≠ 0 := by
  unfold start at h
  split at h
  · obtain rfl := Except.error.inj (congrArg Prod.fst h)
    exact Condition.code_ne_zero _
  on_goal 2 =>
    split at h
    · obtain rfl := Except.error.inj (congrArg Prod.fst h)
      decide
  -- What is left are the two ways to size the map, for an image that was found and for a new one.
  all_goals
    have hresult := congrArg Prod.fst h
    dsimp only at hresult
    split at hresult
    · rename_i hfault
      obtain rfl := Except.error.inj hresult
      exact mapFault_ne_zero hfault
    · simp at hresult

/-- Taking the lock file, if there is to be one, fails with a proper system error. -/
theorem locked_error {locked : Except Errno Nat × Tree} {mode readers : Nat} {errno : Errno}
    (hlock : (if flags.contains EnvFlags.noLock then (.ok readers, tree)
      else openLock tree (lockPath path flags) mode readers) = locked)
    (h : locked.1 = .error errno) : Code.system errno ≠ 0 := by
  subst hlock
  split at h
  · simp at h
  · exact openLock_error (Prod.ext h rfl)

/-- Opening an environment for reading fails with a proper code. -/
theorem openReadOnly_error (h : openReadOnly tree path flags config = (.error code, files)) :
    code ≠ 0 := by
  unfold openReadOnly at h
  split at h
  · rename_i hlocate
    obtain rfl := Except.error.inj (congrArg Prod.fst h)
    exact Files.Tree.locate_error hlocate
  dsimp only at h
  generalize hlock : (if flags.contains EnvFlags.noLock then (.ok config.maxReaders.toNat, tree)
    else openLock tree (lockPath path flags) (Files.masked config.mode.toNat)
      config.maxReaders.toNat) = locked at h
  obtain ⟨_ | capacity, middle⟩ := locked
  · obtain rfl := Except.error.inj (congrArg Prod.fst h)
    exact locked_error hlock rfl
  dsimp only at h
  split at h
  · rename_i hlocked _
    simp at hlocked
  · obtain rfl := Except.error.inj (congrArg Prod.fst h)
    decide
  · exact start_error h

/-- Opening an environment for reading and writing fails with a proper code. -/
theorem openWritable_error (h : openWritable tree path flags config = (.error code, files)) :
    code ≠ 0 := by
  unfold openWritable at h
  dsimp only at h
  generalize hlock : (if flags.contains EnvFlags.noLock then (.ok config.maxReaders.toNat, tree)
    else openLock tree (lockPath path flags) (Files.masked config.mode.toNat)
      config.maxReaders.toNat) = locked at h
  split at h
  · rename_i hfailed
    obtain rfl := Except.error.inj (congrArg Prod.fst h)
    exact locked_error hlock hfailed
  split at h
  · rename_i hopen
    obtain rfl := Except.error.inj (congrArg Prod.fst h)
    exact Files.Tree.openOrCreate_error hopen
  · exact start_error h

/-- Opening an environment fails with a proper code. -/
theorem openAt_error (h : openAt tree path flags config = (.error code, files)) : code ≠ 0 := by
  unfold openAt at h
  split at h
  · obtain rfl := Except.error.inj (congrArg Prod.fst h)
    decide
  split at h
  · exact openReadOnly_error h
  · exact openWritable_error h

/-! ## Transactions -/

variable {α σ : Type} {engine : Engine} {txn : Txn} {handle slot : Nat}

/-- An answer that does not refuse with the code of success. -/
abbrev Proper (answer : Answer σ α) : Prop := Avoids (· = 0) answer

/-- The code of a refusal. -/
theorem Proper.ne_zero {answer : Answer σ α} (h : Proper answer) (hcode : answer.1 = .error code) :
    code ≠ 0 :=
  h.not_bad code hcode

/-- No condition has the code of success, and neither has the refusal of a write. -/
theorem selective_zero : Selective (· = 0) where
  condition := fun condition _ ↦ condition.code_ne_zero
  denied := by decide

/-- Whatever a slot is like, no code about it is that of success. -/
theorem suits_zero (slots : SlotTable) (slot : Nat) (txn : Txn) :
    txn.Suits (· = 0) slots slot where
  usable := fun h ↦ absurd h (by decide)
  current := fun h ↦ absurd h (by decide)

/-- A refusal with a condition. -/
theorem proper_refuse (condition : Condition) (state : σ) :
    Proper (refuse condition state : Answer σ α) := by
  constructor
  rintro code ⟨⟩
  exact condition.code_ne_zero

/-- A refusal for an argument that means nothing to the engine. -/
theorem proper_invalid (state : σ) :
    Proper (refuseSystem SystemText.invalidArgument state : Answer σ α) :=
  avoids_error (by decide) state

/-- An operation on a transaction that may be unknown. -/
theorem proper_onTxn {operation : Txn → Answer Txn α} (h : ∀ txn, Proper (operation txn)) :
    Proper (engine.onTxn handle operation) :=
  avoids_onTxn (fun _ ↦ by decide) fun txn _ ↦ h txn

/-- A question for figures. -/
theorem proper_statOf (engine : Engine) (handle slot : Nat) : Proper (engine.statOf handle slot) :=
  proper_onTxn fun txn ↦ Txn.avoids_stat selective_zero (suits_zero _ slot txn)

/-- A write of a value. -/
theorem proper_put (engine : Engine) (handle slot : Nat) (key : Bytes) (payload : Payload)
    (flags : WriteFlags) : Proper (engine.put handle slot key payload flags) :=
  proper_onTxn fun txn ↦ Txn.avoids_put selective_zero (suits_zero _ slot txn)
    fun h ↦ absurd h (by decide)

/-- The removal of a named database, or of its entries. -/
theorem proper_drop (engine : Engine) (handle slot : Nat) (delete : Bool) :
    Proper (engine.drop handle slot delete) :=
  avoids_drop selective_zero (fun _ ↦ by decide) (fun txn _ ↦ suits_zero _ slot txn) delete

/-- The record of a new database. -/
theorem proper_createRecord (engine : Engine) (txn : Txn) (name : Bytes) (flags : DbFlags) :
    Proper (engine.createRecord txn name flags) := by
  unfold createRecord
  dsimp only
  split
  · exact avoids_denied selective_zero _
  split
  · exact proper_refuse ..
  split
  · rename_i hprepared
    refine Avoids.error (?_ : Proper _) (congrArg Prod.fst hprepared)
    split
    · exact Txn.avoids_newRoot selective_zero ..
    · exact Txn.avoids_touchMain selective_zero ..
  · exact avoids_done ..

/-- An open of a database. -/
theorem proper_openDatabase (engine : Engine) (handle : Nat) (name : Option Bytes)
    (flags : DbFlags) : Proper (engine.openDatabase handle name flags) := by
  have houtcome := engine.openDatabase_outcome handle name flags
  generalize engine.openDatabase handle name flags = answer at houtcome ⊢
  cases houtcome with
  | unknown | misflagged => exact proper_invalid _
  | blocked => exact proper_refuse ..
  | main | mainFlags => exact avoids_done ..
  | named _ _ hnamed =>
      cases hnamed with
      | known => exact avoids_done ..
      | refused => exact proper_refuse ..
      | unrecorded _ _ _ hcreate =>
          exact (proper_createRecord ..).error (congrArg Prod.fst hcreate)
      | found | created => exact avoids_done ..

/-- The begin of a reader. -/
theorem proper_beginRead (engine : Engine) (thread : Nat) : Proper (engine.beginRead thread) := by
  unfold beginRead
  split
  · exact proper_refuse ..
  · exact avoids_done ..

/-- The begin of a transaction. -/
theorem proper_begin (engine : Engine) (parent : Option Nat) (flags : TxnFlags) (thread : Nat) :
    Proper (engine.begin parent flags thread) := by
  have hroot : Proper engine.beginWrite := by
    unfold beginWrite
    split
    · exact proper_refuse ..
    · exact avoids_done ..
  have hnested : ∀ outer, Proper (engine.beginNested outer flags) := by
    intro outer
    unfold beginNested
    split
    · exact proper_refuse ..
    split
    · exact proper_invalid _
    split
    · exact proper_refuse ..
    · exact avoids_done ..
  unfold Engine.begin
  split
  · exact avoids_denied selective_zero _
  split
  · exact hnested _
  split
  · exact engine.proper_beginRead thread
  · exact hroot

/-- Recording the tables of dirty slots. -/
theorem proper_record (slots : SlotTable) (limit : Nat) (txn : Txn) (todo : List Nat) :
    Proper (record slots limit txn todo) := by
  induction todo generalizing txn with
  | nil => exact avoids_done ..
  | cons slot rest ih =>
      unfold record
      split
      · exact ih txn
      split
      · exact ih txn
      split
      · exact proper_refuse ..
      dsimp only
      split
      · exact proper_refuse ..
      split
      · rename_i htouch
        exact (Txn.avoids_touchMain selective_zero ..).error (congrArg Prod.fst htouch)
      · exact ih _

/-- Writing what a root transaction leaves to be written. -/
theorem proper_flush (engine : Engine) (txn : Txn) : Proper (engine.flush txn) := by
  unfold flush
  split
  · rename_i hrecord
    exact (proper_record ..).error (congrArg Prod.fst hrecord)
  · exact Txn.avoids_claim selective_zero ..

/-- The commit of a transaction. -/
theorem proper_commit (engine : Engine) (handle : Nat) : Proper (engine.commit handle) := by
  have hwriter : ∀ innermost outer, Proper (engine.commitWriter innermost outer) := by
    intro innermost outer
    unfold commitWriter
    split
    · split
      · exact proper_refuse ..
      · exact avoids_done ..
    split
    · exact proper_refuse ..
    split
    · exact avoids_done ..
    split
    · rename_i hflush
      exact (engine.proper_flush innermost).error (congrArg Prod.fst hflush)
    · exact avoids_done ..
  unfold commit
  split
  · exact proper_invalid _
  split
  · exact avoids_done ..
  split
  · exact proper_refuse ..
  split
  · exact hwriter _ _
  · exact proper_refuse ..

/-- A renewal. -/
theorem proper_renew (engine : Engine) (handle thread : Nat) :
    Proper (engine.renew handle thread) := by
  unfold renew
  split
  · exact proper_invalid _
  split
  · exact proper_invalid _
  split
  · exact proper_refuse ..
  · exact avoids_done ..

/-- A copy fails with a proper code. -/
theorem copy_error {path : Bytes} {flags : CopyFlags} {thread : Nat} {left : Engine × Tree}
    (h : engine.copy tree path flags thread = (.error code, left)) : code ≠ 0 := by
  unfold copy at h
  dsimp only at h
  split at h
  · rename_i hcreate
    cases h
    exact Files.Tree.createNew_error hcreate
  split at h
  · rename_i hbegin
    cases h
    exact (engine.proper_beginRead thread).ne_zero (congrArg Prod.fst hbegin)
  · cases h

end Engine

end MappedStore
