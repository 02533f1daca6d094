import MappedStore.Proofs.Engine.Levels

/-!
# Operations on nested writers

What the operations of the engine make of a stack of contents, and what they answer. All of them go
through the innermost writer: reads leave the stack, and writes change the top (`Levels.put`,
`Levels.del`, `Levels.clear`).
-/

namespace MappedStore.Engine

variable {setting : Setting} {engine result : Engine} {handle slot : Nat} {key : Bytes}
  {txn after : Txn} {top contents : Contents} {rest : List Contents}

/-! ## Transactions that can write -/

/-- A value is only stored through a writer that is not blocked. -/
theorem Txn.unblocked_of_put {limit : Nat} {slots : SlotTable} {blocked : Bool} {payload : Payload}
    {flags : WriteFlags} (h : txn.put limit slots blocked slot key payload flags = (.ok (), after)) :
    txn.readOnly = false ∧ blocked = false := by
  have houtcome := txn.put_outcome limit slots blocked slot key payload flags
  rw [h] at houtcome
  cases houtcome with
  | seeded hwritable | first hwritable | stored hwritable =>
      exact ⟨hwritable.writer, hwritable.unblocked⟩

/-- A key is only removed, or missed, through a writer that is not blocked. -/
theorem Txn.unblocked_of_del {limit : Nat} {slots : SlotTable} {blocked : Bool} {item : Option Bytes}
    {answer : Except Code Unit} (h : txn.del limit slots blocked slot key item = (answer, after))
    (hanswer : answer = .ok () ∨ answer = .error Condition.notFound.code) :
    txn.readOnly = false ∧ blocked = false := by
  have houtcome := txn.del_outcome limit slots blocked slot key item
  rw [h] at houtcome
  cases houtcome with
  | unusable | reader | blocked =>
      simp [Code.system, SystemText.invalidArgument, SystemText.denied, Condition.code, Code.notFound,
        Code.badTxn] at hanswer
  | nameless hwritable | unread hwritable | missed hwritable | unlisted hwritable
  | untouched hwritable | database hwritable | removed hwritable =>
      exact ⟨hwritable.writer, hwritable.unblocked⟩

/-- An operation that is carried out goes through the transaction with the handle. -/
theorem onTxn_eq {α : Type} {operation : Txn → Answer Txn α} {answer : Except Code α}
    (h : engine.onTxn handle operation = (answer, result))
    (hanswer : answer ≠ .error (.system SystemText.invalidArgument)) :
    ∃ txn after, engine.txn? handle = some txn ∧ operation txn = (answer, after) ∧
      result = engine.replace after := by
  unfold onTxn at h
  cases htxn : engine.txn? handle with
  | none =>
      rw [htxn] at h
      exact absurd (Prod.mk.inj h).1.symm hanswer
  | some txn =>
      cases hoperation : operation txn with
      | mk answer' after =>
          simp only [htxn, hoperation, Prod.mk.injEq] at h
          obtain ⟨rfl, rfl⟩ := h
          exact ⟨txn, after, rfl, hoperation, rfl⟩

/-! ## The innermost writer -/

/-- An operation went through the innermost writer, and the stack is another. -/
structure Turned (setting : Setting) (engine : Engine) (handle : Nat) (stack : List Contents)
    (result : Engine) : Prop where
  innermost : engine.writers.head?.map (·.handle) = some handle
  levels : Levels setting result stack
  handles : result.writers.map (·.handle) = engine.writers.map (·.handle)

/-- A writer that is not blocked holds the top of the stack. -/
theorem Levels.keeps_top (h : Levels setting engine (top :: rest)) (hroster : Roster engine)
    (htxn : engine.txn? handle = some txn) (hwriter : txn.readOnly = false)
    (hblocked : engine.isBlocked txn = false) : txn.Keeps setting top := by
  obtain ⟨outer, hwriters⟩ := hroster.innermost htxn hwriter hblocked
  obtain ⟨writer, outer', hwriters', hkeeps, -⟩ := h.innermost
  obtain ⟨rfl, -⟩ := List.cons.inj (hwriters.symm.trans hwriters')
  exact hkeeps

/-- A use of a writer that is not blocked changes the top of the stack to what it then holds. -/
theorem Levels.turned (h : Levels setting engine (top :: rest)) (hroster : Roster engine)
    (htxn : engine.txn? handle = some txn) (hwriter : txn.readOnly = false)
    (hblocked : engine.isBlocked txn = false) (huses : Txn.Uses engine.slots slot txn after)
    (hkeeps : after.Keeps setting contents) :
    Turned setting engine handle (contents :: rest) (engine.replace after) := by
  obtain ⟨outer, hwriters⟩ := hroster.innermost htxn hwriter hblocked
  have hhandle := huses.kin.handle
  refine ⟨by simp [hwriters, handle_of_txn? htxn],
    h.used hroster hwriters (h.slots ▸ huses) hkeeps, ?_⟩
  rw [hroster.replace_innermost hwriters hhandle, hwriters, List.map_cons, List.map_cons, hhandle]

/-! ## Reads -/

/-- A read of a value leaves the stack. -/
theorem Levels.get (h : Levels setting engine (top :: rest)) (hroster : Roster engine)
    (htxn : engine.txn? handle = some txn) (hwriter : txn.readOnly = false)
    (hblocked : engine.isBlocked txn = false) :
    Turned setting engine handle (top :: rest) (engine.get handle slot key).2 := by
  have hkeeps := h.keeps_top hroster htxn hwriter hblocked
  have hresult : (engine.get handle slot key).2
      = engine.replace (txn.get engine.slots (engine.isBlocked txn) slot key).2 := by
    simp [Engine.get, onTxn, htxn]
  rw [hresult]
  exact h.turned hroster htxn hwriter hblocked (txn.uses_get _ _ slot key)
    (hkeeps.peeked (h.slots ▸ txn.peeked_get _ _ slot key))

/-- A question for figures leaves the stack. -/
theorem Levels.stat (h : Levels setting engine (top :: rest)) (hroster : Roster engine)
    (htxn : engine.txn? handle = some txn) (hwriter : txn.readOnly = false)
    (hblocked : engine.isBlocked txn = false) :
    Turned setting engine handle (top :: rest) (engine.statOf handle slot).2 := by
  have hkeeps := h.keeps_top hroster htxn hwriter hblocked
  have hresult : (engine.statOf handle slot).2
      = engine.replace (txn.stat engine.slots (engine.isBlocked txn) slot).2 := by
    simp [Engine.statOf, onTxn, htxn]
  rw [hresult]
  exact h.turned hroster htxn hwriter hblocked (txn.uses_stat _ _ slot)
    (hkeeps.peeked (h.slots ▸ txn.peeked_stat _ _ slot))

/-! ## Writes -/

/-- A stored value is put on the top of the stack. -/
theorem Levels.put (h : Levels setting engine (top :: rest)) (hroster : Roster engine)
    (hseparate : setting.Separate) (hused : setting.used slot) {payload : Payload}
    (hput : engine.put handle slot key payload .empty = (.ok (), result)) :
    Turned setting engine handle
      (Function.update top slot (Function.update (top slot) key (some payload.content)) :: rest)
      result := by
  obtain ⟨txn, after, htxn, hstored, rfl⟩ := onTxn_eq hput (by simp)
  obtain ⟨hwriter, hblocked⟩ := Txn.unblocked_of_put hstored
  have hkeeps := h.keeps_top hroster htxn hwriter hblocked
  have huses := (txn.uses_put engine.pageLimit engine.slots (engine.isBlocked txn) slot key payload
    .empty).1
  rw [hstored] at huses
  exact h.turned hroster htxn hwriter hblocked huses
    (hkeeps.put hseparate hused (h.slots ▸ hstored)).2

/-- A removed key goes from the top of the stack. It was there if the engine says so. -/
theorem Levels.del (h : Levels setting engine (top :: rest)) (hroster : Roster engine)
    (hseparate : setting.Separate) (hused : setting.used slot) {answer : Except Code Unit}
    (hdel : engine.del handle slot key none = (answer, result))
    (hanswer : answer = .ok () ∨ answer = .error Condition.notFound.code) :
    Turned setting engine handle
        (Function.update top slot (Function.update (top slot) key none) :: rest) result ∧
      (answer = .ok () ↔ top slot key ≠ none) := by
  have hproper : answer ≠ .error (.system SystemText.invalidArgument) := by
    rcases hanswer with rfl | rfl
    · simp
    · simp [Code.system, SystemText.invalidArgument, Condition.code, Code.notFound]
  obtain ⟨txn, after, htxn, hremoved, rfl⟩ := onTxn_eq hdel hproper
  obtain ⟨hwriter, hblocked⟩ := Txn.unblocked_of_del hremoved hanswer
  have hkeeps := h.keeps_top hroster htxn hwriter hblocked
  have huses := txn.uses_del engine.pageLimit engine.slots (engine.isBlocked txn) slot key none
  rw [hremoved] at huses
  rcases hanswer with rfl | rfl
  · obtain ⟨-, hpresent, hkept⟩ := hkeeps.del hseparate hused (h.slots ▸ hremoved)
    exact ⟨h.turned hroster htxn hwriter hblocked huses hkept, by simpa using hpresent⟩
  · obtain ⟨-, habsent, hkept⟩ := hkeeps.del_absent hused (h.slots ▸ hremoved)
    rw [← habsent, Function.update_eq_self, Function.update_eq_self]
    exact ⟨h.turned hroster htxn hwriter hblocked huses hkept, by simp⟩

/-- An emptied database is empty on the top of the stack. -/
theorem Levels.clear (h : Levels setting engine (top :: rest)) (hroster : Roster engine)
    (hseparate : setting.Separate) (hused : setting.used slot)
    (hmain : slot = mainSlot → ∀ other ≠ mainSlot, ¬ (setting.used other ∨ setting.made other))
    (hclear : engine.drop handle slot false = (.ok (), result)) :
    Turned setting engine handle (Function.update top slot (fun _ ↦ none) :: rest) result := by
  obtain ⟨⟨txn, htxn, hblocked, hwriter⟩, -⟩ := (drop_cases engine handle slot false).2 (by rw [hclear])
  have hkeeps := h.keeps_top hroster htxn hwriter hblocked
  obtain ⟨table, hsees, -⟩ := hkeeps.sees hused
  obtain ⟨-, cleared, rfl, huses, hchanged, hwrote⟩ := clear_ok hclear htxn (h.slots ▸ hsees)
  exact h.turned hroster htxn hwriter hblocked huses
    (hkeeps.cleared hseparate hused (h.slots ▸ huses) hsees hwrote hchanged hmain)

end MappedStore.Engine
