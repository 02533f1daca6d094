import MappedStore.Proofs.Gate

/-!
# What reads answer

A read through a slot is answered from the table that the transaction can read there.
`System.get_eq` and `System.stat_eq` compute the answers of reads that pass the gate, and
`System.usable_of_get` and `System.usable_of_stat` say from which table an answer was taken.
-/

namespace MappedStore

open Engine

/-- The value of a key in a table. -/
def Engine.Table.value (table : Table) (key : Bytes) : Option Bytes :=
  (table.find? key).map Record.read

namespace Engine

variable {engine : Engine} {handle slot : Nat} {txn : Txn} {content : TxnSlot} {key : Bytes}

/-- The answer to a read of a key through a slot that can be used. -/
theorem get_answer (htxn : engine.txn? handle = some txn)
    (husable : txn.usable? slot = some content) (hblocked : engine.isBlocked txn = false)
    (hkey : key ≠ []) :
    (engine.get handle slot key).1 =
      match txn.load engine.slots slot content with
      | .error condition => .error condition.code
      | .ok loaded =>
          match loaded.table.value key with
          | some value => .ok value
          | none => .error Condition.notFound.code := by
  have hempty : key.isEmpty = false := by simpa using hkey
  unfold get onTxn
  rw [htxn]
  dsimp only
  unfold Txn.get
  rw [husable, hblocked]
  dsimp only
  cases txn.load engine.slots slot content with
  | error condition => simp [refuse, hempty]
  | ok loaded =>
      simp only [hempty, Bool.false_eq_true, if_false, Table.value]
      cases loaded.table.find? key <;> rfl

/-- A read that is answered, be it by the absence of the key, goes through a slot that can be
used. -/
theorem usable_of_get (engine : Engine) (h : (∃ value, (engine.get handle slot key).1 = .ok value) ∨
      (engine.get handle slot key).1 = .error Condition.notFound.code) :
    ∃ txn content, engine.txn? handle = some txn ∧ txn.usable? slot = some content ∧
      engine.isBlocked txn = false ∧ key ≠ [] := by
  have hrefused : ∀ {code : Code}, code ≠ Condition.notFound.code →
      ¬((∃ value, (.error code : Except Code Bytes) = .ok value) ∨
        (.error code : Except Code Bytes) = .error Condition.notFound.code) := by
    rintro code hcode (⟨value, hvalue⟩ | habsent)
    · cases hvalue
    · exact hcode (Except.error.inj habsent)
  unfold get onTxn at h
  cases htxn : engine.txn? handle with
  | none =>
      rw [htxn] at h
      exact absurd h (hrefused (by decide))
  | some txn =>
      rw [htxn] at h
      have houtcome := txn.get_outcome engine.slots (engine.isBlocked txn) slot key
      dsimp only at h
      generalize txn.get engine.slots (engine.isBlocked txn) slot key = answer at h houtcome
      cases houtcome with
      | unusable | blocked | nameless => exact absurd h (hrefused (by decide))
      | unread husable hblocked =>
          refine ⟨txn, _, rfl, husable, hblocked, ?_⟩
          rintro rfl
          exact absurd h (hrefused (by simp))
      | missed husable hblocked _ hkey | found husable hblocked _ hkey =>
          exact ⟨txn, _, rfl, husable, hblocked, by rintro rfl; cases hkey⟩

/-- The figures that are answered through a slot that can be used. -/
theorem statOf_answer (htxn : engine.txn? handle = some txn)
    (husable : txn.usable? slot = some content) (hblocked : engine.isBlocked txn = false) :
    (engine.statOf handle slot).1 =
      match txn.load engine.slots slot content with
      | .error _ => .ok content.table.stat
      | .ok loaded => .ok loaded.table.stat := by
  unfold statOf onTxn
  rw [htxn]
  dsimp only
  unfold Txn.stat
  rw [husable, hblocked]
  dsimp only
  cases txn.load engine.slots slot content <;> rfl

/-- Figures are only answered through a slot that can be used. -/
theorem usable_of_statOf (engine : Engine) {stat : Stat}
    (h : (engine.statOf handle slot).1 = .ok stat) :
    ∃ txn content, engine.txn? handle = some txn ∧ txn.usable? slot = some content ∧
      engine.isBlocked txn = false := by
  unfold statOf onTxn at h
  cases htxn : engine.txn? handle with
  | none =>
      rw [htxn] at h
      cases h
  | some txn =>
      rw [htxn] at h
      have houtcome := txn.stat_outcome engine.slots (engine.isBlocked txn) slot
      dsimp only at h
      generalize txn.stat engine.slots (engine.isBlocked txn) slot = answer at h houtcome
      cases houtcome with
      | unusable | blocked => cases h
      | unread husable hblocked | answered husable hblocked =>
          exact ⟨txn, _, rfl, husable, hblocked⟩

end Engine

namespace System

variable {α : Type} {system : System} {user : TxnId} {database : Database} {key : Bytes}
  {txn : Engine.Txn} {content : Engine.TxnSlot}

/-- An operation that the gate lets through is carried out. -/
theorem withAccess_accepted {access : Access} (use : Transaction → Outcome α)
    (h : system.gateFault user access = none) :
    (system.withAccess user access use).result = (use (system.transaction user)).result := by
  rw [withAccess_passed use h]
  rfl

/-- The result of a read that passes the gate. -/
theorem get_eq (hgate : system.gateFault user { database := database, key := some key } = none)
    (htxn : (system.engineOf user).txn? (system.native user) = some txn)
    (husable : txn.usable? database.slot = some content)
    (hblocked : (system.engineOf user).isBlocked txn = false) (hkey : key ≠ []) :
    (system.get user database key).result =
      match txn.load (system.engineOf user).slots database.slot content with
      | .ok loaded => .ok (loaded.table.value key)
      | .error .notFound => .ok none
      | .error condition => .error (.error (.ofCode condition.code)) := by
  have hanswer := Engine.get_answer htxn husable hblocked hkey
  rw [get_eq_seek, withAccess_accepted _ hgate, seek_result]
  rw [show ((system.engine (system.transaction user).env).get (system.transaction user).native
    database.slot key).1 = _ from hanswer]
  cases txn.load (system.engineOf user).slots database.slot content with
  | error condition => cases condition <;> rfl
  | ok loaded => cases hvalue : loaded.table.value key <;> simp [hvalue]

/-- A read that is answered passed the gate and went through a slot that can be used. -/
theorem usable_of_get {value : Option Bytes}
    (h : (system.get user database key).result = .ok value) :
    system.gateFault user { database := database, key := some key } = none ∧
      ∃ txn content, (system.engineOf user).txn? (system.native user) = some txn ∧
        txn.usable? database.slot = some content ∧
        (system.engineOf user).isBlocked txn = false ∧ key ≠ [] := by
  have hgate : system.gateFault user { database := database, key := some key } = none :=
    gateFault_of_ok h
  refine ⟨hgate, Engine.usable_of_get (system.engineOf user) ?_⟩
  rw [get_eq_seek, withAccess_accepted _ hgate] at h
  rcases seek_ok h with ⟨found, engine, -, hanswer, -⟩ | ⟨engine, -, hanswer, -⟩
  · exact .inl ⟨found, congrArg Prod.fst hanswer⟩
  · exact .inr (congrArg Prod.fst hanswer)

/-- The result of a question for figures that passes the gate. -/
theorem stat_eq (hgate : system.gateFault user { database := database } = none)
    (htxn : (system.engineOf user).txn? (system.native user) = some txn)
    (husable : txn.usable? database.slot = some content)
    (hblocked : (system.engineOf user).isBlocked txn = false) :
    (system.stat user database).result =
      match txn.load (system.engineOf user).slots database.slot content with
      | .ok loaded => .ok loaded.table.stat
      | .error _ => .ok content.table.stat := by
  have hanswer := Engine.statOf_answer htxn husable hblocked
  unfold stat relay
  rw [withAccess_accepted _ hgate, perform_eq]
  rw [show ((system.engine (system.transaction user).env).statOf (system.transaction user).native
    database.slot).1 = _ from hanswer]
  cases txn.load (system.engineOf user).slots database.slot content <;> rfl

/-- A question for figures that is answered passed the gate and went through a slot that can be
used. -/
theorem usable_of_stat {stat : Engine.Stat} (h : (system.stat user database).result = .ok stat) :
    system.gateFault user { database := database } = none ∧
      ∃ txn content, (system.engineOf user).txn? (system.native user) = some txn ∧
        txn.usable? database.slot = some content ∧
        (system.engineOf user).isBlocked txn = false := by
  have hgate : system.gateFault user { database := database } = none := gateFault_of_ok h
  suffices hanswer : ((system.engineOf user).statOf (system.native user) database.slot).1 = .ok stat
    from ⟨hgate, Engine.usable_of_statOf _ hanswer⟩
  unfold System.stat at h
  rw [withAccess_accepted _ hgate] at h
  rcases system.relay_cases (system.transaction user).env _
    (·.statOf (system.transaction user).native database.slot) (Engine.proper_statOf ..)
    with ⟨code, engine, -, hrelay⟩ | ⟨value, engine, hstat, hrelay⟩
  · rw [hrelay] at h
    simp at h
  · rw [hrelay] at h
    obtain rfl : value = stat := Except.ok.inj h
    exact congrArg Prod.fst hstat

end System

end MappedStore
