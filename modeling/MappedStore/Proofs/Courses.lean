import MappedStore.Proofs.Isolation
import MappedStore.Proofs.Nesting

/-!
# Courses of nested transactions

Actions that succeed on the transactions nested in a root make of a stack of maps what
`Stack.next` says, one after the other (`Course`), and the transactions hold the maps of that stack
all along (`System.Mirrors.course`). So the innermost transaction answers from the top
(`System.Mirrors.presents`).
-/

namespace MappedStore

open Engine (Contents mainSlot Setting)
open SlotRecord (overlay)

namespace System

variable {start system : System} {setting : Setting} {stack rest : Stack} {root txn : TxnId}
  {database : Database} {databases : Set Database} {action : Action} {top contents : Contents}

/-! ## Courses -/

namespace Mirrors

/-- An action that succeeds makes of the stack what `Stack.next` says. When the root ends, nothing
is left of it. -/
theorem act (h : Mirrors start setting root system stack) (hsound : Sound system)
    (hfits : Fits start root databases setting) (hnests : Nests root databases system action)
    {response : Response} (hresult : (system.act action).result = .ok response) :
    stack.next action response = [] ∨
      Mirrors start setting root (system.after action) (stack.next action response) := by
  cases hnests with
  | begin hmem env flags thread =>
      obtain ⟨child, hbegin, rfl⟩ := map_eq_ok.mp hresult
      exact .inr (h.begin hsound hmem hbegin)
  | commit hmem =>
      obtain ⟨_, hcommit, rfl⟩ := map_eq_ok.mp hresult
      exact h.commit hsound hmem hcommit
  | abort hmem => exact h.abort hsound hmem rfl
  | drop hmem => exact h.abort hsound hmem (dropTransaction_state system _)
  | get hmem _ key =>
      obtain ⟨value, hget, rfl⟩ := map_eq_ok.mp hresult
      exact .inr (h.get hsound hmem hget)
  | stat hmem =>
      obtain ⟨stat, hstat, rfl⟩ := map_eq_ok.mp hresult
      exact .inr (h.stat hsound hmem hstat)
  | put hmem hdatabase key value =>
      obtain ⟨_, hput, rfl⟩ := map_eq_ok.mp hresult
      exact .inr (h.put hsound hfits hdatabase hmem hput)
  | del hmem hdatabase key =>
      obtain ⟨found, hdel, rfl⟩ := map_eq_ok.mp hresult
      exact .inr (h.del hsound hfits hdatabase hmem hdel).1
  | clear hmem hdatabase hmain =>
      obtain ⟨_, hclear, rfl⟩ := map_eq_ok.mp hresult
      exact .inr (h.clear hsound hfits hdatabase hmem hmain hclear)

/-- Along a course the transactions hold the maps of its stack, until the root ends. -/
theorem course {first last : System} {stack' : Stack}
    (h : Mirrors start setting root first stack) (hsound : Sound first)
    (hfits : Fits start root databases setting)
    (hcourse : Course (Nests root databases) first stack last stack') :
    stack' = [] ∨ Mirrors start setting root last stack' := by
  induction hcourse with
  | nil => exact .inr h
  | step course action response hnests hresult ih =>
      rcases ih with rfl | hmirrors
      · exact .inl (Stack.next_nil action response)
      · exact hmirrors.act (hsound.run course.run) hfits hnests hresult

/-! ## Answers from the top -/

/-- All transactions of the stack see the same handles, those that the root saw at the start. -/
theorem liveGeneration (h : Mirrors start setting root system stack) (hanchored : Anchored system)
    (htxn : txn ∈ stack.ids) (slot : Nat) :
    system.liveGeneration txn slot = overlay (recordIn (start.scope root) slot)
      ((start.retained (start.transaction root).env).lookup slot) := by
  -- from the root inwards, where only the root has recorded anything
  have hsuffix : ∀ ids, ids <:+ stack.ids → ∀ txn ∈ ids, system.liveGeneration txn slot =
      overlay (recordIn (start.scope root) slot)
        ((start.retained (start.transaction root).env).lookup slot) := by
    intro ids hids
    induction ids with
    | nil => simp
    | cons txn ids ih =>
        have hnested := h.chain.nested.suffix hids
        have hmem : txn ∈ stack.ids := hids.subset List.mem_cons_self
        have hbottom := (getLast?_suffix hids (by simp)).trans h.bottom
        have hrest := ih ((List.suffix_cons txn ids).trans hids)
        suffices hhead : system.liveGeneration txn slot = _ from fun other hother ↦
          (List.mem_cons.mp hother).elim (fun hsame ↦ hsame ▸ hhead) (hrest other)
        rw [liveGeneration_overlay hanchored, hnested.1]
        cases ids with
        | nil =>
            obtain rfl : txn = root := by simpa using hbottom
            rw [h.own, h.chain.env_eq txn hmem, ← h.retained]
            rfl
        | cons parent outer =>
            have hne : txn ≠ root := by
              rintro rfl
              rw [List.getLast?_cons_cons] at hbottom
              exact (List.nodup_cons.mp (hnested.nodup hanchored)).1 (List.mem_of_getLast? hbottom)
            rw [h.scopes txn hmem hne]
            exact hrest parent List.mem_cons_self
  exact hsuffix stack.ids (List.suffix_refl _) txn htxn

/-- No living transaction is nested in the innermost one. -/
theorem lifecycleFault (h : Mirrors start setting root system ((txn, top) :: rest))
    (hsound : Sound system) (hcounted : Counted system) :
    (system.transaction txn).lifecycleFault = none := by
  have hmem : txn ∈ Stack.ids ((txn, top) :: rest) := by simp [Stack.ids]
  have hchildren : (system.transaction txn).children = 0 := by
    rw [hcounted.children, Finset.card_eq_zero, Finset.filter_eq_empty_iff]
    intro child hliving hparent
    -- it would be of the stack, where the numbers fall towards the root
    have hlt := hsound.anchored.parent_lt child txn hparent
    rcases List.mem_cons.mp (h.adopted child txn hparent (mem_living.mp hliving) hmem) with
      rfl | houter
    · exact Nat.lt_irrefl _ hlt
    · exact Nat.lt_asymm hlt (h.chain.nested.lt hsound.anchored child houter)
  simp [Transaction.lifecycleFault, h.chain.active txn hmem, hchildren]

/-- The innermost transaction admits the handles that the root did at the start. -/
theorem admits (h : Mirrors start setting root system ((txn, top) :: rest))
    (hfirst : Mirrors start setting root start stack) (hreachable : Reachable system)
    (hstart : Sound start) (hchecks : system.checks = start.checks)
    (hadmits : Admits start root database) : Admits system txn database := by
  have hsound := hreachable.sound
  have hmem : txn ∈ Stack.ids ((txn, top) :: rest) := by simp [Stack.ids]
  refine ⟨h.lifecycleFault hsound hreachable.counted,
    hadmits.env_eq.trans (h.chain.env_eq txn hmem).symm, fun hon ↦ ?_⟩
  have haccepts := hadmits.accepts (hchecks.symm.trans hon)
  unfold accepts at haccepts ⊢
  rwa [h.liveGeneration hsound.anchored hmem,
    ← hfirst.liveGeneration hstart.anchored hfirst.root_mem]

end Mirrors

namespace Mirrors

end Mirrors

end System

end MappedStore
