import MappedStore.Proofs.Engine.Holding
import MappedStore.Proofs.Run

/-!
# Stacks of maps

The reference for nested transactions: each has the map of every database, a begin copies those of
the parent, writes change those of the innermost transaction, a commit hands them to the parent, and
an abort throws them away (`Stack.next`). A course is a sequence of actions that all succeed, with
what they make of such a stack (`Course`).
-/

namespace MappedStore

open Engine (Contents mainSlot)

/-- The transactions that are nested in each other, the innermost first, with their maps. -/
abbrev Stack := List (TxnId × Contents)

namespace Stack

variable {stack outer : Stack} {txn : TxnId} {contents : Contents}

/-- The transactions of a stack. -/
def ids (stack : Stack) : List TxnId := stack.map (·.1)

/-- The maps of a stack. -/
def maps (stack : Stack) : List Contents := stack.map (·.2)

/-- A copy of the top for a new transaction. -/
def push (child : TxnId) : Stack → Stack
  | [] => []
  | (txn, contents) :: outer => (child, contents) :: (txn, contents) :: outer

/-- Another map behind a slot at the top. -/
def write (slot : Nat) (change : (Bytes → Option Bytes) → Bytes → Option Bytes) : Stack → Stack
  | [] => []
  | (txn, contents) :: outer =>
      (txn, Function.update contents slot (change (contents slot))) :: outer

/-- The top in the place of the one below. The maps of a root have no place to go to. -/
def merge : Stack → Stack
  | (_, contents) :: (parent, _) :: outer => (parent, contents) :: outer
  | _ => []

/-- What lies below a transaction, if that is one of the stack. -/
def discard (txn : TxnId) (stack : Stack) : Stack :=
  if txn ∈ stack.ids then (stack.dropWhile (·.1 ≠ txn)).tail else stack

/-- What an action makes of a stack when it succeeds. -/
def next (stack : Stack) : Action → Response → Stack
  | .begin _ (some _) _ _, .transaction child => stack.push child
  | .put _ database key value _, _ =>
      stack.write database.slot fun map ↦ Function.update map key (some value)
  | .del _ database key _, _ => stack.write database.slot fun map ↦ Function.update map key none
  | .clear _ database, _ => stack.write database.slot fun _ _ ↦ none
  | .commit _, _ => stack.merge
  | .abort txn, _ | .drop txn, _ => stack.discard txn
  | _, _ => stack

/-- Nothing comes of an empty stack. -/
theorem next_nil (action : Action) (response : Response) : next [] action response = [] := by
  unfold next
  split <;> simp [push, write, merge, discard, ids]

/-- A transaction of the stack has some above it and some below. -/
theorem exists_append (h : txn ∈ stack.ids) :
    ∃ (inner outer : Stack) (contents : Contents), stack = inner ++ (txn, contents) :: outer := by
  obtain ⟨⟨txn, contents⟩, hentry, rfl⟩ := List.mem_map.mp h
  obtain ⟨inner, outer, rfl⟩ := List.append_of_mem hentry
  exact ⟨inner, outer, contents, rfl⟩

/-- The transactions of the parts of a stack. -/
theorem ids_append (inner outer : Stack) (txn : TxnId) (contents : Contents) :
    ids (inner ++ (txn, contents) :: outer) = inner.ids ++ txn :: outer.ids := by
  simp [ids]

/-- A transaction that is not of the stack discards nothing. -/
theorem discard_of_not_mem (h : txn ∉ stack.ids) : stack.discard txn = stack := if_neg h

/-- A transaction of the stack discards all above it and itself. -/
theorem discard_append {inner : Stack} (h : txn ∉ ids inner) :
    discard txn (inner ++ (txn, contents) :: outer) = outer := by
  have hmem : txn ∈ ids (inner ++ (txn, contents) :: outer) := by simp [ids]
  rw [discard, if_pos hmem, List.dropWhile_append_of_pos, List.dropWhile_cons_of_neg (by simp),
    List.tail_cons]
  intro entry hentry
  have hne : entry.1 ≠ txn := fun hsame ↦ h (hsame ▸ List.mem_map_of_mem hentry)
  simpa using hne

end Stack

/-- Actions that a condition allows and that all succeed, with what they make of a stack. -/
inductive Course (allowed : System → Action → Prop) (first : System) (start : Stack) :
    System → Stack → Prop where
  | nil : Course allowed first start first start
  | step {last : System} {stack : Stack} (course : Course allowed first start last stack)
      (action : Action) (response : Response) (h : allowed last action)
      (hresult : (last.act action).result = .ok response) :
      Course allowed first start (last.after action) (stack.next action response)

/-- The actions of a course are a run. -/
theorem Course.run {allowed : System → Action → Prop} {first last : System} {start stack : Stack}
    (h : Course allowed first start last stack) : Run allowed first last := by
  induction h with
  | nil => exact .nil
  | step _ _ _ hallowed _ ih => exact .step ih hallowed

/-- What can be done with some databases through a root and the transactions nested in it. The main
database is only emptied if no other is in use. -/
inductive Nests (root : TxnId) (databases : Set Database) (system : System) : Action → Prop where
  | begin {parent : TxnId} (h : root ∈ system.lineage parent) (env : EnvId) (flags : TxnFlags)
      (thread : Nat) : Nests root databases system (.begin env (some parent) flags thread)
  | commit {txn : TxnId} (h : root ∈ system.lineage txn) : Nests root databases system (.commit txn)
  | abort {txn : TxnId} (h : root ∈ system.lineage txn) : Nests root databases system (.abort txn)
  | drop {txn : TxnId} (h : root ∈ system.lineage txn) : Nests root databases system (.drop txn)
  | get {txn : TxnId} {database : Database} (h : root ∈ system.lineage txn)
      (hdatabase : database ∈ databases) (key : Bytes) :
      Nests root databases system (.get txn database key)
  | stat {txn : TxnId} {database : Database} (h : root ∈ system.lineage txn)
      (hdatabase : database ∈ databases) : Nests root databases system (.stat txn database)
  | put {txn : TxnId} {database : Database} (h : root ∈ system.lineage txn)
      (hdatabase : database ∈ databases) (key value : Bytes) :
      Nests root databases system (.put txn database key value .empty)
  | del {txn : TxnId} {database : Database} (h : root ∈ system.lineage txn)
      (hdatabase : database ∈ databases) (key : Bytes) :
      Nests root databases system (.del txn database key none)
  | clear {txn : TxnId} {database : Database} (h : root ∈ system.lineage txn)
      (hdatabase : database ∈ databases)
      (hmain : database.slot = mainSlot → (∀ other ∈ databases, other.slot = mainSlot) ∧
        ∀ entry ∈ (system.transaction root).opened, entry.1 = mainSlot) :
      Nests root databases system (.clear txn database)

end MappedStore
