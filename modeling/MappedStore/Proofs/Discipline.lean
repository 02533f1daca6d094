import Mathlib.Data.List.Induction
import MappedStore.Proofs.Conduct

/-!
# The discipline of native handles

The engine trusts its users: a native transaction must not be named once it is over, a transaction
with a nested one must rest, and an environment is closed once. `Calls.Permits` reads off the calls
that were made which call may be made next, and a list of calls is `Calls.Disciplined` if each was
permitted by those before it. In such a list no handle is ended twice, nothing is called on what has
ended, and nothing follows the close of an environment.
-/

namespace MappedStore

/-- The handle that a call ends, if it ends one. -/
def Call.ended? : Call → Option Nat
  | .commit native | .abort native => some native
  | _ => none

/-- The native transaction that a call is made on. A begin is made on the parent. -/
def Call.on? : Call → Option Nat
  | .commit native | .abort native | .reset native | .renew native => some native
  | .begin _ parent _ => parent
  | call => call.use?

/-- How things are with the number of an environment. What a failed open has left behind is still to
be closed, and then the number is free again. -/
inductive Standing where
  | absent
  | failed
  | opened
  | closed
  deriving DecidableEq, Repr

/-- What a call makes of the environment that it is for. -/
def Standing.next (standing : Standing) (made : Called) : Standing :=
  match made.call, standing with
  | .openEnvironment .., _ => if made.code = 0 then .opened else .failed
  | .closeEnvironment, .failed => .absent
  | .closeEnvironment, _ => .closed
  | _, _ => standing

/-- Calls of the engine, in the order in which they were made. -/
abbrev Calls := List Called

namespace Calls

variable {calls before later : Calls} {made : Called} {env : EnvId} {native inner outer : Nat}
  {parent : Option Nat}

/-! ## What the calls have done -/

/-- A native transaction was begun, nested in another or as a root. -/
def Begun (calls : Calls) (env : EnvId) (native : Nat) (parent : Option Nat) : Prop :=
  ∃ made ∈ calls, made.env = env ∧ ∃ flags, made.call = .begin (some native) parent flags

/-- A native transaction was committed or aborted. -/
def Ended (calls : Calls) (env : EnvId) (native : Nat) : Prop :=
  ∃ made ∈ calls, made.env = env ∧ made.call.ended? = some native

/-- How often a native transaction was committed or aborted. -/
def ends (calls : Calls) (env : EnvId) (native : Nat) : Nat :=
  calls.countP fun made ↦ made.env = env ∧ made.call.ended? = some native

/-- A native transaction has begun, and neither it nor any that it is nested in has ended. -/
inductive Alive (calls : Calls) (env : EnvId) : Nat → Prop where
  | root {native : Nat} (hbegun : calls.Begun env native none)
      (hended : ¬ calls.Ended env native) : Alive calls env native
  | nested {native outer : Nat} (hbegun : calls.Begun env native (some outer))
      (hended : ¬ calls.Ended env native) (houter : Alive calls env outer) : Alive calls env native

/-- A native transaction was reset, and no renewal has succeeded since. -/
def Asleep (calls : Calls) (env : EnvId) (native : Nat) : Prop :=
  ∃ before made later, calls = before ++ made :: later ∧ made.env = env ∧
    made.call = .reset native ∧
    ∀ next ∈ later, ¬ (next.env = env ∧ next.call = .renew native ∧ next.code = 0)

/-- A native transaction that is nested in another, at any depth, or that other itself. -/
inductive Within (calls : Calls) (env : EnvId) (outer : Nat) : Nat → Prop where
  | self : Within calls env outer outer
  | nested {inner middle : Nat} (hbegun : calls.Begun env inner (some middle))
      (h : Within calls env outer middle) : Within calls env outer inner

/-- How things are with an environment after some calls. -/
def standing (calls : Calls) (env : EnvId) : Standing :=
  (calls.filter (·.env = env)).foldl Standing.next .absent

/-! ## What may be called -/

/-- A native transaction that is free to be used: it is alive and awake, and all that are nested in
it have ended. -/
structure Ready (calls : Calls) (env : EnvId) (native : Nat) : Prop where
  alive : calls.Alive env native
  awake : ¬ calls.Asleep env native
  unblocked : ∀ inner, calls.Begun env inner (some native) → calls.Ended env inner

/-- Whether a call may follow others. -/
def Permits (calls : Calls) (made : Called) : Prop :=
  match made.call with
  | .openEnvironment .. => calls.standing made.env = .absent
  | .closeEnvironment =>
      (calls.standing made.env = .failed ∨ calls.standing made.env = .opened) ∧
      ∀ native, ¬ calls.Alive made.env native
  | .begin native parent _ => calls.standing made.env = .opened ∧
      (∀ handle outer, native = some handle → ¬ calls.Begun made.env handle outer) ∧
      ∀ outer, parent = some outer → calls.Ready made.env outer
  | .abort native => calls.standing made.env = .opened ∧ calls.Alive made.env native
  | .renew native => calls.standing made.env = .opened ∧ calls.Alive made.env native ∧
      calls.Asleep made.env native ∧
      ∀ inner, calls.Begun made.env inner (some native) → calls.Ended made.env inner
  | .commit native | .reset native =>
      calls.standing made.env = .opened ∧ calls.Ready made.env native
  -- Calls about the environment are left, and uses of databases, which name a transaction.
  | call => calls.standing made.env = .opened ∧
      ∀ native, call.use? = some native → calls.Ready made.env native

/-- Every call was permitted by the calls before it. -/
def Disciplined (calls : Calls) : Prop :=
  ∀ before made later, calls = before ++ made :: later → Permits before made

/-- No native transaction or environment was used after its end, ended twice, or used when it was
not to be. -/
structure Safe (calls : Calls) : Prop where
  /-- A native transaction is committed or aborted at most once. -/
  once : ∀ env native, calls.ends env native ≤ 1
  /-- Then nothing is called on it or on what was nested in it. -/
  silent : ∀ (before : Calls) made later outer, calls = before ++ made :: later →
    made.call.ended? = some outer → ∀ next ∈ later, next.env = made.env →
    ∀ inner, next.call.on? = some inner → ¬ calls.Within made.env outer inner
  /-- One that was reset is at most renewed or aborted. -/
  awake : ∀ (before : Calls) made later native, calls = before ++ made :: later →
    made.call.on? = some native → before.Asleep made.env native →
    made.call = .renew native ∨ made.call = .abort native
  /-- One in which another has not ended is at most aborted. -/
  unblocked : ∀ (before : Calls) made later native, calls = before ++ made :: later →
    made.call.on? = some native → made.call ≠ .abort native →
    ∀ inner, before.Begun made.env inner (some native) → before.Ended made.env inner
  /-- An environment is closed when nothing in it is alive, and unless its open had failed, nothing
  is called for it from then on. -/
  closing : ∀ (before : Calls) made later, calls = before ++ made :: later →
    made.call = .closeEnvironment → (∀ native, ¬ before.Alive made.env native) ∧
      (before.standing made.env = .failed ∨
        before.standing made.env = .opened ∧ ∀ next ∈ later, next.env ≠ made.env)

/-! ## One more call -/

/-- A call begins the native transaction with the handle that it returns. -/
theorem begun_concat : (calls ++ [made]).Begun env native parent ↔
    calls.Begun env native parent ∨
      made.env = env ∧ ∃ flags, made.call = .begin (some native) parent flags := by
  simp [Begun, or_and_right, exists_or]

/-- A commit and an abort end a native transaction. -/
theorem ended_concat : (calls ++ [made]).Ended env native ↔
    calls.Ended env native ∨ made.env = env ∧ made.call.ended? = some native := by
  simp [Ended, or_and_right, exists_or]

/-- A reset puts a native transaction to sleep, and a successful renewal wakes it. -/
theorem asleep_concat : (calls ++ [made]).Asleep env native ↔
    (made.env = env ∧ made.call = .reset native) ∨ (calls.Asleep env native ∧
      ¬ (made.env = env ∧ made.call = .renew native ∧ made.code = 0)) := by
  constructor
  · rintro ⟨before, reset, later, hsplit, henv, hcall, hlater⟩
    rcases List.eq_nil_or_concat later with rfl | ⟨middle, last, rfl⟩
    · obtain ⟨-, hlast⟩ := List.append_inj' hsplit rfl
      obtain rfl := List.singleton_inj.mp hlast
      exact .inl ⟨henv, hcall⟩
    · have hsplit' : calls ++ [made] = (before ++ reset :: middle) ++ [last] := by
        simpa using hsplit
      obtain ⟨hcalls, hlast⟩ := List.append_inj' hsplit' rfl
      obtain rfl := List.singleton_inj.mp hlast
      exact .inr ⟨⟨before, reset, middle, hcalls, henv, hcall,
        fun next hnext ↦ hlater next (by simp [hnext])⟩, hlater made (by simp)⟩
  · rintro (⟨henv, hcall⟩ | ⟨⟨before, reset, later, rfl, henv, hcall, hlater⟩, hmade⟩)
    · exact ⟨calls, made, [], rfl, henv, hcall, nofun⟩
    · refine ⟨before, reset, later ++ [made], by simp, henv, hcall, fun next hnext ↦ ?_⟩
      rcases List.mem_append.mp hnext with hnext | hnext
      · exact hlater next hnext
      · exact List.mem_singleton.mp hnext ▸ hmade

/-- A call changes how things are with the environment that it is for. -/
theorem standing_concat : (calls ++ [made]).standing env =
    if made.env = env then (calls.standing env).next made else calls.standing env := by
  unfold standing
  split <;> simp_all

/-- A list of calls is disciplined if it was before its last call, and that was permitted. -/
theorem disciplined_concat :
    (calls ++ [made]).Disciplined ↔ calls.Disciplined ∧ calls.Permits made := by
  constructor
  · intro h
    exact ⟨fun before call later hsplit ↦ h before call (later ++ [made]) (by simp [hsplit]),
      h calls made [] rfl⟩
  · rintro ⟨h, hpermits⟩ before call later hsplit
    rcases List.eq_nil_or_concat later with rfl | ⟨middle, last, rfl⟩
    · obtain ⟨rfl, hlast⟩ := List.append_inj' hsplit rfl
      exact List.singleton_inj.mp hlast ▸ hpermits
    · have hsplit' : calls ++ [made] = (before ++ call :: middle) ++ [last] := by
        simpa using hsplit
      exact h before call middle (List.append_inj' hsplit' rfl).1

/-- Nothing was called without permission where nothing was called. -/
theorem disciplined_nil : Disciplined [] := fun before made later hsplit ↦ by simp at hsplit

/-- A call about an environment as a whole may be made while it is open. -/
theorem permits_whole (h : made.call.isWhole = true) (hopened : calls.standing made.env = .opened) :
    calls.Permits made := by
  obtain ⟨env, call, code⟩ := made
  cases call with
  | copy | stat | info | sync | readerCheck => exact ⟨hopened, nofun⟩
  | _ => simp [Call.isWhole] at h

/-- A use of a database may be made through a native transaction that is ready. -/
theorem permits_use (h : made.call.use? = some native) (hopened : calls.standing made.env = .opened)
    (hready : calls.Ready made.env native) : calls.Permits made := by
  obtain ⟨env, call, code⟩ := made
  cases call with
  | openDatabase | get | put | del | statOf | drop =>
      exact ⟨hopened, fun other hother ↦ Option.some.inj (h.symm.trans hother) ▸ hready⟩
  | _ => simp [Call.use?] at h

/-! ## What discipline means -/

/-- A native transaction that is alive was begun. -/
theorem Alive.begun (h : calls.Alive env native) : ∃ parent, calls.Begun env native parent := by
  cases h with
  | root hbegun => exact ⟨_, hbegun⟩
  | nested hbegun => exact ⟨_, hbegun⟩

/-- A native transaction that is alive has not ended. -/
theorem Alive.not_ended (h : calls.Alive env native) : ¬ calls.Ended env native := by
  cases h with
  | root _ hended => exact hended
  | nested _ hended => exact hended

/-- A call is made only on a native transaction that is alive. -/
theorem Permits.alive (h : calls.Permits made) (hon : made.call.on? = some native) :
    calls.Alive made.env native := by
  obtain ⟨env, call, code⟩ := made
  cases call with
  | openEnvironment | closeEnvironment | copy | stat | info | sync | readerCheck =>
      simp [Call.on?, Call.use?] at hon
  | begin => exact (h.2.2 native hon).alive
  | commit | reset => exact Option.some.inj hon ▸ h.2.alive
  | abort => exact Option.some.inj hon ▸ h.2
  | renew => exact Option.some.inj hon ▸ h.2.1
  | openDatabase | get | put | del | statOf | drop => exact (h.2 native hon).alive

/-- The call that ends a native transaction is made on it. -/
theorem on_of_ended {call : Call} (h : call.ended? = some native) : call.on? = some native := by
  cases call with
  | commit | abort => exact h
  | _ => simp [Call.ended?] at h

/-- Nothing is called for an environment that was closed. -/
theorem Permits.not_closed (h : calls.Permits made) : calls.standing made.env ≠ .closed := by
  intro hclosed
  obtain ⟨env, call, code⟩ := made
  cases call with
  | openEnvironment =>
      have habsent : calls.standing env = .absent := h
      simp_all
  | closeEnvironment =>
      have hstanding : calls.standing env = .failed ∨ calls.standing env = .opened := h.1
      simp_all
  | _ =>
      have hopened : calls.standing env = .opened := h.1
      simp_all

/-- A native transaction that has ended was begun. -/
theorem Disciplined.begun_of_ended (h : calls.Disciplined) (hended : calls.Ended env native) :
    ∃ parent, calls.Begun env native parent := by
  obtain ⟨made, hmade, rfl, hends⟩ := hended
  obtain ⟨before, later, rfl⟩ := List.append_of_mem hmade
  obtain ⟨parent, begun, hbegun, hcall⟩ :=
    ((h before made later rfl).alive (on_of_ended hends)).begun
  exact ⟨parent, begun, by simp [hbegun], hcall⟩

/-- A native transaction that is asleep was begun. -/
theorem Disciplined.begun_of_asleep (h : calls.Disciplined) (hasleep : calls.Asleep env native) :
    ∃ parent, calls.Begun env native parent := by
  obtain ⟨before, reset, later, rfl, rfl, hcall, -⟩ := hasleep
  obtain ⟨parent, begun, hbegun, hcall⟩ :=
    ((h before reset later rfl).alive (congrArg Call.on? hcall)).begun
  exact ⟨parent, begun, by simp [hbegun], hcall⟩

/-- A handle is given out once. -/
theorem Disciplined.begun_unique (h : calls.Disciplined) {other : Option Nat}
    (hbegun : calls.Begun env native parent) (hother : calls.Begun env native other) :
    parent = other := by
  induction calls using List.reverseRecOn with
  | nil => obtain ⟨_, hmem, -⟩ := hbegun; simp at hmem
  | append_singleton calls made ih =>
      obtain ⟨hcalls, hpermits⟩ := disciplined_concat.mp h
      have hfresh : ∀ first second, made.env = env →
          (∃ flags, made.call = .begin (some native) first flags) →
          ¬ Calls.Begun calls env native second := by
        rintro first second rfl ⟨flags, hcall⟩
        unfold Permits at hpermits
        rw [hcall] at hpermits
        exact hpermits.2.1 native second rfl
      rcases begun_concat.mp hbegun with hbegun | ⟨henv, hbegin⟩
      all_goals rcases begun_concat.mp hother with hother | ⟨henv', hbegin'⟩
      · exact ih hcalls hbegun hother
      · exact absurd hbegun (hfresh other parent henv' hbegin')
      · exact absurd hother (hfresh parent other henv hbegin)
      · obtain ⟨flags, hcall⟩ := hbegin
        obtain ⟨flags', hcall'⟩ := hbegin'
        rw [hcall] at hcall'
        exact (Call.begin.inj hcall').2.1

/-- A native transaction was ended at least once, or never. -/
theorem ends_eq_zero : calls.ends env native = 0 ↔ ¬ calls.Ended env native := by
  simp [ends, Ended, List.countP_eq_zero]

/-- No native transaction is committed or aborted twice. -/
theorem Disciplined.ended_once (h : calls.Disciplined) (env : EnvId) (native : Nat) :
    calls.ends env native ≤ 1 := by
  induction calls using List.reverseRecOn with
  | nil => exact Nat.zero_le _
  | append_singleton calls made ih =>
      obtain ⟨hcalls, hpermits⟩ := disciplined_concat.mp h
      rw [ends, List.countP_append, List.countP_singleton]
      split
      · rename_i hboth
        obtain ⟨rfl, hends⟩ := of_decide_eq_true hboth
        have hnever := (hpermits.alive (on_of_ended hends)).not_ended
        exact Nat.le_of_eq (congrArg (· + 1) (ends_eq_zero.mpr hnever))
      · exact ih hcalls

/-- What a native transaction that is alive is nested in has not ended. -/
theorem Alive.outer_not_ended (h : before.Alive env inner) (hcalls : calls.Disciplined)
    (hsubset : before ⊆ calls) (hwithin : calls.Within env outer inner) :
    ¬ before.Ended env outer := by
  have hmono : ∀ {native parent}, before.Begun env native parent →
      calls.Begun env native parent := fun ⟨made, hmade, hrest⟩ ↦ ⟨made, hsubset hmade, hrest⟩
  induction hwithin with
  | self => exact h.not_ended
  | nested hbegun _ ih =>
      cases h with
      | root hroot => exact absurd (hcalls.begun_unique (hmono hroot) hbegun) (by simp)
      | nested hnested _ houter =>
          obtain rfl := Option.some.inj (hcalls.begun_unique (hmono hnested) hbegun)
          exact ih houter

/-- Once a native transaction has ended, nothing is called on it or on any that was nested in it. -/
theorem Disciplined.quiet_after_end (h : Disciplined (before ++ made :: later))
    (hends : made.call.ended? = some outer) {next : Called} (hnext : next ∈ later)
    (henv : next.env = made.env) (hon : next.call.on? = some inner) :
    ¬ Within (before ++ made :: later) made.env outer inner := by
  intro hwithin
  obtain ⟨first, rest, rfl⟩ := List.append_of_mem hnext
  have halive := (h (before ++ made :: first) next rest (by simp)).alive hon
  rw [henv] at halive
  refine halive.outer_not_ended h (fun call hcall ↦ ?_) hwithin ⟨made, by simp, rfl, hends⟩
  simp only [List.mem_append, List.mem_cons] at hcall ⊢
  rcases hcall with hcall | rfl | hcall <;> simp [*]

/-- An environment stays closed, and nothing is called for it. -/
theorem Disciplined.quiet_when_closed (h : Disciplined (before ++ later))
    (hclosed : before.standing env = .closed) : ∀ next ∈ later, next.env ≠ env := by
  induction later generalizing before with
  | nil => simp
  | cons made later ih =>
      have hne : made.env ≠ env := by
        rintro rfl
        exact (h before made later rfl).not_closed hclosed
      have hrest := @ih (before ++ [made]) (by simpa using h)
        (by rw [standing_concat, if_neg hne, hclosed])
      simpa [hne] using hrest

/-- A call is made only on a native transaction that is awake, but for a renewal and an abort. -/
theorem Permits.awake (h : calls.Permits made) (hon : made.call.on? = some native)
    (hasleep : calls.Asleep made.env native) :
    made.call = .renew native ∨ made.call = .abort native := by
  obtain ⟨env, call, code⟩ := made
  cases call with
  | openEnvironment | closeEnvironment | copy | stat | info | sync | readerCheck =>
      simp [Call.on?, Call.use?] at hon
  | begin => exact absurd hasleep (h.2.2 native hon).awake
  | commit | reset => exact absurd hasleep (Option.some.inj hon ▸ h.2.awake)
  | abort => exact .inr (Option.some.inj hon ▸ rfl)
  | renew => exact .inl (Option.some.inj hon ▸ rfl)
  | openDatabase | get | put | del | statOf | drop => exact absurd hasleep (h.2 native hon).awake

/-- A call is made only on a native transaction in which no other is alive, but for an abort. -/
theorem Permits.unblocked (h : calls.Permits made) (hon : made.call.on? = some native)
    (habort : made.call ≠ .abort native) (hinner : calls.Begun made.env inner (some native)) :
    calls.Ended made.env inner := by
  obtain ⟨env, call, code⟩ := made
  cases call with
  | openEnvironment | closeEnvironment | copy | stat | info | sync | readerCheck =>
      simp [Call.on?, Call.use?] at hon
  | begin => exact (h.2.2 native hon).unblocked inner hinner
  | commit | reset => exact h.2.unblocked inner (Option.some.inj hon ▸ hinner)
  | abort => exact absurd (Option.some.inj hon ▸ rfl) habort
  | renew => exact h.2.2.2 inner (Option.some.inj hon ▸ hinner)
  | openDatabase | get | put | del | statOf | drop => exact (h.2 native hon).unblocked inner hinner

/-- Disciplined calls are safe. -/
theorem Disciplined.safe (h : calls.Disciplined) : calls.Safe where
  once := h.ended_once
  silent := by
    rintro before made later outer rfl hends next hnext henv inner hon
    exact h.quiet_after_end hends hnext henv hon
  awake := by
    intro before made later native hsplit hon hasleep
    exact (h before made later hsplit).awake hon hasleep
  unblocked := by
    intro before made later native hsplit hon habort inner hinner
    exact (h before made later hsplit).unblocked hon habort hinner
  closing := by
    rintro before made later rfl hclose
    have hpermits := h before made later rfl
    unfold Permits at hpermits
    rw [hclose] at hpermits
    obtain ⟨hstanding, hdead⟩ := hpermits
    refine ⟨hdead, hstanding.imp_right fun hopened ↦ ⟨hopened, ?_⟩⟩
    refine @Disciplined.quiet_when_closed (before ++ [made]) later made.env (by simpa using h) ?_
    rw [standing_concat, if_pos rfl, hopened]
    simp [Standing.next, hclose]

end Calls

end MappedStore
