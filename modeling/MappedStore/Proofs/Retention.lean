import MappedStore.Proofs.Journal
import MappedStore.Proofs.Writers

/-!
# How long a committed open is retained

An open that has been committed up to the root is retained by its environment. Transactions that
begin afterwards see its generation and can only pass it on (`System.Loyal`). One that began before
may have recorded another generation for the same slot, because it opened the slot while none was
live for it: when its root commits, the environment retains that generation instead
(`System.Overtakes`). `System.open_retained` says that nothing else displaces a committed open, but
for a committed drop of the slot and the closing of the environment, and that this always does.
-/

namespace MappedStore

namespace System

variable {system after : System} {action : Action} {env : EnvId} {txn : TxnId}
  {slot generation : Nat} {first : TxnId}

/-! ## The scope of one transaction -/

/-- How an action changes the scope of a transaction, which it leaves as given. -/
inductive Touched (system : System) (txn : TxnId) (scope : Opens × List Nat) : Action → Prop where
  | opened {name : Option String} {flags : DbFlags} {slot generation : Nat} {engine : Engine}
      (hopen : (system.engineOf txn).openDatabase (system.native txn) (name.map Bytes.ofText) flags
        = (.ok slot, engine))
      (hgeneration : system.liveGeneration txn slot = some generation ∨
        system.liveGeneration txn slot = none ∧
          generation = system.nextGeneration (system.transaction txn).env)
      (hscope : scope = ((slot, generation) :: (system.transaction txn).opened,
        (system.transaction txn).dropped)) :
      Touched system txn scope (.openDatabase txn name flags)
  | dropped {database : Database} {engine : Engine}
      (hdrop : (system.engineOf txn).drop (system.native txn) database.slot true
        = (.ok (), engine))
      (hscope : scope = ((system.transaction txn).opened.filter (·.1 ≠ database.slot),
        database.slot :: (system.transaction txn).dropped)) :
      Touched system txn scope (.dropDatabase txn database)
  | received {child : TxnId} (hcommit : (system.commit child).result = .ok ())
      (hparent : (system.transaction child).parent = some txn)
      (hscope : scope =
        (Opens.merge (system.transaction txn).opened (system.transaction child).opened
            (system.transaction child).dropped,
          (system.transaction child).dropped ++ (system.transaction txn).dropped)) :
      Touched system txn scope (.commit child)
  | handed (hcommit : (system.commit txn).result = .ok ()) (hscope : scope = ([], [])) :
      Touched system txn scope (.commit txn)

/-- The scope of a transaction stays as it is, unless the action touches it. -/
theorem Rescoped.touched (h : Rescoped system action after) (hanchored : Anchored system)
    (txn : TxnId) :
    after.scope txn = system.scope txn ∨
      txn < system.transactions.length ∧ Touched system txn (after.scope txn) action := by
  cases h with
  | same hscope | closed _ hscope => exact .inl (hscope txn)
  | @opened opener name flags slot generation after engine hfault hopen hgeneration hself hothers =>
      by_cases hne : txn = opener
      · subst hne
        exact .inr ⟨lt_of_lifecycleFault hfault, .opened hopen hgeneration hself⟩
      · exact .inl (hothers txn hne)
  | @dropped dropper database after engine hfault hdrop hself hothers =>
      by_cases hne : txn = dropper
      · subst hne
        exact .inr ⟨lt_of_lifecycleFault hfault, .dropped hdrop hself⟩
      · exact .inl (hothers txn hne)
  | @nested child parent after hfault hcommit hparent hself houter hothers =>
      have hchild := lt_of_lifecycleFault hfault
      by_cases hne : txn = child
      · subst hne
        exact .inr ⟨hchild, .handed hcommit hself⟩
      by_cases hne' : txn = parent
      · subst hne'
        exact .inr ⟨Nat.lt_trans (hanchored.parent_lt child txn hparent) hchild,
          .received hcommit hparent houter⟩
      · exact .inl (hothers txn hne hne')
  | @root root after hfault hcommit hparent hself hothers =>
      by_cases hne : txn = root
      · subst hne
        exact .inr ⟨lt_of_lifecycleFault hfault, .handed hcommit hself⟩
      · exact .inl (hothers txn hne)

/-- The scope of a transaction stays as it is, unless it was there before the action and the action
touches it. -/
theorem Sound.touched (h : Sound system) (action : Action) (txn : TxnId) :
    (system.after action).scope txn = system.scope txn ∨ txn < system.transactions.length ∧
      Touched system txn ((system.after action).scope txn) action :=
  ((h.transition action).rescoped h.anchored).touched h.anchored txn

/-- The engine knows a transaction that writes, as a writer. -/
theorem Sound.known (h : Sound system) (hwrites : Writes system txn) {found : Engine.Txn}
    (hfound : (system.engineOf txn).txn? (system.native txn) = some found) :
    found.readOnly = false := by
  obtain ⟨-, writer, hwriter, hhandle⟩ := hwrites
  have hroster := h.anchored.roster (system.transaction txn).env
  have hknown := hroster.txn?_handle (List.mem_append_left _ hwriter)
  obtain rfl : writer = found := by
    have hsame := (hhandle ▸ hknown).symm.trans hfound
    exact Option.some.inj hsame
  exact hroster.writers writer hwriter

/-- An action that touches the scope of a transaction that writes leaves no writer inside it. -/
theorem Touched.front {scope : Opens × List Nat} (h : Touched system txn scope action)
    (hsound : Sound system) (hwrites : Writes system txn) {inner : TxnId}
    (henv : (system.transaction inner).env = (system.transaction txn).env)
    (hbefore : Writes system inner) (hinner : Writes (system.after action) inner) : inner ≤ txn := by
  have hfront : ∀ {found : Engine.Txn},
      (system.engineOf txn).txn? (system.native txn) = some found →
      (system.engineOf txn).isBlocked found = false → inner ≤ txn := fun hfound hblocked ↦
    (hsound.innermost hwrites.1 hfound (hsound.known hwrites hfound) hblocked).2 inner henv hbefore
  cases h with
  | @opened name flags slot generation engine hopen =>
      obtain ⟨found, hfound, hblocked, -⟩ := ((system.engineOf txn).openDatabase_cases
        (system.native txn) (name.map Bytes.ofText) flags).2 slot (by rw [hopen])
      exact hfront hfound hblocked
  | @dropped database engine hdrop =>
      obtain ⟨⟨found, hfound, hblocked, -⟩, -⟩ :=
        ((system.engineOf txn).drop_cases (system.native txn) database.slot true).2 (by rw [hdrop])
      exact hfront hfound hblocked
  | @received child hcommit hparent =>
      have hchildEnv := hsound.anchored.parent_env child txn hparent
      exact (hsound.commit_nested hcommit hparent).2.2 inner (henv.trans hchildEnv) hinner
  | handed hcommit =>
      cases hparent : (system.transaction txn).parent with
      | none =>
          exact absurd hinner
            ((hsound.commit_root hcommit hparent (hsound.of_writes hwrites).1).2 inner henv)
      | some parent =>
          exact Nat.le_trans ((hsound.commit_nested hcommit hparent).2.2 inner henv hinner)
            (Nat.le_of_lt (hsound.anchored.parent_lt txn parent hparent))

/-- The scope of a transaction stays as it is while one inside it writes. -/
theorem Sound.scope_kept (h : Sound system) (hwrites : Writes system txn) {inner : TxnId}
    (hlt : txn < inner) (henv : (system.transaction inner).env = (system.transaction txn).env)
    (hbefore : Writes system inner) (hinner : Writes (system.after action) inner) :
    (system.after action).scope txn = system.scope txn := by
  rcases h.touched action txn with hsame | ⟨-, htouched⟩
  · exact hsame
  · exact absurd (htouched.front h hwrites henv hbefore hinner) (Nat.not_le_of_lt hlt)

/-! ## Lineages of transactions that live -/

/-- A transaction that only reads, or that its engine has among the writers. -/
def Serves (system : System) (txn : TxnId) : Prop :=
  (system.transaction txn).readOnly = true ∨ Writes system txn

/-- A transaction that has a parent and serves writes, and so does its parent. -/
theorem Sound.writes_outer (h : Sound system) (hserves : Serves system txn) {parent : TxnId}
    (hparent : (system.transaction txn).parent = some parent) :
    Writes system txn ∧ Writes system parent := by
  rcases hserves with hreader | hwrites
  · rw [h.attended.root txn hreader] at hparent
    simp at hparent
  refine ⟨hwrites, ?_⟩
  obtain ⟨ids, hchain⟩ := h.chained (system.transaction txn).env
  obtain ⟨inner, rest, rfl⟩ := List.append_of_mem ((hchain.writes_iff h.anchored rfl).mp hwrites)
  have hnested := hchain.nested.suffix (List.suffix_append inner (txn :: rest))
  have hhead : rest.head? = some parent := hnested.1.symm.trans hparent
  refine (hchain.writes_iff h.anchored (h.anchored.parent_env txn parent hparent)).mpr ?_
  exact List.mem_append_right _ (List.mem_cons_of_mem _ (List.mem_of_mem_head? hhead))

/-- The transactions around one that writes do so too. -/
theorem Sound.writes_lineage (h : Sound system) (hwrites : Writes system txn) {outer : TxnId}
    (hmem : outer ∈ system.lineage txn) :
    Writes system outer ∧ (system.transaction outer).env = (system.transaction txn).env := by
  induction txn using Nat.strongRecOn with
  | ind txn ih =>
      rw [lineage_eq h.anchored] at hmem
      rcases List.mem_cons.mp hmem with rfl | hmem
      · exact ⟨hwrites, rfl⟩
      · cases hparent : (system.transaction txn).parent with
        | none => simp [hparent] at hmem
        | some parent =>
            rw [hparent] at hmem
            obtain ⟨hwritesOuter, henv⟩ := ih parent (h.anchored.parent_lt txn parent hparent)
              (h.writes_outer (.inr hwrites) hparent).2 hmem
            exact ⟨hwritesOuter, henv.trans (h.anchored.parent_env txn parent hparent)⟩

/-- A transaction that serves after an action did so before it, unless the action began it. -/
theorem Sound.serves_back (h : Sound system) (htxn : txn < system.transactions.length)
    (hserves : Serves (system.after action) txn) : Serves system txn := by
  refine hserves.imp (fun hreader ↦ ?_) (h.writes_back htxn)
  exact (congrArg (·.2.2.1) ((h.transition action).identity htxn)).symm.trans hreader

/-- No action changes the lineage of a transaction that was there before. -/
theorem Sound.lineage_kept (h : Sound system) (htxn : txn < system.transactions.length) :
    (system.after action).lineage txn = system.lineage txn := by
  have hafter := (h.act action).anchored
  induction txn using Nat.strongRecOn with
  | ind txn ih =>
      have hparent : ((system.after action).transaction txn).parent
          = (system.transaction txn).parent :=
        congrArg (·.2.2.2) ((h.transition action).identity htxn)
      rw [lineage_eq hafter, lineage_eq h.anchored, hparent]
      cases hfound : (system.transaction txn).parent with
      | none => rfl
      | some parent =>
          have hlt := h.anchored.parent_lt txn parent hfound
          exact congrArg (txn :: ·) (ih parent hlt (Nat.lt_trans hlt htxn))

/-- The nearest of a transaction and those around it that began before the one with a number. -/
def boundary (system : System) (first txn : TxnId) : Option TxnId :=
  (system.lineage txn).find? (· < first)

/-- The generation of a slot that is live around the transactions of a lineage that began from a
number on. -/
def outerGeneration (system : System) (first txn : TxnId) (slot : Nat) : Option Nat :=
  match system.boundary first txn with
  | some older => system.liveGeneration older slot
  | none => (system.retained (system.transaction txn).env).lookup slot

/-- No transaction of a lineage that began from a number on has dropped a slot. -/
def Undropped (system : System) (first : TxnId) (slot : Nat) (txn : TxnId) : Prop :=
  ∀ scope ∈ system.lineage txn, first ≤ scope → slot ∉ (system.transaction scope).dropped

/-- A transaction that has opened a slot has done so at one generation. -/
def Agrees (system : System) (slot generation : Nat) (txn : TxnId) : Prop :=
  ∀ found, (system.transaction txn).opened.lookup slot = some found → found = generation

/-- A transaction nested in one of those that began from a number on has the same boundary. -/
theorem boundary_parent (h : Anchored system) {parent : TxnId} (hfirst : first ≤ txn)
    (hparent : (system.transaction txn).parent = some parent) :
    system.boundary first parent = system.boundary first txn := by
  have hnot : ¬ txn < first := Nat.not_lt_of_le hfirst
  rw [boundary, boundary, lineage_eq h txn, hparent]
  simp [hnot]

/-- The boundary of a root that began from a number on is the environment. -/
theorem boundary_root (h : Anchored system) (hfirst : first ≤ txn)
    (hparent : (system.transaction txn).parent = none) : system.boundary first txn = none := by
  have hnot : ¬ txn < first := Nat.not_lt_of_le hfirst
  rw [boundary, lineage_eq h txn, hparent]
  simp [hnot]

/-- A transaction that began before a number is its own boundary. -/
theorem boundary_of_lt (h : Anchored system) (hlt : txn < first) :
    system.boundary first txn = some txn := by
  rw [boundary, lineage_eq h txn]
  simp [hlt]

/-- What is live around a transaction is live around those nested in it. -/
theorem outerGeneration_parent (h : Anchored system) {parent : TxnId} (hfirst : first ≤ txn)
    (hparent : (system.transaction txn).parent = some parent) (slot : Nat) :
    system.outerGeneration first parent slot = system.outerGeneration first txn slot := by
  rw [outerGeneration, outerGeneration, boundary_parent h hfirst hparent,
    h.parent_env txn parent hparent]

/-- A lineage in which nothing was dropped, without its innermost member. -/
theorem Undropped.parent (h : Undropped system first slot txn) (hanchored : Anchored system)
    {parent : TxnId} (hparent : (system.transaction txn).parent = some parent) :
    Undropped system first slot parent := by
  intro scope hmem
  refine h scope ?_
  rw [lineage_eq hanchored, hparent]
  exact List.mem_cons_of_mem _ hmem

/-- A lineage in which nothing was dropped, with a member more that has not dropped the slot. -/
theorem Undropped.child (h : Undropped system first slot txn) (hanchored : Anchored system)
    {child : TxnId} (hparent : (system.transaction child).parent = some txn)
    (hchild : slot ∉ (system.transaction child).dropped) : Undropped system first slot child := by
  intro scope hmem
  rw [lineage_eq hanchored, hparent] at hmem
  rcases List.mem_cons.mp hmem with rfl | hmem
  · exact fun _ ↦ hchild
  · exact h scope hmem

/-- A transaction of a lineage in which nothing was dropped. -/
theorem Undropped.self (h : Undropped system first slot txn) (hanchored : Anchored system)
    (hfirst : first ≤ txn) : slot ∉ (system.transaction txn).dropped := by
  refine h txn ?_ hfirst
  rw [lineage_eq hanchored]
  exact List.mem_cons_self

/-! ## Transactions that can only pass a generation on -/

/-- Every transaction that began from a number on, in whose lineage since then nothing dropped the
slot, and around which a generation is live, agrees with that generation. The boundaries are
confined to those that a condition allows. -/
def Loyal (system : System) (env : EnvId) (slot generation : Nat) (first : TxnId)
    (bounds : Option TxnId → Prop) : Prop :=
  ∀ txn, first ≤ txn → (system.transaction txn).env = env → Serves system txn →
    bounds (system.boundary first txn) → Undropped system first slot txn →
    system.outerGeneration first txn slot = some generation → Agrees system slot generation txn

variable {bounds : Option TxnId → Prop}

/-- The generation is live in the transactions that can only pass it on. -/
theorem Loyal.live (h : Loyal system env slot generation first bounds) (hsound : Sound system)
    (hfirst : first ≤ txn) (henv : (system.transaction txn).env = env) (hserves : Serves system txn)
    (hbounds : bounds (system.boundary first txn)) (hclean : Undropped system first slot txn)
    (houter : system.outerGeneration first txn slot = some generation) :
    system.liveGeneration txn slot = some generation := by
  induction txn using Nat.strongRecOn with
  | ind txn ih =>
      have hagrees := h txn hfirst henv hserves hbounds hclean houter
      rw [liveGeneration_eq hsound.anchored, Transaction.record?]
      cases hlookup : (system.transaction txn).opened.lookup slot with
      | some found => exact congrArg some (hagrees found hlookup)
      | none =>
          have hdropped := hclean.self hsound.anchored hfirst
          simp only [List.contains_eq_mem, hdropped, decide_false]
          cases hparent : (system.transaction txn).parent with
          | none =>
              rw [outerGeneration, boundary_root hsound.anchored hfirst hparent] at houter
              exact houter
          | some parent =>
              have hlt := hsound.anchored.parent_lt txn parent hparent
              have houterParent := outerGeneration_parent hsound.anchored hfirst hparent slot
              rcases Nat.lt_or_ge parent first with holder | hparentFirst
              · rw [outerGeneration, boundary_of_lt hsound.anchored holder] at houterParent
                exact houterParent.trans houter
              · exact ih parent hlt hparentFirst
                  ((hsound.anchored.parent_env txn parent hparent).trans henv)
                  (.inr (hsound.writes_outer hserves hparent).2)
                  (boundary_parent hsound.anchored hfirst hparent ▸ hbounds)
                  (hclean.parent hsound.anchored hparent) (houterParent.trans houter)

/-- What was not dropped in a lineage after an action was not before it, in the outer members. -/
theorem Undropped.back (h : Undropped (system.after action) first slot txn) (hsound : Sound system)
    (hlt : txn < system.transactions.length) (hserves : Serves (system.after action) txn)
    (hself : slot ∉ (system.transaction txn).dropped) : Undropped system first slot txn := by
  intro scope hmem hfirst
  rcases Nat.eq_or_lt_of_le (le_of_mem_lineage hsound.anchored hmem) with rfl | hscope
  · exact hself
  have hbefore := hsound.serves_back hlt hserves
  have hafter := h scope ((hsound.lineage_kept hlt).symm ▸ hmem) hfirst
  rcases hserves with hreader | hwrites
  · -- A transaction that only reads is alone in its lineage.
    have hreaderBefore : (system.transaction txn).readOnly = true :=
      (congrArg (·.2.2.1) ((hsound.transition action).identity hlt)).symm.trans hreader
    rw [lineage_eq hsound.anchored, hsound.attended.root txn hreaderBefore] at hmem
    exact absurd (List.mem_singleton.mp hmem) (Nat.ne_of_lt hscope)
  · have hwritesBefore := hsound.writes_back hlt hwrites
    obtain ⟨hwritesOuter, henv⟩ := hsound.writes_lineage hwritesBefore hmem
    have hkept := hsound.scope_kept hwritesOuter hscope henv.symm hwritesBefore hwrites
    rwa [show ((system.after action).transaction scope).dropped
      = (system.transaction scope).dropped from congrArg (·.2) hkept] at hafter

/-- A transaction that the action touches still agrees with a generation that was live for it,
unless it has now dropped the slot. What it receives from a nested transaction agrees as well. -/
theorem Touched.agrees {scope : Opens × List Nat} (h : Touched system txn scope action)
    (hundropped : slot ∉ scope.2)
    (hlive : slot ∉ (system.transaction txn).dropped →
      system.liveGeneration txn slot = some generation)
    (hagrees : slot ∉ (system.transaction txn).dropped → Agrees system slot generation txn)
    (hchild : ∀ child, (system.commit child).result = .ok () →
      (system.transaction child).parent = some txn → slot ∉ (system.transaction txn).dropped →
      slot ∉ (system.transaction child).dropped → Agrees system slot generation child)
    {found : Nat} (hfound : scope.1.lookup slot = some found) : found = generation := by
  cases h with
  | @opened name flags slot' generation' engine hopen hgeneration hscope =>
      subst hscope
      by_cases hslot : slot = slot'
      · subst hslot
        obtain rfl : generation' = found := by simpa using hfound
        rw [hlive hundropped] at hgeneration
        rcases hgeneration with hsame | ⟨hnone, -⟩
        · exact (Option.some.inj hsame).symm
        · simp at hnone
      · have hne : (slot == slot') = false := by simpa using hslot
        exact hagrees hundropped found (by simpa [List.lookup_cons, hne] using hfound)
  | @dropped database engine hdrop hscope =>
      subst hscope
      obtain ⟨hslot, hdropped⟩ := not_or.mp (fun h ↦ hundropped (List.mem_cons.mpr h))
      have hkept : decide (slot ≠ database.slot) = true := by simpa using hslot
      rw [lookup_filter _ fun head ↦ decide (head ≠ database.slot), if_pos hkept] at hfound
      exact hagrees hdropped found hfound
  | @received child hcommit hparent hscope =>
      subst hscope
      obtain ⟨hchildDropped, hdropped⟩ :=
        not_or.mp (fun h ↦ hundropped (List.mem_append.mpr h))
      rw [lookup_merge, if_neg hchildDropped] at hfound
      rcases Option.or_eq_some_iff.mp hfound with hinner | ⟨-, houter⟩
      · exact hchild child hcommit hparent hdropped hchildDropped found hinner
      · exact hagrees hdropped found houter
  | handed hcommit hscope =>
      subst hscope
      simp at hfound

/-- Transactions stay such that they can only pass a generation on, if the action does not make it
live around one that lives. -/
theorem Loyal.act (h : Loyal system env slot generation first bounds) (hsound : Sound system)
    (houter : ∀ txn < system.transactions.length, first ≤ txn →
      (system.transaction txn).env = env → Serves (system.after action) txn →
      bounds (system.boundary first txn) →
      (system.after action).outerGeneration first txn slot = some generation →
      system.outerGeneration first txn slot = some generation) :
    Loyal (system.after action) env slot generation first bounds := by
  intro txn hfirst henv hserves hbounds hclean hlive found hfound
  have htransition := hsound.transition action
  have hafter := (hsound.act action).anchored
  rcases Nat.lt_or_ge txn system.transactions.length with hlt | hge
  swap
  · -- A transaction that has just begun has recorded nothing.
    have hnothing : (system.after action).scope txn = ([], []) := by
      rcases hsound.touched action txn with hsame | ⟨hlt, -⟩
      · exact hsame.trans (scope_of_length_le hge)
      · exact absurd hlt (Nat.not_lt_of_le hge)
    rw [show ((system.after action).transaction txn).opened = [] from congrArg (·.1) hnothing]
      at hfound
    simp at hfound
  have hbefore := hsound.serves_back hlt hserves
  have henvBefore : (system.transaction txn).env = env :=
    (congrArg (·.1) (htransition.identity hlt)).symm.trans henv
  have hboundsBefore : bounds (system.boundary first txn) := by
    rwa [boundary, hsound.lineage_kept hlt] at hbounds
  have hliveBefore := houter txn hlt hfirst henvBefore hserves hboundsBefore hlive
  have hdroppedAfter := hclean.self hafter hfirst
  have hcleanBefore := hclean.back hsound hlt hserves
  have hopened : ((system.after action).scope txn).1.lookup slot = some found := hfound
  have hundropped : slot ∉ ((system.after action).scope txn).2 := hdroppedAfter
  rcases hsound.touched action txn with hsame | ⟨-, htouched⟩
  · rw [hsame] at hopened hundropped
    exact h txn hfirst henvBefore hbefore hboundsBefore (hcleanBefore hundropped) hliveBefore found
      hopened
  refine htouched.agrees hundropped
    (fun hdropped ↦ h.live hsound hfirst henvBefore hbefore hboundsBefore (hcleanBefore hdropped)
      hliveBefore)
    (fun hdropped ↦ h txn hfirst henvBefore hbefore hboundsBefore (hcleanBefore hdropped)
      hliveBefore) (fun child hcommit hparent hdropped hchildDropped ↦ ?_) hopened
  have hfirstChild : first ≤ child :=
    Nat.le_trans hfirst (Nat.le_of_lt (hsound.anchored.parent_lt child txn hparent))
  refine h child hfirstChild ((hsound.anchored.parent_env child txn hparent).symm.trans henvBefore)
    (.inr (hsound.commit_nested hcommit hparent).1)
    (boundary_parent hsound.anchored hfirstChild hparent ▸ hboundsBefore)
    ((hcleanBefore hdropped).child hsound.anchored hparent hchildDropped) ?_
  exact (outerGeneration_parent hsound.anchored hfirstChild hparent slot).symm.trans hliveBefore

/-! ## From the open to its commit -/

/-- A transaction whose commit succeeds is committed. -/
theorem state_of_commit (hcommit : (system.commit txn).result = .ok ()) :
    ((system.after (.commit txn)).transaction txn).state = .committed := by
  obtain ⟨engine, hfault, -, hstate⟩ := commit_ok hcommit
  have hlength : txn < ((system.setEngineOf txn engine).handOver txn).transactions.length := by
    rw [length_handOver]
    exact lt_of_lifecycleFault hfault
  rw [show system.after (.commit txn) = _ from hstate,
    field_finish_self (·.state) (fun _ _ ↦ by rfl) .committed hlength]

/-- A transaction whose commit succeeds has ended. -/
theorem finished_of_commit (hcommit : (system.commit txn).result = .ok ()) :
    ((system.after (.commit txn)).transaction txn).state.isFinished = true := by
  rw [state_of_commit hcommit]
  rfl

/-- An action by which a transaction comes to have one more drop of a slot: a drop through it, or
the commit of a nested transaction that has dropped the slot. -/
def TakesDrop (slot : Nat) (txn : TxnId) (system : System) (action : Action) : Prop :=
  (system.transaction txn).dropped.count slot
    < ((system.after action).transaction txn).dropped.count slot

instance (slot : Nat) (txn : TxnId) (system : System) (action : Action) :
    Decidable (TakesDrop slot txn system action) :=
  inferInstanceAs (Decidable (_ < _))

/-- A generation that an open has recorded for a slot, or that commits of nested transactions have
passed on to the one that carries it now. Those nested in that one can only pass it on as well. -/
structure Carried (system : System) (env : EnvId) (slot generation : Nat) (carrier : TxnId) :
    Prop where
  lt : carrier < system.transactions.length
  env_eq : (system.transaction carrier).env = env
  opened : (system.transaction carrier).state.isFinished = false →
    (system.transaction carrier).opened.lookup slot = some generation
  loyal : Loyal system env slot generation (carrier + 1) (· = some carrier)

variable {carrier : TxnId}

/-- A generation that is carried is live in the transaction that carries it. -/
theorem Carried.live (h : Carried system env slot generation carrier) (hsound : Sound system)
    (hunfinished : (system.transaction carrier).state.isFinished = false) :
    system.liveGeneration carrier slot = some generation := by
  rw [liveGeneration_eq hsound.anchored, Transaction.record?, h.opened hunfinished]

/-- The boundary of a transaction is one of those around it. -/
theorem Sound.boundary_writes (h : Sound system) (hserves : Serves system txn) (hfirst : first ≤ txn)
    {older : TxnId} (hboundary : system.boundary first txn = some older) :
    Writes system txn ∧ Writes system older ∧ older ∈ system.lineage txn ∧ older < first := by
  have hmem : older ∈ system.lineage txn := List.mem_of_find?_eq_some hboundary
  have hlt : older < first := by simpa using List.find?_some hboundary
  cases hparent : (system.transaction txn).parent with
  | none => simp [boundary_root h.anchored hfirst hparent] at hboundary
  | some parent =>
      have hwrites := (h.writes_outer hserves hparent).1
      exact ⟨hwrites, (h.writes_lineage hwrites hmem).1, hmem, hlt⟩

/-- The generation is carried on, unless the transaction that carries it takes a drop of the
slot. -/
theorem Carried.act (h : Carried system env slot generation carrier) (hsound : Sound system)
    (hdrop : ¬ TakesDrop slot carrier system action) :
    Carried (system.after action) env slot generation carrier := by
  have htransition := hsound.transition action
  refine ⟨htransition.lt_length h.lt,
    (congrArg (·.1) (htransition.identity h.lt)).trans h.env_eq, fun hunfinished ↦ ?_,
    h.loyal.act hsound ?_⟩
  · have hbefore := hsound.unfinished_back h.lt hunfinished
    have hopened := h.opened hbefore
    have hcount : ((system.after action).scope carrier).2.count slot
        ≤ (system.transaction carrier).dropped.count slot := Nat.le_of_not_lt hdrop
    change ((system.after action).scope carrier).1.lookup slot = some generation
    rcases hsound.touched action carrier with hsame | ⟨-, htouched⟩
    · rw [hsame]
      exact hopened
    generalize (system.after action).scope carrier = scope at htouched hcount ⊢
    cases htouched with
    | @opened name flags slot' generation' engine hopen hgeneration hscope =>
        subst hscope
        by_cases hslot : slot = slot'
        · subst hslot
          rw [h.live hsound hbefore] at hgeneration
          rcases hgeneration with hsame | ⟨hnone, -⟩
          · rw [Option.some.inj hsame]
            simp
          · simp at hnone
        · have hne : (slot == slot') = false := by simpa using hslot
          simpa [List.lookup_cons, hne] using hopened
    | @dropped database engine hengine hscope =>
        subst hscope
        have hslot : slot ≠ database.slot := by
          rintro rfl
          rw [List.count_cons_self] at hcount
          exact Nat.not_succ_le_self _ hcount
        have hkept : decide (slot ≠ database.slot) = true := by simpa using hslot
        dsimp only
        rw [lookup_filter _ fun head ↦ decide (head ≠ database.slot), if_pos hkept]
        exact hopened
    | @received child hcommit hparent hscope =>
        subst hscope
        have hchildDropped : slot ∉ (system.transaction child).dropped := by
          rw [List.count_append] at hcount
          exact List.count_eq_zero.mp (by omega)
        -- What the child has recorded wins in the merge. It is loyal to the carrier, so it has
        -- recorded no other generation of the slot.
        have hlt := hsound.anchored.parent_lt child carrier hparent
        have hself := boundary_of_lt hsound.anchored (Nat.lt_succ_self carrier)
        have hboundary := (boundary_parent hsound.anchored hlt hparent).symm.trans hself
        have hagrees := h.loyal child hlt
          ((hsound.anchored.parent_env child carrier hparent).symm.trans h.env_eq)
          (.inr (hsound.commit_nested hcommit hparent).1) hboundary
          (Undropped.child (fun scope hmem hle ↦ absurd (le_of_mem_lineage hsound.anchored hmem)
            (Nat.not_le_of_lt hle)) hsound.anchored hparent hchildDropped)
          (by rw [outerGeneration, hboundary]; exact h.live hsound hbefore)
        dsimp only
        rw [lookup_merge, if_neg hchildDropped, hopened]
        cases hlookup : (system.transaction child).opened.lookup slot with
        | none => rfl
        | some found => exact congrArg some (hagrees found hlookup)
    | handed hcommit hscope =>
        simp [finished_of_commit hcommit] at hunfinished
  -- Around a transaction that is nested in the carrier, what is live is what the carrier sees.
  · rintro txn hlt hfirst henv hserves hboundary -
    obtain ⟨-, hwrites, -⟩ :=
      hsound.boundary_writes (hsound.serves_back hlt hserves) hfirst hboundary
    rw [outerGeneration, hboundary]
    exact h.live hsound (by rw [(hsound.of_writes hwrites).2]; rfl)

/-- What an open has recorded is carried by its transaction. -/
theorem carried_of_open {name : Option String} {flags : DbFlags} {database : Database}
    (hsound : Sound system) (hopen : (system.openThrough txn name flags).result = .ok database) :
    Carried (system.after (.openDatabase txn name flags)) database.env database.slot
      database.generation txn := by
  have htransition := hsound.transition (.openDatabase txn name flags)
  obtain ⟨engine, hopened⟩ := openedThrough_of_ok hopen
  have htxn := lt_of_lifecycleFault hopened.fault
  obtain ⟨found, hfound, hblocked, -⟩ := ((system.engineOf txn).openDatabase_cases
    (system.native txn) (name.map Bytes.ofText) flags).2 database.slot (by rw [hopened.answer])
  refine ⟨htransition.lt_length htxn,
    (congrArg (·.1) (htransition.identity htxn)).trans hopened.env_eq.symm, fun _ ↦ ?_, ?_⟩
  · rw [hopened.opened_eq]
    simp
  -- The transaction is the innermost writer, or only reads, so nothing is nested in it.
  intro inner hfirst henv hserves hboundary
  obtain ⟨hinner, hwrites, -⟩ :=
    (hsound.act (.openDatabase txn name flags)).boundary_writes hserves hfirst hboundary
  have hinnerLt : inner < system.transactions.length := htransition.length_kept nofun ▸ hinner.1
  have hinnerEnv := (congrArg (·.1) (htransition.identity hinnerLt)).symm.trans henv
  have hbefore := hsound.writes_back htxn hwrites
  have hinnermost := (hsound.innermost htxn hfound (hsound.known hbefore hfound) hblocked).2 inner
    (hinnerEnv.trans hopened.env_eq) (hsound.writes_back hinnerLt hinner)
  exact absurd hfirst (Nat.not_le_of_lt (Nat.lt_succ_of_le hinnermost))

/-- A commit passes on to the parent what the transaction carried. -/
theorem Carried.outwards (h : Carried system env slot generation carrier) (hsound : Sound system)
    {parent : TxnId} (hparent : (system.transaction carrier).parent = some parent)
    (hcommit : (system.commit carrier).result = .ok ()) :
    Carried (system.after (.commit carrier)) env slot generation parent := by
  have htransition := hsound.transition (.commit carrier)
  have hlt := hsound.anchored.parent_lt carrier parent hparent
  have hparentEnv := (hsound.anchored.parent_env carrier parent hparent).trans h.env_eq
  obtain ⟨hwrites, hparentWrites, hinnermost⟩ := hsound.commit_nested hcommit hparent
  obtain ⟨-, houter, -, -⟩ := scopes_commit_nested hsound.anchored hcommit hparent
  have hlength := htransition.length_commit
  refine ⟨hlength ▸ hparentWrites.1,
    (congrArg (·.1) (htransition.identity hparentWrites.1)).trans hparentEnv, fun _ ↦ ?_, ?_⟩
  · have hopened := h.opened (by rw [(hsound.of_writes hwrites).2]; rfl)
    rw [show ((system.after (.commit carrier)).transaction parent).opened = _ from
      congrArg (·.1) houter]
    exact Opens.lookup_merge_of_some hopened
  · -- The parent is the innermost writer now, so nothing is nested in it.
    intro inner hfirst henv hserves hboundary
    obtain ⟨hinner, -⟩ := (hsound.act (.commit carrier)).boundary_writes hserves hfirst hboundary
    have hinnerLt : inner < system.transactions.length := hlength ▸ hinner.1
    have hinnerEnv := (congrArg (·.1) (htransition.identity hinnerLt)).symm.trans henv
    exact absurd hfirst (Nat.not_le_of_lt (Nat.lt_succ_of_le
      (hinnermost inner (hinnerEnv.trans h.env_eq.symm) hinner)))

/-- What is carried stays so along a run in which the transaction takes no drop of the slot. -/
theorem Carried.run {last : System} (h : Carried system env slot generation carrier)
    (hsound : Sound system)
    (hrun : Run (fun before action ↦ ¬ TakesDrop slot carrier before action) system last) :
    Carried last env slot generation carrier := by
  induction hrun with
  | nil => exact h
  | step run hdrop ih => exact ih.act (hsound.run run) hdrop

/-- Runs in which a transaction and then each of its ancestors commits, up to the root. Anything may
happen before each of the commits, but the transaction that commits next takes no drop of the
slot. -/
inductive CarriedUndropped (slot : Nat) : System → TxnId → System → Prop where
  | root {first last : System} {txn : TxnId}
      (run : Run (fun system action ↦ ¬ TakesDrop slot txn system action) first last)
      (hparent : (last.transaction txn).parent = none)
      (hcommit : (last.commit txn).result = .ok ()) :
      CarriedUndropped slot first txn (last.after (.commit txn))
  | nested {first last committed : System} {txn parent : TxnId}
      (run : Run (fun system action ↦ ¬ TakesDrop slot txn system action) first last)
      (hparent : (last.transaction txn).parent = some parent)
      (hcommit : (last.commit txn).result = .ok ())
      (h : CarriedUndropped slot (last.after (.commit txn)) parent committed) :
      CarriedUndropped slot first txn committed

/-- Carrying an open to the root is a run. -/
theorem CarriedUndropped.run {committed : System} (h : CarriedUndropped slot system txn committed) :
    Run anything system committed := by
  induction h with
  | root run => exact run.anything.step trivial
  | nested run _ _ _ ih => exact (run.anything.step trivial).trans ih

/-! ## After the commit -/

/-- A generation that an environment retains, and that transactions from a number on can only pass
on. -/
structure Lasting (system : System) (env : EnvId) (slot generation : Nat) (first : TxnId) :
    Prop where
  env_lt : env < system.environments.length
  first_le : first ≤ system.transactions.length
  retained : (system.retained env).lookup slot = some generation
  loyal : Loyal system env slot generation first fun _ ↦ True

/-- What a root carries lasts from its commit on. -/
theorem Carried.lasting (h : Carried system env slot generation carrier) (hsound : Sound system)
    (hparent : (system.transaction carrier).parent = none)
    (hcommit : (system.commit carrier).result = .ok ()) :
    Lasting (system.after (.commit carrier)) env slot generation
      (system.after (.commit carrier)).transactions.length := by
  have htransition := hsound.transition (.commit carrier)
  have henvLt : env < system.environments.length := h.env_eq ▸ hsound.anchored.env_lt carrier h.lt
  have hunfinished := unfinished_of_lifecycleFault (lifecycleFault_of_commit hcommit)
  refine ⟨Nat.lt_of_lt_of_le henvLt htransition.length.2, Nat.le_refl _, ?_, ?_⟩
  · have hretained := hsound.retained_commit_root hcommit hparent slot
    rw [h.env_eq] at hretained
    exact hretained.trans (h.live hsound hunfinished)
  · intro later hfirst _ _ _ _ _ found hfound
    simp [transaction_of_length_le hfirst, Transaction.ended] at hfound

/-- What has been carried to the root lasts. -/
theorem CarriedUndropped.lasting {committed : System}
    (h : CarriedUndropped slot system txn committed) (hsound : Sound system)
    (hcarried : Carried system env slot generation txn) :
    Lasting committed env slot generation committed.transactions.length := by
  induction h with
  | root run hparent hcommit =>
      exact (hcarried.run hsound run).lasting (hsound.run run) hparent hcommit
  | nested run hparent hcommit _ ih =>
      have hlast := hsound.run run
      exact ih (hlast.act _) ((hcarried.run hsound run).outwards hlast hparent hcommit)

/-- The commit of a root that began before the one with a number and has recorded an open of a slot
at another generation. -/
structure Overtakes (env : EnvId) (slot generation : Nat) (first : TxnId) (system : System)
    (root : TxnId) : Prop where
  lt : root < first
  env_eq : (system.transaction root).env = env
  parent : (system.transaction root).parent = none
  committed : (system.commit root).result = .ok ()
  opened : ∃ other ≠ generation, (system.transaction root).opened.lookup slot = some other

/-- The actions that can displace what an environment retains for a slot: closing it, the commit of
a root that has dropped the slot, and the commit of an older root that has opened the slot at
another generation. -/
inductive Displaces (env : EnvId) (slot generation : Nat) (first : TxnId) (system : System) :
    Action → Prop where
  | closed (h : (system.close env).result = .ok ()) :
      Displaces env slot generation first system (.close env)
  | dropped {root : TxnId} (henv : (system.transaction root).env = env)
      (hparent : (system.transaction root).parent = none)
      (hcommit : (system.commit root).result = .ok ())
      (hdropped : slot ∈ (system.transaction root).dropped) :
      Displaces env slot generation first system (.commit root)
  | overtaken {root : TxnId} (h : Overtakes env slot generation first system root) :
      Displaces env slot generation first system (.commit root)

/-- What lasts is still retained after an action that does not displace it. -/
theorem Lasting.retained_kept (h : Lasting system env slot generation first) (hsound : Sound system)
    (hdisplaces : ¬ Displaces env slot generation first system action) :
    ((system.after action).retained env).lookup slot = some generation := by
  have hrescoped := (hsound.transition action).rescoped hsound.anchored
  generalize system.after action = after at *
  cases hrescoped with
  | same _ hretained => rw [hretained env h.env_lt, h.retained]
  | opened _ _ _ _ _ hretained | dropped _ _ _ _ hretained | nested _ _ _ _ _ _ hretained =>
      rw [hretained env, h.retained]
  | @closed closing after hactive _ hretained =>
      rcases hretained env with hsame | ⟨rfl, -⟩
      · rw [hsame, h.retained]
      · refine absurd (.closed ?_) hdisplaces
        unfold System.close
        dsimp only
        split
        · rfl
        · rw [if_neg (by rw [hactive]; exact Nat.lt_irrefl 0)]
  | @root root after hfault hcommit hparent _ _ hretained hapart =>
      by_cases henv : (system.transaction root).env = env
      swap
      · rw [hapart env (Ne.symm henv), h.retained]
      subst henv
      have hundropped : slot ∉ (system.transaction root).dropped := fun hdropped ↦
        hdisplaces (.dropped rfl hparent hcommit hdropped)
      have hagrees : Agrees system slot generation root := by
        intro found hfound
        by_contra hne
        rcases Nat.lt_or_ge root first with hlt | hge
        · exact hdisplaces (.overtaken ⟨hlt, rfl, hparent, hcommit, found, hne, hfound⟩)
        · have hboundary := boundary_root hsound.anchored hge hparent
          refine hne (h.loyal root hge rfl ((hsound.commit_cases hcommit).imp_right And.left) trivial
            ?_ ?_ found hfound)
          · intro scope hmem _
            rw [lineage_eq hsound.anchored, hparent] at hmem
            rwa [List.mem_singleton.mp hmem]
          · rw [outerGeneration, hboundary]
            exact h.retained
      rw [hretained, lookup_merge, if_neg hundropped, h.retained]
      cases hlookup : (system.transaction root).opened.lookup slot with
      | none => rfl
      | some found => exact congrArg some (hagrees found hlookup)

/-- What lasts goes on to do so, unless the action displaces it. -/
theorem Lasting.act (h : Lasting system env slot generation first) (hsound : Sound system)
    (hdisplaces : ¬ Displaces env slot generation first system action) :
    Lasting (system.after action) env slot generation first := by
  have htransition := hsound.transition action
  have hretained := h.retained_kept hsound hdisplaces
  refine ⟨Nat.lt_of_lt_of_le h.env_lt htransition.length.2,
    Nat.le_trans h.first_le htransition.length_le, hretained, h.loyal.act hsound ?_⟩
  intro txn hlt hfirst henv hserves _ houter
  have hserves' := hsound.serves_back hlt hserves
  have hboundary : (system.after action).boundary first txn = system.boundary first txn := by
    rw [boundary, boundary, hsound.lineage_kept hlt]
  cases hfound : system.boundary first txn with
  | none =>
      rw [outerGeneration, hfound, henv]
      exact h.retained
  | some older =>
      obtain ⟨hwrites, hwritesOlder, hmem, holder⟩ := hsound.boundary_writes hserves' hfirst hfound
      have hwritesAfter : Writes (system.after action) txn := by
        refine hserves.resolve_left fun hreader ↦ ?_
        rw [show ((system.after action).transaction txn).readOnly = (system.transaction txn).readOnly
          from congrArg (·.2.2.1) (htransition.identity hlt), (hsound.of_writes hwrites).1] at hreader
        simp at hreader
      have henvOlder := (hsound.writes_lineage hwrites hmem).2
      rw [outerGeneration, hboundary, hfound] at houter
      rw [outerGeneration, hfound, ← houter]
      -- While the transaction lives, nothing changes in those around it.
      refine (liveGeneration_congr hsound.anchored (hsound.act action).anchored (fun other hle ↦ ?_)
        (fun outer houterMem ↦ ?_) ?_).symm
      · exact htransition.identity (Nat.lt_of_le_of_lt hle hwritesOlder.1)
      · obtain ⟨hwritesOuter, henvOuter⟩ := hsound.writes_lineage hwritesOlder houterMem
        refine hsound.scope_kept hwritesOuter ?_ (henvOuter.trans henvOlder).symm hwrites hwritesAfter
        exact Nat.lt_of_le_of_lt (le_of_mem_lineage hsound.anchored houterMem)
          (Nat.lt_of_lt_of_le holder hfirst)
      · rw [henvOlder, henv, hretained, h.retained]

/-- What lasts does so along a run in which nothing displaces it. -/
theorem Lasting.run {last : System} (h : Lasting system env slot generation first)
    (hsound : Sound system)
    (hrun : Run (fun before action ↦ ¬ Displaces env slot generation first before action) system
      last) : Lasting last env slot generation first := by
  induction hrun with
  | nil => exact h
  | step run hdisplaces ih => exact ih.act (hsound.run run) hdisplaces

/-- After a root with another generation has overtaken one, a root that begins rejects it. -/
theorem rejects_of_overtakes {database : Database} (hsound : Sound system) {root : TxnId}
    (hovertakes : Overtakes database.env database.slot database.generation first system root)
    {flags : TxnFlags} {thread : Nat} {later : TxnId}
    (hbegin : ((system.after (.commit root)).begin database.env none flags thread).result
      = .ok later) :
    ((system.after (.commit root)).begin database.env none flags thread).state.accepts later database
      = false := by
  obtain ⟨-, henv, hparent, hcommit, other, hne, hopened⟩ := hovertakes
  obtain ⟨-, -, hretained, -⟩ := scopes_commit_root hsound.anchored hcommit hparent
  have hkept : ((system.after (.commit root)).retained database.env).lookup database.slot
      = some other := by
    rw [← henv, show (system.after (.commit root)).retained _ = _ from hretained]
    exact Opens.lookup_merge_of_some hopened
  rw [accepts, liveGeneration_begin (hsound.act (.commit root)) hbegin, hkept]
  simpa using hne

/-- Once an open has been committed up to the root, every transaction begun later accepts its
handle, in whatever way transactions follow each other, up to a committed drop of the slot, the
closing of the environment, or the commit of an older root that has opened the slot at another
generation. Only two kinds of transactions begun later reject it: those that have themselves dropped
the slot or are nested in such a one begun later, and those nested in an older one that rejects it.
The commit of the older root does displace the handle: a root that begins next rejects it. -/
theorem open_retained {first committed last : System} {opener : TxnId} {name : Option String}
    {flags : DbFlags} {database : Database} (hfirst : Reachable first)
    (hopen : (first.openThrough opener name flags).result = .ok database)
    (hcarried : CarriedUndropped database.slot (first.after (.openDatabase opener name flags)) opener
      committed)
    (hrun : Run (fun system action ↦ ¬ Displaces database.env database.slot database.generation
      committed.transactions.length system action) committed last) :
    (∀ later ≥ committed.transactions.length, (last.transaction later).env = database.env →
        Serves last later →
        Undropped last committed.transactions.length database.slot later →
        (∀ older, last.boundary committed.transactions.length later = some older →
          last.accepts older database = true) →
        last.accepts later database = true) ∧
      ∀ root, Overtakes database.env database.slot database.generation
          committed.transactions.length last root →
        ∀ flags thread later,
          ((last.after (.commit root)).begin database.env none flags thread).result = .ok later →
          ((last.after (.commit root)).begin database.env none flags thread).state.accepts later
            database = false := by
  have hsound := hfirst.sound
  have hopened := hsound.act (.openDatabase opener name flags)
  have hcommitted := hopened.run hcarried.run
  have hlasting := (hcarried.lasting hopened (carried_of_open hsound hopen)).run hcommitted hrun
  have hlast := hcommitted.run hrun
  refine ⟨fun later hlater henv hserves hclean holder ↦ ?_,
    fun root hovertakes flags thread later hbegin ↦ rejects_of_overtakes hlast hovertakes hbegin⟩
  -- What a later transaction sees beyond itself and its younger ancestors is what its first older
  -- ancestor accepts, or what is retained if it has none.
  refine decide_eq_true (hlasting.loyal.live hlast hlater henv hserves trivial hclean ?_)
  cases hboundary : last.boundary committed.transactions.length later with
  | none =>
      rw [outerGeneration, hboundary, henv]
      exact hlasting.retained
  | some older =>
      rw [outerGeneration, hboundary]
      exact of_decide_eq_true (holder older hboundary)

/-- The main database, opened in a nested transaction and committed up to the root, is still
accepted after a reader has opened it again and has committed. -/
theorem open_retained_reopened :
    let first := sample.afterAll [.begin 0 none .empty mainThread, .begin 0 (some 1) .empty mainThread]
    let committed := first.afterAll [.openDatabase 2 none .empty, .commit 2, .commit 1]
    let last := committed.afterAll [.begin 0 none TxnFlags.readOnly mainThread,
      .openDatabase 3 none .empty, .commit 3, .begin 0 none .empty mainThread]
    (first.openThrough 2 none .empty).result = .ok ⟨1, 2, 0, none, .empty⟩ ∧
      last.accepts 4 ⟨1, 2, 0, none, .empty⟩ = true := by
  intro first committed last
  have hopen : (first.openThrough 2 none .empty).result = .ok ⟨1, 2, 0, none, .empty⟩ := by
    decide +kernel
  have hcarried : CarriedUndropped 1 (first.after (.openDatabase 2 none .empty)) 2 committed :=
    .nested .nil (by decide +kernel : _ = some 1) (by decide +kernel)
      (.root .nil (by decide +kernel) (by decide +kernel))
  have hrun : Run (fun system action ↦ ¬ Displaces 0 1 2 committed.transactions.length system action)
      committed last := by
    refine (((Run.single _ ?_).step ?_).step ?_).step ?_
    · rintro ⟨⟩
    · rintro ⟨⟩
    · rintro (_ | ⟨-, -, -, hdropped⟩ | ⟨⟨hlt, -⟩⟩)
      · exact absurd hdropped (by decide +kernel)
      · exact absurd hlt (by decide +kernel)
    · rintro ⟨⟩
  have hboundary : last.boundary committed.transactions.length 4 = none := by decide +kernel
  exact ⟨hopen, (open_retained (sample_reachable.run (Run.all _ _)) hopen hcarried hrun).1 4
    (by decide +kernel) (by decide +kernel) (.inr ⟨by decide +kernel, by decide +kernel⟩)
    (by unfold Undropped; decide +kernel) (by simp [hboundary])⟩

/-- Two transactions open the main database while neither its environment nor the other has a
generation for it, so each records its own. The commit of the second displaces what the first has
committed: a transaction that begins afterwards rejects the handle. -/
theorem open_displaced_by_concurrent_open :
    let database : Database := ⟨1, 2, 0, none, .empty⟩
    let first := sample.after (.begin 0 none TxnFlags.readOnly mainThread)
    let opened := first.after (.openDatabase 1 none .empty)
    let committed := opened.afterAll [.begin 0 none .empty mainThread, .openDatabase 2 none .empty,
      .commit 1]
    let last := committed.afterAll [.commit 2, .begin 0 none TxnFlags.readOnly mainThread]
    Reachable first ∧ first.checks = true ∧
      (first.openThrough 1 none .empty).result = .ok database ∧
      CarriedUndropped 1 opened 1 committed ∧ committed.transactions.length ≤ 3 ∧
      last.guardFault 3 { database := database, key := some [107] } = none ∧
      (last.get 3 database [107]).result = .error (.error (.databaseNotRetained 1)) := by
  intro database first opened committed last
  refine ⟨sample_reachable.run (Run.all sample [.begin 0 none TxnFlags.readOnly mainThread]),
    by decide +kernel, by decide +kernel, .root ?_ (by decide +kernel) (by decide +kernel),
    by decide +kernel, by decide +kernel, by decide +kernel⟩
  exact (Run.single _ (by decide +kernel)).step (by decide +kernel)

end System

end MappedStore
