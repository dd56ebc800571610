import Grandine.BlockProcessor.Metrics
import Grandine.Phase

/-!
# Validating blocks

`validate_block` and `validate_block_for_gossip` defer to the fork choice store
(`Store::validate_block_with_custom_state_transition`, `Store::validate_block_for_gossip`, not
among the sources) with a closure, then time themselves. The closures are translated here
(`validateBlockTransition`, `validateBlockForGossipCheck`); the store is any use of them. The
closure of `validate_block` moves the execution engine and the verifier into
`perform_state_transition`, so the store calls it at most once (`StoreRun`); the closure of
gossip validation only reads the processor, so the store may call it as it likes.

Both closures start from the block's pre-state: the state cache's state at or before the block's
slot on the parent's branch, or else the parent's state (`preState`). Before Capella, by the
block's phase and not the slot, `validate_block` sends a merge transition block through
`validate_merge_block` before the transition, and ignores it, unpublished, when that check does
(`mergeGate`).

An operation on the processor is a call of a cached method, a validation or a gossip
validation (`Op`); a run of them is `runOps`. What each operation does on the processor it finds
is said once (`Op.calls`, `Op.timings`): a call makes itself; a validation whose store calls the
closure makes its block's full transition on the pre-state exactly when the merge gate lets it
run; a gossip validation makes no call; each then times itself. Along a run, these give the
calls the run makes (`opsCalls`) and the timings it records (`opsTimings`).

* `validation_cache_sound`: over any run, the state cache moves exactly as the history semantics
  of `Grandine.BlockProcessor.Cache` says for the calls the run made, so it never loses nor
  replaces an entry, and every entry it gains is the result of one of those calls, under its
  own key;
* `metrics_window_of_runOps`: over any run from no metrics, the metrics of each name hold the
  last 100 of the durations the run timed under it, with their exact sum and the newest last.
-/

namespace Grandine

/-- The types of the fork choice store, opaque here. -/
structure StoreTypes where
  Store : Type
  /-- The parent of a block, as the store gives it to the closures. -/
  Parent : Type
  /-- The body of a post-Bellatrix block. -/
  Body : Type
  /-- `BlockAction`. -/
  BlockAction : Type

/-- `PartialBlockAction`. -/
inductive PartialBlockAction
  | accept
  | ignore
  deriving DecidableEq, Repr

/-- What validation calls besides the processor's methods. -/
structure Checks (T : Types) (S : StoreTypes) where
  /-- `StateCacheProcessor::before_or_at_slot(store, block_root, slot)`, which reads the
      cache. -/
  beforeOrAtSlot : (CacheKey → Option (StateWithRewards T)) → S.Store → H256 → Slot →
    Option T.State
  /-- `parent.block_root`. -/
  parentBlockRoot : S.Parent → H256
  /-- `parent.state(store)`. -/
  parentState : S.Parent → S.Store → T.State
  /-- `state.slot()`. -/
  stateSlot : T.State → Slot
  /-- `combined::process_slots`. -/
  processSlots : T.State → Slot → Except T.Error T.State
  /-- `combined::process_block_for_gossip`. -/
  processBlockForGossip : T.State → T.SignedBlock → Except T.Error Unit
  /-- `block.phase()`. -/
  phase : T.SignedBlock → Phase
  /-- `block.message().body().post_bellatrix()`. -/
  postBellatrixBody : T.SignedBlock → Option S.Body
  /-- `predicates::is_merge_transition_block`. -/
  isMergeTransitionBlock : T.State → S.Body → Bool
  /-- `validate_merge_block`. -/
  validateMergeBlock : T.SignedBlock → S.Body → T.ExecutionEngine →
    Except T.Error PartialBlockAction
  /-- `ProcessSlots::IfNeeded`. -/
  ifNeeded : T.ProcessSlots
  /-- `BlockAction::Ignore`. -/
  ignore : Bool → S.BlockAction

/-- Modelled from the spec: what `Store::validate_block_with_custom_state_transition` does with
    the closure of `validate_block`. It decides alone, or calls the closure once, with a block
    root and a parent, and decides from its answer; the transition then takes `elapsed`. -/
inductive StoreRun (T : Types) (S : StoreTypes)
  | decided (result : Except T.Error S.BlockAction)
  | transition (block_root : H256) (parent : S.Parent) (elapsed : Duration)
      (conclude : Except T.Error (T.State × Option S.BlockAction) → Except T.Error S.BlockAction)

namespace BlockProcessor

variable {T : Types} {S : StoreTypes} (chain : Chain T) (checks : Checks T S)

/-- The pre-state of `block` on `parent`: the cached state at or before the block's slot on the
    parent's branch, or else the parent's state. -/
def preState (bp : BlockProcessor T) (store : S.Store) (parent : S.Parent)
    (block : T.SignedBlock) : T.State :=
  (checks.beforeOrAtSlot bp.stateCache store (checks.parentBlockRoot parent)
    (chain.signedSlot block)).getD (checks.parentState parent store)

/-! ## Gossip -/

/-- The closure of `validate_block_for_gossip`: the pre-state, advanced to the block's slot if
    it is behind, checks the block for gossip; no action. -/
def validateBlockForGossipCheck (bp : BlockProcessor T) (store : S.Store) (block : T.SignedBlock)
    (parent : S.Parent) : Except T.Error (Option S.BlockAction) := do
  let block_slot := chain.signedSlot block
  let state := preState chain checks bp store parent block
  let state ← if checks.stateSlot state < block_slot then checks.processSlots state block_slot
    else pure state
  checks.processBlockForGossip state block
  pure none

/-- `BlockProcessor::validate_block_for_gossip`: the store's gossip validation, any use of the
    closure, then the metrics of `validate_block_for_gossip` take the time it took. -/
def validateBlockForGossip (bp : BlockProcessor T) (store : S.Store)
    (gossip : (S.Parent → Except T.Error (Option S.BlockAction)) →
      Except T.Error (Option S.BlockAction))
    (block : T.SignedBlock) (elapsed : Duration) :
    Except Panic (BlockProcessor T × Except T.Error (Option S.BlockAction)) := do
  let result := gossip (validateBlockForGossipCheck chain checks bp store block)
  let metrics ← updateMetrics bp.metrics "validate_block_for_gossip" elapsed
  pure ({ bp with metrics }, result)

/-! ## Full validation -/

/-- The merge transition gate of `validate_block`, on the pre-state: before Capella, a
    post-Bellatrix block that is the merge transition block goes through
    `validate_merge_block`, and is ignored, unpublished, when that check ignores it. `none` lets
    the transition run. -/
def mergeGate (block : T.SignedBlock) (state : T.State) (execution_engine : T.ExecutionEngine) :
    Except T.Error (Option S.BlockAction) :=
  if checks.phase block < .capella then
    match (checks.postBellatrixBody block).filter (checks.isMergeTransitionBlock state) with
    | some body => do
      match ← checks.validateMergeBlock block body execution_engine with
      | .accept => pure none
      | .ignore => pure (some (checks.ignore false))
    | none => pure none
  else pure none

/-- The closure of `validate_block`, called with the block's root and its parent: the merge
    gate on the pre-state, then `perform_state_transition` with `ProcessSlots::IfNeeded`, taking
    `elapsed`. -/
def validateBlockTransition (bp : BlockProcessor T) (store : S.Store) (block : T.SignedBlock)
    (state_root_policy : T.StateRootPolicy) (execution_engine : T.ExecutionEngine)
    (verifier : T.Verifier) (block_root : H256) (parent : S.Parent) (elapsed : Duration) :
    Except Panic (BlockProcessor T × Except T.Error (T.State × Option S.BlockAction)) :=
  let state := preState chain checks bp store parent block
  match mergeGate checks block state execution_engine with
  | .error e => pure (bp, .error e)
  | .ok (some action) => pure (bp, .ok (state, some action))
  | .ok none => do
    let (bp, result) ← bp.performStateTransition chain state block block_root checks.ifNeeded
      state_root_policy execution_engine verifier elapsed
    pure (bp, result.map fun state => (state, none))

/-- `store.validate_block_with_custom_state_transition(block, closure)`: the store does `run`,
    with the closure of `validate_block` if it calls it. -/
def validateBlockWithCustomStateTransition (bp : BlockProcessor T) (store : S.Store)
    (run : StoreRun T S) (block : T.SignedBlock) (state_root_policy : T.StateRootPolicy)
    (execution_engine : T.ExecutionEngine) (verifier : T.Verifier) :
    Except Panic (BlockProcessor T × Except T.Error S.BlockAction) :=
  match run with
  | .decided result => pure (bp, result)
  | .transition block_root parent elapsed conclude =>
    Prod.map id conclude <$> validateBlockTransition chain checks bp store block state_root_policy
      execution_engine verifier block_root parent elapsed

/-- `BlockProcessor::validate_block`: the store's validation, then the metrics of
    `validate_block` take the time it took. -/
def validateBlock (bp : BlockProcessor T) (store : S.Store) (run : StoreRun T S)
    (block : T.SignedBlock) (state_root_policy : T.StateRootPolicy)
    (execution_engine : T.ExecutionEngine) (verifier : T.Verifier) (elapsed : Duration) :
    Except Panic (BlockProcessor T × Except T.Error S.BlockAction) := do
  let (bp, result) ← bp.validateBlockWithCustomStateTransition chain checks store run block
    state_root_policy execution_engine verifier
  let metrics ← updateMetrics bp.metrics "validate_block" elapsed
  pure ({ bp with metrics }, result)

end BlockProcessor

/-! ## Runs of operations -/

/-- An operation on the processor: a call of a cached method, a validation, or a gossip
    validation, each with what the store does and the time it takes. -/
inductive Op (T : Types) (S : StoreTypes)
  | call (c : Call T) (elapsed : Duration)
  | validateBlock (store : S.Store) (run : StoreRun T S) (block : T.SignedBlock)
      (state_root_policy : T.StateRootPolicy) (execution_engine : T.ExecutionEngine)
      (verifier : T.Verifier) (elapsed : Duration)
  | validateBlockForGossip (store : S.Store)
      (gossip : (S.Parent → Except T.Error (Option S.BlockAction)) →
        Except T.Error (Option S.BlockAction))
      (block : T.SignedBlock) (elapsed : Duration)

namespace Op

variable {T : Types} {S : StoreTypes} (chain : Chain T) (checks : Checks T S)

/-- The processor after the operation, unless its metrics panic. -/
def apply (bp : BlockProcessor T) : Op T S → Except Panic (BlockProcessor T)
  | call c elapsed => Prod.fst <$> bp.call chain c elapsed
  | validateBlock store run block state_root_policy execution_engine verifier elapsed =>
    Prod.fst <$> bp.validateBlock chain checks store run block state_root_policy execution_engine
      verifier elapsed
  | validateBlockForGossip store gossip block elapsed =>
    Prod.fst <$> bp.validateBlockForGossip chain checks store gossip block elapsed

/-- The calls of the cached methods the operation makes on the processor `bp` it finds, each with
    the time it takes: the call itself; for a validation whose store calls the closure,
    `perform_state_transition` of its block on the pre-state with `ProcessSlots::IfNeeded` and
    its own policies, exactly when the merge gate lets the transition run; none for a gossip
    validation. -/
def calls (bp : BlockProcessor T) : Op T S → List (Call T × Duration)
  | call c elapsed => [(c, elapsed)]
  | validateBlock _ (.decided _) _ _ _ _ _ => []
  | validateBlock store (.transition block_root parent transition_elapsed _) block
      state_root_policy execution_engine verifier _ =>
    let state := BlockProcessor.preState chain checks bp store parent block
    match BlockProcessor.mergeGate checks block state execution_engine with
    | .ok none =>
      [(.performStateTransition state block block_root checks.ifNeeded state_root_policy
        execution_engine verifier, transition_elapsed)]
    | _ => []
  | validateBlockForGossip .. => []

/-- The timing the operation records for itself, after those of its calls: a call is timed as
    its call; a validation under `validate_block`; a gossip validation under
    `validate_block_for_gossip`. -/
def ownTimings : Op T S → List (String × Duration)
  | call .. => []
  | validateBlock _ _ _ _ _ _ elapsed => [("validate_block", elapsed)]
  | validateBlockForGossip _ _ _ elapsed => [("validate_block_for_gossip", elapsed)]

/-- The timings the operation records on `bp`, in order: each of its calls under its method's
    name, then its own. -/
def timings (bp : BlockProcessor T) (op : Op T S) : List (String × Duration) :=
  (op.calls chain checks bp).map (fun ce => (ce.1.name, ce.2)) ++ op.ownTimings

end Op

namespace BlockProcessor

variable {T : Types} {S : StoreTypes} (chain : Chain T) (checks : Checks T S)

/-- Operations one after another, unless the metrics panic. -/
def runOps (bp : BlockProcessor T) : List (Op T S) → Except Panic (BlockProcessor T)
  | [] => .ok bp
  | op :: ops => do
    let bp ← op.apply chain checks bp
    runOps bp ops

/-- What `f` says of each operation of a run from `bp`, on the processor the operation finds, in
    order, up to the first panic. -/
def alongOps {α : Type} (f : BlockProcessor T → Op T S → List α) (bp : BlockProcessor T) :
    List (Op T S) → List α
  | [] => []
  | op :: ops => f bp op ++
    match op.apply chain checks bp with
    | .ok bp' => alongOps f bp' ops
    | .error _ => []

/-- The calls of the cached methods that a run from `bp` makes, in order, each with its time. -/
def opsCalls (bp : BlockProcessor T) (ops : List (Op T S)) : List (Call T × Duration) :=
  bp.alongOps chain checks (Op.calls chain checks) ops

/-- The timings that a run from `bp` records, in order. -/
def opsTimings (bp : BlockProcessor T) (ops : List (Op T S)) : List (String × Duration) :=
  bp.alongOps chain checks (Op.timings chain checks) ops

variable {chain checks}

theorem alongOps_cons {α : Type} {f : BlockProcessor T → Op T S → List α}
    {bp bq : BlockProcessor T} {op : Op T S} (ops : List (Op T S))
    (hop : op.apply chain checks bp = .ok bq) :
    bp.alongOps chain checks f (op :: ops) = f bp op ++ bq.alongOps chain checks f ops := by
  simp only [alongOps, hop]

/-! ## What one operation does -/

/-- What `validate_block` does to the processor: the calls `Op.calls` says, then it times itself
    under `validate_block`. The processor is as it was when there are none, or as the transition
    leaves it. -/
theorem validateBlock_ok {bp bp' : BlockProcessor T} {store : S.Store} {run : StoreRun T S}
    {block : T.SignedBlock} {srp : T.StateRootPolicy} {ee : T.ExecutionEngine} {v : T.Verifier}
    {elapsed : Duration} {r : Except T.Error S.BlockAction}
    (h : bp.validateBlock chain checks store run block srp ee v elapsed = .ok (bp', r)) :
    ∃ bq metrics, updateMetrics bq.metrics "validate_block" elapsed = .ok metrics ∧
      bp' = { bq with metrics } ∧
      ((Op.validateBlock store run block srp ee v elapsed).calls chain checks bp = [] ∧ bq = bp ∨
        ∃ c te r', (Op.validateBlock store run block srp ee v elapsed).calls chain checks bp =
          [(c, te)] ∧ bp.call chain c te = .ok (bq, r')) := by
  unfold validateBlock at h
  obtain ⟨⟨bq, _⟩, hrun, h⟩ := bind_eq_ok.1 h
  obtain ⟨metrics, hmetrics, h⟩ := bind_eq_ok.1 h
  cases h
  refine ⟨bq, metrics, hmetrics, rfl, ?_⟩
  cases run with
  | decided result => cases hrun; exact .inl ⟨rfl, rfl⟩
  | transition block_root parent te conclude =>
    obtain ⟨⟨bq', _⟩, ht, hrun⟩ := map_eq_ok.1 hrun
    cases hrun
    simp only [validateBlockTransition] at ht
    simp only [Op.calls]
    split at ht
    -- The gate fails, or ignores the block: no transition runs.
    · next he => cases ht; exact .inl ⟨by rw [he], rfl⟩
    · next he => cases ht; exact .inl ⟨by rw [he], rfl⟩
    · next he =>
      -- The gate lets the transition run: the processor is as its call leaves it.
      obtain ⟨⟨bq'', r⟩, hp, ht⟩ := bind_eq_ok.1 ht
      cases ht
      obtain ⟨⟨_, r'⟩, hc, hq⟩ := map_eq_ok.1 ((call_performStateTransition ..).symm.trans hp)
      cases hq
      exact .inr ⟨_, _, r', by rw [he], hc⟩

/-- `validate_block_for_gossip` only times itself. -/
theorem validateBlockForGossip_ok {bp bp' : BlockProcessor T} {store : S.Store}
    {gossip : (S.Parent → Except T.Error (Option S.BlockAction)) →
      Except T.Error (Option S.BlockAction)}
    {block : T.SignedBlock} {elapsed : Duration} {r : Except T.Error (Option S.BlockAction)}
    (h : bp.validateBlockForGossip chain checks store gossip block elapsed = .ok (bp', r)) :
    ∃ metrics, updateMetrics bp.metrics "validate_block_for_gossip" elapsed = .ok metrics ∧
      bp' = { bp with metrics } := by
  obtain ⟨metrics, hmetrics, h⟩ := bind_eq_ok.1 h
  cases h
  exact ⟨metrics, hmetrics, rfl⟩

/-- What one operation does to the processor: the calls `Op.calls` says, the processor being as
    it was when there are none, or as the call leaves it; then its own timing, if it has one. -/
theorem Op.apply_ok {bp bp' : BlockProcessor T} {op : Op T S}
    (h : op.apply chain checks bp = .ok bp') :
    ∃ bq, (op.calls chain checks bp = [] ∧ bq = bp ∨
        ∃ c te r, op.calls chain checks bp = [(c, te)] ∧ bp.call chain c te = .ok (bq, r)) ∧
      (op.ownTimings = [] ∧ bp' = bq ∨
        ∃ n e metrics, op.ownTimings = [(n, e)] ∧ updateMetrics bq.metrics n e = .ok metrics ∧
          bp' = { bq with metrics }) := by
  cases op with
  | call c elapsed =>
    obtain ⟨⟨_, r⟩, hp, rfl⟩ := map_eq_ok.1 h
    exact ⟨_, .inr ⟨c, elapsed, r, rfl, hp⟩, .inl ⟨rfl, rfl⟩⟩
  | validateBlock store run block srp ee v elapsed =>
    obtain ⟨⟨_, _⟩, hp, rfl⟩ := map_eq_ok.1 h
    obtain ⟨bq, metrics, hmetrics, rfl, hcalls⟩ := validateBlock_ok hp
    exact ⟨bq, hcalls, .inr ⟨_, _, metrics, rfl, hmetrics, rfl⟩⟩
  | validateBlockForGossip store gossip block elapsed =>
    obtain ⟨⟨_, _⟩, hp, rfl⟩ := map_eq_ok.1 h
    obtain ⟨metrics, hmetrics, rfl⟩ := validateBlockForGossip_ok hp
    exact ⟨bp, .inl ⟨rfl, rfl⟩, .inr ⟨_, _, metrics, rfl, hmetrics, rfl⟩⟩

/-- What one operation does to the cache: that of its calls, as the timing leaves the cache
    alone. -/
theorem Op.apply_cachedAfter {cache₀ : CacheKey → Option (StateWithRewards T)}
    {hist : List (Call T)} {bp bp' : BlockProcessor T} {op : Op T S}
    (hbp : bp.stateCache = cachedAfter chain cache₀ hist) (h : op.apply chain checks bp = .ok bp') :
    bp'.stateCache = cachedAfter chain cache₀ (hist ++ (op.calls chain checks bp).map Prod.fst) := by
  obtain ⟨bq, hcalls, hown⟩ := Op.apply_ok h
  have hbq : bq.stateCache = cachedAfter chain cache₀ (hist ++ (op.calls chain checks bp).map
      Prod.fst) := by
    rcases hcalls with ⟨hcalls, rfl⟩ | ⟨c, te, r, hcalls, hc⟩
    · simpa [hcalls] using hbp
    · simpa [hcalls] using (call_cache chain hbp hc).1
  rcases hown with ⟨-, rfl⟩ | ⟨n, e, metrics, -, -, rfl⟩ <;> exact hbq

/-- What one operation does to the metrics: it records its timings. -/
theorem Op.apply_metrics {log : List (String × Duration)} {bp bp' : BlockProcessor T}
    {op : Op T S} (hm : MetricsAfter bp.metrics log) (h : op.apply chain checks bp = .ok bp') :
    MetricsAfter bp'.metrics (log ++ op.timings chain checks bp) := by
  obtain ⟨bq, hcalls, hown⟩ := Op.apply_ok h
  have hbq : MetricsAfter bq.metrics
      (log ++ (op.calls chain checks bp).map fun ce => (ce.1.name, ce.2)) := by
    rcases hcalls with ⟨hcalls, rfl⟩ | ⟨c, te, r, hcalls, hc⟩
    · simpa [hcalls] using hm
    · simpa [hcalls] using hm.call hc
  rw [Op.timings, ← List.append_assoc]
  rcases hown with ⟨hown, rfl⟩ | ⟨n, e, metrics, hown, hmetrics, rfl⟩
  · simpa [hown] using hbq
  · rw [hown]
    exact hbq.update hmetrics

/-! ## Runs -/

/-- Over any run, the state cache moves as the history semantics says for the calls the run
    made. -/
theorem runOps_cachedAfter {cache₀ : CacheKey → Option (StateWithRewards T)}
    {hist : List (Call T)} {bp bp' : BlockProcessor T} {ops : List (Op T S)}
    (hbp : bp.stateCache = cachedAfter chain cache₀ hist)
    (h : bp.runOps chain checks ops = .ok bp') :
    bp'.stateCache = cachedAfter chain cache₀ (hist ++ (bp.opsCalls chain checks ops).map Prod.fst) := by
  induction ops generalizing bp hist with
  | nil => cases h; simpa [opsCalls, alongOps] using hbp
  | cons op ops ih =>
    obtain ⟨bq, hop, h⟩ := bind_eq_ok.1 h
    rw [opsCalls, alongOps_cons ops hop, List.map_append, ← List.append_assoc]
    exact ih (Op.apply_cachedAfter hbp hop) h

/-- Over any run of calls and validations, the state cache moves exactly as the history semantics
    says for the calls the run made, one operation after another on the processor it found: a
    call, itself; a validation whose store called the closure, its block's full transition on the
    pre-state, when the merge gate let it run, and none otherwise; a gossip validation, none. So
    the cache never loses nor replaces an entry, and every entry it gains is the result of the
    transition of one of those calls, under that call's own key. -/
theorem validation_cache_sound {bp bp' : BlockProcessor T} {ops : List (Op T S)}
    (h : bp.runOps chain checks ops = .ok bp') :
    bp'.stateCache = cachedAfter chain bp.stateCache ((bp.opsCalls chain checks ops).map Prod.fst) ∧
    ∀ k v, (bp.stateCache k = some v → bp'.stateCache k = some v) ∧
      (bp'.stateCache k = some v → bp.stateCache k = some v ∨
        ∃ ce ∈ bp.opsCalls chain checks ops, ce.1.key chain = k ∧ ce.1.transition chain = .ok v) := by
  have hcache := runOps_cachedAfter (show bp.stateCache = cachedAfter chain bp.stateCache [] from rfl) h
  rw [List.nil_append] at hcache
  refine ⟨hcache, fun k v => ⟨fun h₀ => ?_, fun h' => ?_⟩⟩
  · rw [hcache]
    exact cachedAfter_of_some chain h₀ _
  · rw [hcache] at h'
    refine (cachedAfter_eq_some chain h').imp_right fun ⟨c, hc, hk, hv⟩ => ?_
    obtain ⟨ce, hce, rfl⟩ := List.mem_map.1 hc
    exact ⟨ce, hce, hk, hv⟩

/-- Over any run, the metrics record the timings of the operations, one after another. -/
theorem runOps_metrics {bp bp' : BlockProcessor T} {ops : List (Op T S)}
    {log : List (String × Duration)} (hm : MetricsAfter bp.metrics log)
    (h : bp.runOps chain checks ops = .ok bp') :
    MetricsAfter bp'.metrics (log ++ bp.opsTimings chain checks ops) := by
  induction ops generalizing bp log with
  | nil => cases h; simpa [opsTimings, alongOps] using hm
  | cons op ops ih =>
    obtain ⟨bq, hop, h⟩ := bind_eq_ok.1 h
    rw [opsTimings, alongOps_cons ops hop, ← List.append_assoc]
    exact ih (Op.apply_metrics hm hop) h

/-- After any run of calls and validations from no metrics, the metrics of each name hold the
    last 100 durations timed under it, oldest first, their total is their exact sum, the last of
    them is the newest, and a name has metrics exactly when something was timed under it. The
    run times, one operation after another: a call under its method's name; a validation under
    `validate_block`, after its block's transition under `perform_state_transition` exactly when
    that transition ran; a gossip validation under `validate_block_for_gossip`. -/
theorem metrics_window_of_runOps {bp bp' : BlockProcessor T} (h₀ : bp.metrics = fun _ => none)
    {ops : List (Op T S)} (h : bp.runOps chain checks ops = .ok bp') (name : String) :
    ((bp'.metrics name).getD (.new 100)).times =
        (timesOf name (bp.opsTimings chain checks ops)).drop
          ((timesOf name (bp.opsTimings chain checks ops)).length - 100) ∧
      ((bp'.metrics name).getD (.new 100)).total.nanos =
        Duration.nanosSum ((bp'.metrics name).getD (.new 100)).times ∧
      ((bp'.metrics name).getD (.new 100)).last =
        (timesOf name (bp.opsTimings chain checks ops)).getLast? ∧
      ((bp'.metrics name).isSome ↔ timesOf name (bp.opsTimings chain checks ops) ≠ []) := by
  have hm : MetricsAfter bp'.metrics (bp.opsTimings chain checks ops) := by
    simpa using runOps_metrics (h₀ ▸ metricsAfter_nil) h
  obtain ⟨htimes, htotal, hsome⟩ := hm.window name
  exact ⟨htimes, htotal, hm.last name, hsome⟩

/-! ## A merge transition block -/

/-- A store that holds nothing, whose parents are their states, whose bodies are empty, and
    whose block actions are whether to publish the block. -/
abbrev CountingStore : StoreTypes := ⟨Unit, Nat, Unit, Bool⟩

/-- Checks on which blocks below 10 are Bellatrix's and the others Capella's, a post-Bellatrix
    block on the state 0 is the merge transition block, and `validate_merge_block` ignores it. -/
def mergeChecks : Checks CountingTypes CountingStore where
  beforeOrAtSlot _ _ _ _ := none
  parentBlockRoot parent := BitVec.ofNat 256 parent
  parentState parent _ := parent
  stateSlot _ := 0
  processSlots state _ := .ok state
  processBlockForGossip _ _ := .ok ()
  phase block := if block < 10 then .bellatrix else .capella
  postBellatrixBody _ := some ()
  isMergeTransitionBlock state _ := state == 0
  validateMergeBlock _ _ _ := .ok .ignore
  ifNeeded := ()
  ignore publish := publish

/-- A store that publishes what the closure does not ignore. -/
def mergeConclude : Except String (Nat × Option Bool) → Except String Bool :=
  Except.map fun answer => answer.2.getD true

/-- A Capella block on the state 1, the merge block of Bellatrix on the state 0, and a gossip
    validation. -/
def mergeOps : List (Op CountingTypes CountingStore) :=
  [.validateBlock () (.transition 7 1 ⟨1, by decide⟩ mergeConclude) 12 () () () ⟨2, by decide⟩,
   .validateBlock () (.transition 8 0 ⟨1, by decide⟩ mergeConclude) 3 () () () ⟨2, by decide⟩,
   .validateBlockForGossip () (fun check => check 0) 5 ⟨1, by decide⟩]

/-- The run makes one call, the Capella block's transition: the merge block is ignored before its
    transition, and gossip validation calls nothing. The cache keeps that transition under the
    Capella block's root, as a full transition. -/
theorem validation_cache_sound_merge :
    ∃ bp', (⟨fun _ => none, fun _ => none⟩ : BlockProcessor CountingTypes).runOps
        invalidRandaoChain mergeChecks mergeOps = .ok bp' ∧
      bp'.stateCache = cachedAfter invalidRandaoChain (fun _ => none)
        [.performStateTransition 1 12 7 () () () ()] ∧
      bp'.stateCache (7, 0, true) = some (2, none) := by
  obtain ⟨bp', hrun⟩ : ∃ bp', (⟨fun _ => none, fun _ => none⟩ : BlockProcessor CountingTypes).runOps
      invalidRandaoChain mergeChecks mergeOps = .ok bp' := ⟨_, by rfl⟩
  have hcache := (validation_cache_sound hrun).1.trans (by rfl)
  exact ⟨bp', hrun, hcache, by rw [hcache]; rfl⟩

/-- The Capella block's transition is timed, the ignored merge block's is not, and both
    validations are timed under `validate_block`. -/
theorem metrics_window_of_runOps_merge :
    ∃ bp', (⟨fun _ => none, fun _ => none⟩ : BlockProcessor CountingTypes).runOps
        invalidRandaoChain mergeChecks mergeOps = .ok bp' ∧
      ((bp'.metrics "perform_state_transition").getD (.new 100)).times = [⟨1, by decide⟩] ∧
      ((bp'.metrics "validate_block").getD (.new 100)).times =
        [⟨2, by decide⟩, ⟨2, by decide⟩] ∧
      ((bp'.metrics "validate_block").getD (.new 100)).last = some ⟨2, by decide⟩ := by
  obtain ⟨bp', hrun⟩ : ∃ bp', (⟨fun _ => none, fun _ => none⟩ : BlockProcessor CountingTypes).runOps
      invalidRandaoChain mergeChecks mergeOps = .ok bp' := ⟨_, by rfl⟩
  have hw := metrics_window_of_runOps rfl hrun
  exact ⟨bp', hrun, (hw "perform_state_transition").1.trans (by rfl),
    (hw "validate_block").1.trans (by rfl), (hw "validate_block").2.2.1.trans (by rfl)⟩

end BlockProcessor

end Grandine
