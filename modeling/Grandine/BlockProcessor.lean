import Grandine.TimingMetrics

/-!
# The block processor

`BlockProcessor` (`block_processor.rs`) applies the beacon chain's state transition to blocks
through the state cache, and times each of its methods. Its state is the cache it was given and
the timing metrics of its methods, by name.

The beacon chain's types and transition functions are not among the sources: the types are
opaque here (`Types`), and the functions the processor calls are parameters (`Chain`). So is
the state cache (crate `state_cache`), modelled from the spec as a keyed insert-or-compute
store (`getOrInsertWith`).

The five cached methods share one shape (`cached`): look up or compute through the cache under
a key, then time the call under the method's name. The four `process_*_with_report` methods are
one definition (`processWithReport`) applied to their transitions; `perform_state_transition`
caches under the `full_transition` flag and drops the rewards. A `Call` names one of the five
with its arguments, so that a run of the processor is a list of calls (`run`).
-/

namespace Grandine

/-- A `H256`: a block root. -/
abbrev H256 := BitVec 256

/-- A `Slot`. -/
abbrev Slot := UInt64

/-- The types of the beacon chain that the processor passes on without looking inside. -/
structure Types where
  State : Type
  Block : Type
  BlindedBlock : Type
  SignedBlock : Type
  ExecutionEngine : Type
  Verifier : Type
  ProcessSlots : Type
  StateRootPolicy : Type
  /-- The errors of the transition functions (`anyhow::Error`). -/
  Error : Type

/-- `SlashingKind`. -/
inductive SlashingKind
  | proposer
  | attester

/-- What the processor reads of a `RealSlotReport`: the rewards the transition reported. The
    rewards of the sync aggregate are given by their `total()`. Amounts are in Gwei; their sums
    are bounded by the supply of ether, far below `u64::MAX`. -/
structure RealSlotReport where
  attestationRewards : List Nat
  syncAggregateRewards : Option Nat
  slashingRewards : SlashingKind → List Nat

/-- `BlockRewards`. -/
structure BlockRewards where
  total : Nat
  attestations : Nat
  syncAggregate : Nat
  proposerSlashings : Nat
  attesterSlashings : Nat
  deriving DecidableEq, Repr

/-- `calculate_block_rewards`. -/
def calculateBlockRewards (slot_report : RealSlotReport) : BlockRewards :=
  let attestations := slot_report.attestationRewards.foldr (· + ·) 0
  let sync_aggregate := slot_report.syncAggregateRewards.getD 0
  let proposer_slashings := (slot_report.slashingRewards .proposer).foldr (· + ·) 0
  let attester_slashings := (slot_report.slashingRewards .attester).foldr (· + ·) 0
  { total := attestations + sync_aggregate + proposer_slashings + attester_slashings
    attestations
    syncAggregate := sync_aggregate
    proposerSlashings := proposer_slashings
    attesterSlashings := attester_slashings }

/-- What the processor calls of the beacon chain: the transition functions of
    `transition_functions::combined` (on a copy of the state, which they return), and the root
    and slot of blocks. -/
structure Chain (T : Types) where
  hashTreeRoot : T.Block → H256
  slot : T.Block → Slot
  blindedHashTreeRoot : T.BlindedBlock → H256
  blindedSlot : T.BlindedBlock → Slot
  /-- `block.message().slot()`. -/
  signedSlot : T.SignedBlock → Slot
  processUntrustedBlock : T.State → T.Block → Bool → Except T.Error (T.State × RealSlotReport)
  processTrustedBlock : T.State → T.Block → Except T.Error (T.State × RealSlotReport)
  processUntrustedBlindedBlock :
    T.State → T.BlindedBlock → Bool → Except T.Error (T.State × RealSlotReport)
  processTrustedBlindedBlock :
    T.State → T.BlindedBlock → Except T.Error (T.State × RealSlotReport)
  customStateTransition : T.State → T.SignedBlock → T.ProcessSlots → T.StateRootPolicy →
    T.ExecutionEngine → T.Verifier → Except T.Error T.State

/-- `StateWithRewards`. -/
abbrev StateWithRewards (T : Types) := T.State × Option BlockRewards

/-- The key of a state cache entry: a block root, a slot, and whether the entry is the result of
    a full transition. -/
abbrev CacheKey := H256 × Slot × Bool

/-- Modelled from the spec: `StateCacheProcessor::get_or_insert_with(key, slot, full_transition,
    compute)`, keyed insert-or-compute. The value cached under the key if there is one;
    otherwise the computation runs, and its result is cached when it succeeds. -/
def getOrInsertWith {E V : Type} (cache : CacheKey → Option V) (key : H256) (slot : Slot)
    (full_transition : Bool) (compute : Unit → Except E V) : (CacheKey → Option V) × Except E V :=
  match cache (key, slot, full_transition) with
  | some v => (cache, .ok v)
  | none =>
    match compute () with
    | .ok v => (Function.update cache (key, slot, full_transition) (some v), .ok v)
    | .error e => (cache, .error e)

/-- `BlockProcessor`. -/
structure BlockProcessor (T : Types) where
  stateCache : CacheKey → Option (StateWithRewards T)
  metrics : String → Option TimingMetrics

namespace BlockProcessor

variable {T : Types} (chain : Chain T)

/-- `BlockProcessor::update_metrics`: the metrics of `name`, created with room for 100, take
    the duration. -/
def updateMetrics (metrics : String → Option TimingMetrics) (name : String)
    (duration : Duration) : Except Panic (String → Option TimingMetrics) := do
  let entry ← ((metrics name).getD (TimingMetrics.new 100)).update duration
  pure (Function.update metrics name (some entry))

/-- The shape of the cached methods: through the state cache under `key`, then the metrics of
    `name` take the time the call took. -/
def cached (bp : BlockProcessor T) (name : String) (key : CacheKey)
    (compute : Unit → Except T.Error (StateWithRewards T)) (elapsed : Duration) :
    Except Panic (BlockProcessor T × Except T.Error (StateWithRewards T)) := do
  let (stateCache, result) := getOrInsertWith bp.stateCache key.1 key.2.1 key.2.2 compute
  let metrics ← updateMetrics bp.metrics name elapsed
  pure (⟨stateCache, metrics⟩, result)

/-- The `process_*_with_report` methods: cached under the block's root and slot, not as a full
    transition; the transition's slot report gives the rewards. -/
def processWithReport (bp : BlockProcessor T) (name : String) (root : H256) (slot : Slot)
    (transition : Unit → Except T.Error (T.State × RealSlotReport)) (elapsed : Duration) :=
  bp.cached name (root, slot, false) (fun _ => do
    let (state, slot_report) ← transition ()
    pure (state, some (calculateBlockRewards slot_report))) elapsed

/-- `BlockProcessor::process_untrusted_block_with_report`. -/
def processUntrustedBlockWithReport (bp : BlockProcessor T) (state : T.State) (block : T.Block)
    (skip_randao_verification : Bool) (elapsed : Duration) :=
  bp.processWithReport "process_untrusted_block" (chain.hashTreeRoot block) (chain.slot block)
    (fun _ => chain.processUntrustedBlock state block skip_randao_verification) elapsed

/-- `BlockProcessor::process_trusted_block_with_report`. -/
def processTrustedBlockWithReport (bp : BlockProcessor T) (state : T.State) (block : T.Block)
    (elapsed : Duration) :=
  bp.processWithReport "process_trusted_block" (chain.hashTreeRoot block) (chain.slot block)
    (fun _ => chain.processTrustedBlock state block) elapsed

/-- `BlockProcessor::process_untrusted_blinded_block_with_report`. -/
def processUntrustedBlindedBlockWithReport (bp : BlockProcessor T) (state : T.State)
    (block : T.BlindedBlock) (skip_randao_verification : Bool) (elapsed : Duration) :=
  bp.processWithReport "process_untrusted_blinded_block" (chain.blindedHashTreeRoot block)
    (chain.blindedSlot block)
    (fun _ => chain.processUntrustedBlindedBlock state block skip_randao_verification) elapsed

/-- `BlockProcessor::process_trusted_blinded_block_with_report`. -/
def processTrustedBlindedBlockWithReport (bp : BlockProcessor T) (state : T.State)
    (block : T.BlindedBlock) (elapsed : Duration) :=
  bp.processWithReport "process_trusted_blinded_block" (chain.blindedHashTreeRoot block)
    (chain.blindedSlot block) (fun _ => chain.processTrustedBlindedBlock state block) elapsed

/-- The computation `perform_state_transition` caches: the custom state transition, with no
    rewards. -/
def stateTransition (state : T.State) (block : T.SignedBlock) (process_slots : T.ProcessSlots)
    (state_root_policy : T.StateRootPolicy) (execution_engine : T.ExecutionEngine)
    (verifier : T.Verifier) : Except T.Error (StateWithRewards T) := do
  let state ← chain.customStateTransition state block process_slots state_root_policy
    execution_engine verifier
  pure (state, none)

/-- `BlockProcessor::perform_state_transition`: cached under the given block root and the
    block's slot, as a full transition; it returns the state alone. -/
def performStateTransition (bp : BlockProcessor T) (state : T.State) (block : T.SignedBlock)
    (block_root : H256) (process_slots : T.ProcessSlots) (state_root_policy : T.StateRootPolicy)
    (execution_engine : T.ExecutionEngine) (verifier : T.Verifier) (elapsed : Duration) :
    Except Panic (BlockProcessor T × Except T.Error T.State) := do
  let (bp, result) ← bp.cached "perform_state_transition" (block_root, chain.signedSlot block, true)
    (fun _ => stateTransition chain state block process_slots state_root_policy execution_engine
      verifier) elapsed
  pure (bp, result.map Prod.fst)

end BlockProcessor

/-! ## Calls -/

/-- A call of one of the cached methods, with its arguments. -/
inductive Call (T : Types)
  | processUntrustedBlockWithReport (state : T.State) (block : T.Block)
      (skip_randao_verification : Bool)
  | processTrustedBlockWithReport (state : T.State) (block : T.Block)
  | processUntrustedBlindedBlockWithReport (state : T.State) (block : T.BlindedBlock)
      (skip_randao_verification : Bool)
  | processTrustedBlindedBlockWithReport (state : T.State) (block : T.BlindedBlock)
  | performStateTransition (state : T.State) (block : T.SignedBlock) (block_root : H256)
      (process_slots : T.ProcessSlots) (state_root_policy : T.StateRootPolicy)
      (execution_engine : T.ExecutionEngine) (verifier : T.Verifier)

namespace Call

variable {T : Types} (chain : Chain T)

/-- The name the call is timed under. -/
def name : Call T → String
  | processUntrustedBlockWithReport .. => "process_untrusted_block"
  | processTrustedBlockWithReport .. => "process_trusted_block"
  | processUntrustedBlindedBlockWithReport .. => "process_untrusted_blinded_block"
  | processTrustedBlindedBlockWithReport .. => "process_trusted_blinded_block"
  | performStateTransition .. => "perform_state_transition"

/-- The state cache key of the call. -/
def key : Call T → CacheKey
  | processUntrustedBlockWithReport _ block _ => (chain.hashTreeRoot block, chain.slot block, false)
  | processTrustedBlockWithReport _ block => (chain.hashTreeRoot block, chain.slot block, false)
  | processUntrustedBlindedBlockWithReport _ block _ =>
    (chain.blindedHashTreeRoot block, chain.blindedSlot block, false)
  | processTrustedBlindedBlockWithReport _ block =>
    (chain.blindedHashTreeRoot block, chain.blindedSlot block, false)
  | performStateTransition _ block block_root .. => (block_root, chain.signedSlot block, true)

/-- The call's own transition: what it computes on a cache miss. -/
def transition : Call T → Except T.Error (StateWithRewards T)
  | processUntrustedBlockWithReport state block skip_randao_verification => do
    let (state, slot_report) ← chain.processUntrustedBlock state block skip_randao_verification
    pure (state, some (calculateBlockRewards slot_report))
  | processTrustedBlockWithReport state block => do
    let (state, slot_report) ← chain.processTrustedBlock state block
    pure (state, some (calculateBlockRewards slot_report))
  | processUntrustedBlindedBlockWithReport state block skip_randao_verification => do
    let (state, slot_report) ←
      chain.processUntrustedBlindedBlock state block skip_randao_verification
    pure (state, some (calculateBlockRewards slot_report))
  | processTrustedBlindedBlockWithReport state block => do
    let (state, slot_report) ← chain.processTrustedBlindedBlock state block
    pure (state, some (calculateBlockRewards slot_report))
  | performStateTransition state block _ process_slots state_root_policy execution_engine
      verifier =>
    BlockProcessor.stateTransition chain state block process_slots state_root_policy
      execution_engine verifier

end Call

namespace BlockProcessor

variable {T : Types} (chain : Chain T)

/-- A call on the processor, taking the time `elapsed`: the processor after it and what the
    state cache answered (for `perform_state_transition`, before the rewards are dropped). -/
def call (bp : BlockProcessor T) (c : Call T) (elapsed : Duration) :
    Except Panic (BlockProcessor T × Except T.Error (StateWithRewards T)) :=
  bp.cached c.name (c.key chain) (fun _ => c.transition chain) elapsed

/-- The four report methods are calls. -/
theorem call_processUntrustedBlockWithReport (bp : BlockProcessor T) (state : T.State)
    (block : T.Block) (skip : Bool) (elapsed : Duration) :
    bp.processUntrustedBlockWithReport chain state block skip elapsed =
      bp.call chain (.processUntrustedBlockWithReport state block skip) elapsed := rfl

theorem call_processTrustedBlockWithReport (bp : BlockProcessor T) (state : T.State)
    (block : T.Block) (elapsed : Duration) :
    bp.processTrustedBlockWithReport chain state block elapsed =
      bp.call chain (.processTrustedBlockWithReport state block) elapsed := rfl

theorem call_processUntrustedBlindedBlockWithReport (bp : BlockProcessor T) (state : T.State)
    (block : T.BlindedBlock) (skip : Bool) (elapsed : Duration) :
    bp.processUntrustedBlindedBlockWithReport chain state block skip elapsed =
      bp.call chain (.processUntrustedBlindedBlockWithReport state block skip) elapsed := rfl

theorem call_processTrustedBlindedBlockWithReport (bp : BlockProcessor T) (state : T.State)
    (block : T.BlindedBlock) (elapsed : Duration) :
    bp.processTrustedBlindedBlockWithReport chain state block elapsed =
      bp.call chain (.processTrustedBlindedBlockWithReport state block) elapsed := rfl

/-- `perform_state_transition` is a call, whose answer it returns without the rewards. -/
theorem call_performStateTransition (bp : BlockProcessor T) (state : T.State)
    (block : T.SignedBlock) (root : H256) (ps : T.ProcessSlots) (srp : T.StateRootPolicy)
    (ee : T.ExecutionEngine) (v : T.Verifier) (elapsed : Duration) :
    bp.performStateTransition chain state block root ps srp ee v elapsed =
      (fun (bp, r) => (bp, r.map Prod.fst)) <$>
        bp.call chain (.performStateTransition state block root ps srp ee v) elapsed := by
  simp only [performStateTransition, call, Call.name, Call.key, Call.transition]
  rcases bp.cached "perform_state_transition" (root, chain.signedSlot block, true)
    (fun _ => stateTransition chain state block ps srp ee v) elapsed with _ | ⟨_, _⟩ <;> rfl

/-- Calls one after another, each with the time it took: the answers of the calls that
    returned, up to the first that panicked. -/
def run (bp : BlockProcessor T) : List (Call T × Duration) → List (Except T.Error (StateWithRewards T))
  | [] => []
  | (c, elapsed) :: cs =>
    match bp.call chain c elapsed with
    | .ok (bp, r) => r :: run bp cs
    | .error _ => []

end BlockProcessor

end Grandine
