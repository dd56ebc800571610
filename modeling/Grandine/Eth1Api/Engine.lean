import Grandine.Duration
import Grandine.Eth1Api
import Grandine.Phase

/-!
# Engine API dispatch

`new_payload`, `forkchoice_updated` and `get_payload` (`eth1_api.rs`) each pick the version of
their Engine API method from the phase of their data, build its JSON parameters, and send it
through `execute` (`request_with_fallback`) with the method's timeout. `new_payload` refuses
data whose parameters do not fit its phase, and `forkchoice_updated` a phase before Bellatrix,
without sending anything.

The payloads, payload attributes and responses are opaque (`EngineTypes`); a JSON parameter is
what it serializes (`Param`), serialization being taken as total; what the execution client
answers a request is a parameter (`execute`).

* `newPayloadRequest_ok_iff`: `new_payload` sends a request exactly when the payload is Deneb's
  or its parameters are absent, not both; the request is then the method of the payload's
  version;
* `forkchoiceUpdated_preBellatrix`: before Bellatrix, `forkchoice_updated` fails with
  `PhasePreBellatrix` and sends nothing;
* `getPayload_after_forkchoiceUpdated`: from Bellatrix on, it sends the method of its phase's
  version and tags the payload id it gets with that phase, so the payload a forkchoice update
  starts building is fetched with `engine_getPayload` of the same version as the update.
-/

namespace Grandine

namespace Eth1Api

/-- The data of the Engine API, opaque here. -/
structure EngineTypes where
  /-- `ExecutionPayloadV1`, `ExecutionPayloadV2`, `ExecutionPayloadV3`: the execution payloads of
      Bellatrix, Capella and Deneb, as the Engine API takes them. -/
  PayloadV1 : Type
  PayloadV2 : Type
  PayloadV3 : Type
  /-- The payload attributes of Bellatrix, Capella and Deneb. -/
  AttributesV1 : Type
  AttributesV2 : Type
  AttributesV3 : Type
  /-- `PayloadStatusV1`. -/
  PayloadStatus : Type

variable {E : EngineTypes}

/-- `ExecutionPayload`, by phase. -/
inductive ExecutionPayload (E : EngineTypes)
  | bellatrix (payload : E.PayloadV1)
  | capella (payload : E.PayloadV2)
  | deneb (payload : E.PayloadV3)

/-- `ExecutionPayload::phase`. -/
def ExecutionPayload.phase : ExecutionPayload E → Phase
  | .bellatrix _ => .bellatrix
  | .capella _ => .capella
  | .deneb _ => .deneb

/-- `ExecutionPayloadParams`: what `new_payload` takes besides a Deneb payload. -/
inductive ExecutionPayloadParams
  | deneb (versioned_hashes : List (BitVec 256)) (parent_beacon_block_root : BitVec 256)

/-- `PayloadAttributes`, by phase. -/
inductive PayloadAttributes (E : EngineTypes)
  | bellatrix (attributes : E.AttributesV1)
  | capella (attributes : E.AttributesV2)
  | deneb (attributes : E.AttributesV3)

/-- `PayloadAttributes::phase`. -/
def PayloadAttributes.phase : PayloadAttributes E → Phase
  | .bellatrix _ => .bellatrix
  | .capella _ => .capella
  | .deneb _ => .deneb

/-- `PayloadId`: the id of a payload being built, tagged with the phase of the payload. -/
inductive PayloadId
  | bellatrix (id : BitVec 64)
  | capella (id : BitVec 64)
  | deneb (id : BitVec 64)
  deriving DecidableEq, Repr

/-- `ForkChoiceStateV1`. -/
structure ForkChoiceStateV1 where
  head_block_hash : BitVec 256
  safe_block_hash : BitVec 256
  finalized_block_hash : BitVec 256
  deriving DecidableEq

/-- A JSON parameter of an Engine API request, by what it serializes. -/
inductive Param (E : EngineTypes)
  | payloadV1 (payload : E.PayloadV1)
  | payloadV2 (payload : E.PayloadV2)
  | payloadV3 (payload : E.PayloadV3)
  | versionedHashes (hashes : List (BitVec 256))
  | parentBeaconBlockRoot (root : BitVec 256)
  | forkChoiceState (state : ForkChoiceStateV1)
  | payloadAttributes (attributes : Option (PayloadAttributes E))
  | payloadId (id : BitVec 64)

/-- A request of `Eth1Api::execute`: the method, its parameters, and its timeout. -/
structure EngineRequest (E : EngineTypes) where
  method : String
  params : List (Param E)
  timeout : Option Duration

/-- `RawForkChoiceUpdatedResponse`. -/
structure RawForkChoiceUpdatedResponse (E : EngineTypes) where
  payload_status : E.PayloadStatus
  payload_id : Option (BitVec 64)

/-- `ForkChoiceUpdatedResponse`. -/
structure ForkChoiceUpdatedResponse (E : EngineTypes) where
  payload_status : E.PayloadStatus
  payload_id : Option PayloadId

/-- `ENGINE_FORKCHOICE_UPDATED_TIMEOUT`: 8 s. -/
def ENGINE_FORKCHOICE_UPDATED_TIMEOUT : Duration := ⟨8 * NANOS_PER_SEC, by decide⟩

/-- `ENGINE_GET_PAYLOAD_TIMEOUT`: 1 s. -/
def ENGINE_GET_PAYLOAD_TIMEOUT : Duration := ⟨NANOS_PER_SEC, by decide⟩

/-- `ENGINE_NEW_PAYLOAD_TIMEOUT`: 8 s. -/
def ENGINE_NEW_PAYLOAD_TIMEOUT : Duration := ⟨8 * NANOS_PER_SEC, by decide⟩

/-! ## The three methods -/

/-- The request of `Eth1Api::new_payload`, or its error. -/
def newPayloadRequest (payload : ExecutionPayload E) (params : Option ExecutionPayloadParams) :
    Except Error (EngineRequest E) :=
  match payload, params with
  | .bellatrix payload, none =>
    .ok ⟨"engine_newPayloadV1", [.payloadV1 payload], some ENGINE_NEW_PAYLOAD_TIMEOUT⟩
  | .capella payload, none =>
    .ok ⟨"engine_newPayloadV2", [.payloadV2 payload], some ENGINE_NEW_PAYLOAD_TIMEOUT⟩
  | .deneb payload, some (.deneb versioned_hashes parent_beacon_block_root) =>
    .ok ⟨"engine_newPayloadV3",
      [.payloadV3 payload, .versionedHashes versioned_hashes,
        .parentBeaconBlockRoot parent_beacon_block_root],
      some ENGINE_NEW_PAYLOAD_TIMEOUT⟩
  | _, _ => .error .invalidParameters

/-- `Eth1Api::new_payload`, `execute` answering its request. -/
def newPayload (execute : EngineRequest E → Except Error E.PayloadStatus)
    (payload : ExecutionPayload E) (params : Option ExecutionPayloadParams) :
    Except Error E.PayloadStatus := do
  execute (← newPayloadRequest payload params)

/-- `Eth1Api::forkchoice_updated`, `execute` answering its request. The phase is that of the
    payload attributes, or the one given in their place. -/
def forkchoiceUpdated (execute : EngineRequest E → Except Error (RawForkChoiceUpdatedResponse E))
    (head_block_hash safe_block_hash finalized_block_hash : BitVec 256)
    (payload_attributes : Phase ⊕ PayloadAttributes E) :
    Except Error (ForkChoiceUpdatedResponse E) := do
  let fork_choice_state : ForkChoiceStateV1 :=
    ⟨head_block_hash, safe_block_hash, finalized_block_hash⟩
  let phase := payload_attributes.elim id PayloadAttributes.phase
  let params := [Param.forkChoiceState fork_choice_state,
    .payloadAttributes payload_attributes.getRight?]
  let raw ← match phase with
    | .bellatrix =>
      execute ⟨"engine_forkchoiceUpdatedV1", params, some ENGINE_FORKCHOICE_UPDATED_TIMEOUT⟩
    | .capella =>
      execute ⟨"engine_forkchoiceUpdatedV2", params, some ENGINE_FORKCHOICE_UPDATED_TIMEOUT⟩
    | .deneb =>
      execute ⟨"engine_forkchoiceUpdatedV3", params, some ENGINE_FORKCHOICE_UPDATED_TIMEOUT⟩
    | _ => .error .phasePreBellatrix
  let payload_id ← match phase with
    | .bellatrix => pure (raw.payload_id.map PayloadId.bellatrix)
    | .capella => pure (raw.payload_id.map PayloadId.capella)
    | .deneb => pure (raw.payload_id.map PayloadId.deneb)
    | _ => .error .phasePreBellatrix
  pure ⟨raw.payload_status, payload_id⟩

/-- The request of `Eth1Api::get_payload`. -/
def getPayloadRequest : PayloadId → EngineRequest E
  | .bellatrix payload_id =>
    ⟨"engine_getPayloadV1", [.payloadId payload_id], some ENGINE_GET_PAYLOAD_TIMEOUT⟩
  | .capella payload_id =>
    ⟨"engine_getPayloadV2", [.payloadId payload_id], some ENGINE_GET_PAYLOAD_TIMEOUT⟩
  | .deneb payload_id =>
    ⟨"engine_getPayloadV3", [.payloadId payload_id], some ENGINE_GET_PAYLOAD_TIMEOUT⟩

/-! ## Versions -/

end Eth1Api

/-- The version of the Engine API methods for a phase: none before Bellatrix. -/
def Phase.version : Phase → Option String
  | .bellatrix => some "V1"
  | .capella => some "V2"
  | .deneb => some "V3"
  | _ => none

namespace Eth1Api

/-- The phase a payload id is tagged with. -/
def PayloadId.phase : PayloadId → Phase
  | .bellatrix _ => .bellatrix
  | .capella _ => .capella
  | .deneb _ => .deneb

/-- The id the client gave, untagged. -/
def PayloadId.id : PayloadId → BitVec 64
  | .bellatrix id => id
  | .capella id => id
  | .deneb id => id

/-- `new_payload` sends a request exactly when the payload is Deneb's or its parameters are
    absent, not both, and fails with `InvalidParameters` otherwise, sending nothing. The request
    is the method of the payload's version, with its timeout. -/
theorem newPayloadRequest_ok_iff (payload : ExecutionPayload E)
    (params : Option ExecutionPayloadParams) :
    ((∃ request, newPayloadRequest payload params = .ok request) ↔
      (params.isSome ↔ payload.phase = .deneb)) ∧
    (∀ request, newPayloadRequest payload params = .ok request →
      (∃ v, payload.phase.version = some v ∧ request.method = "engine_newPayload" ++ v) ∧
      request.timeout = some ENGINE_NEW_PAYLOAD_TIMEOUT) ∧
    ∀ e, newPayloadRequest payload params = .error e → e = .invalidParameters := by
  rcases params with _ | ⟨hashes, root⟩ <;> cases payload <;>
    simp [newPayloadRequest, ExecutionPayload.phase, Phase.version]

/-- Before Bellatrix, `forkchoice_updated` fails with `PhasePreBellatrix` and sends nothing: its
    result does not depend on what the client would answer. -/
theorem forkchoiceUpdated_preBellatrix
    (execute : EngineRequest E → Except Error (RawForkChoiceUpdatedResponse E))
    (head_block_hash safe_block_hash finalized_block_hash : BitVec 256)
    (payload_attributes : Phase ⊕ PayloadAttributes E)
    (h : (payload_attributes.elim id PayloadAttributes.phase).version = none) :
    forkchoiceUpdated execute head_block_hash safe_block_hash finalized_block_hash
      payload_attributes = .error .phasePreBellatrix := by
  rcases payload_attributes with phase | attributes
  · cases phase <;> first | rfl | simp [Phase.version] at h
  · cases attributes <;> simp [PayloadAttributes.phase, Phase.version] at h

/-- A forkchoice update that returns a payload id was sent as `engine_forkchoiceUpdated` of its
    phase's version, and got its status and the id from the client; and the payload it started
    is fetched with `engine_getPayload` of the same version. -/
theorem getPayload_after_forkchoiceUpdated
    {execute : EngineRequest E → Except Error (RawForkChoiceUpdatedResponse E)}
    {head_block_hash safe_block_hash finalized_block_hash : BitVec 256}
    {payload_attributes : Phase ⊕ PayloadAttributes E} {response : ForkChoiceUpdatedResponse E}
    (h : forkchoiceUpdated execute head_block_hash safe_block_hash finalized_block_hash
      payload_attributes = .ok response)
    {payload_id : PayloadId} (hid : response.payload_id = some payload_id) :
    ∃ v raw, (payload_attributes.elim id PayloadAttributes.phase).version = some v ∧
      execute ⟨"engine_forkchoiceUpdated" ++ v,
        [.forkChoiceState ⟨head_block_hash, safe_block_hash, finalized_block_hash⟩,
          .payloadAttributes payload_attributes.getRight?],
        some ENGINE_FORKCHOICE_UPDATED_TIMEOUT⟩ = .ok raw ∧
      response.payload_status = raw.payload_status ∧
      raw.payload_id = some (PayloadId.id payload_id) ∧
      (getPayloadRequest payload_id : EngineRequest E).method = "engine_getPayload" ++ v := by
  rcases payload_attributes with phase | attributes
  all_goals first | cases phase | cases attributes
  all_goals simp only [forkchoiceUpdated, Sum.elim_inl, Sum.elim_inr, id, PayloadAttributes.phase,
    bind, Except.bind, pure, Except.pure] at h
  -- Before Bellatrix nothing is returned; from Bellatrix on, the response is the client's, with
  -- its id tagged by the phase.
  all_goals try cases h
  all_goals
    split at h
    · cases h
    · next raw hr =>
      cases h
      obtain ⟨x, hx, rfl⟩ := Option.map_eq_some'.1 hid
      exact ⟨_, raw, rfl, hr, rfl, hx, rfl⟩

end Eth1Api

end Grandine
