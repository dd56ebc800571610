import Mathlib.Data.List.Basic

/-!
# The Eth1 API: endpoints and fallback

`Eth1Api` (`eth1_api.rs`) sends every request through `request_with_fallback`. Its endpoints,
ordered by preference (`original`), are walked by a cursor (`endpoints`, what remains of an
iterator over `original`), shared by all calls behind a lock. A call tries the endpoint under
the cursor; on a failure it advances the cursor and tries the next; once the cursor is
exhausted it resets it to `original` and fails with `EndpointsExhausted` (or
`NoEndpointsProvided` when there are no endpoints at all). A success leaves the cursor where it
is, so that the next call starts from the endpoint that last answered.

Besides its answer, a call has effects (`Effect`): the requests it sends, the connection data
it sends to the metrics task (when that channel is set), the Prometheus counters it increments
(when the metrics are set) and its warnings.

This module runs one call with no other call interleaved (`requestWithFallback`), given what
each attempt meets (`Answer`). From cursor position `k`, it tries `original[k]`, `original[k+1]`,
…, and stops at the first success, or exhausts the endpoints
(`requestWithFallback_alone`). `Grandine.Eth1Api.Concurrent` interleaves calls.
-/

namespace Grandine

/-- A `Url`. -/
abbrev Url := String

/-- The errors of the Eth1 API: those of `eth1_api.rs`, and the others it passes on
    (`anyhow::Error`: transport, authorization, decoding), by message. -/
inductive Error
  | endpointsExhausted
  | invalidParameters
  | noEndpointsProvided
  | phasePreBellatrix
  | other (message : String)
  deriving DecidableEq, Repr

/-- `Eth1ConnectionData`: what the metrics task is told of the connection. -/
structure Eth1ConnectionData where
  syncEth1Connected : Bool
  syncEth1FallbackConnected : Bool
  deriving DecidableEq, Repr

/-- What a call of `request_with_fallback` does besides answering. -/
inductive Effect
  /-- The request is sent to the endpoint. -/
  | request (url : Url)
  /-- `Eth1ApiToMetrics::Eth1Connection(data)` is sent to the metrics task. -/
  | connection (data : Eth1ConnectionData)
  /-- `eth1_api_errors_count` is incremented. -/
  | errorsCount
  /-- The warning that the endpoint failed with `error`, naming the next one (none: it was the
      last). -/
  | warn (url : Url) (error : String) (next : Option Url)
  /-- `eth1_api_reset_count` is incremented. -/
  | resetCount
  deriving DecidableEq, Repr

/-- What an attempt on an endpoint meets. -/
inductive Answer (O : Type)
  /-- `auth.headers()` fails: the call returns its error at once. -/
  | aborted (message : String)
  /-- The endpoint answers. -/
  | ok (result : O)
  /-- The request fails: a transport error, a timeout, or an answer that does not decode. The
      error is only logged. -/
  | failed (message : String)

/-- What `request_with_fallback` uses of an `Eth1Api`. -/
structure Eth1Api where
  /-- The endpoints, by preference. -/
  original : List Url
  /-- The cursor: what remains of the iterator over `original`. -/
  endpoints : List Url
  /-- Whether the channel to the metrics task (`eth1_api_to_metrics_tx`) is set. -/
  eth1ApiToMetricsTx : Bool
  /-- Whether the Prometheus metrics (`metrics`) are set. -/
  metrics : Bool

/-- What a call leaves and does: the cursor after it, its effects in order, and its answer. -/
structure Outcome (O : Type) where
  endpoints : List Url
  effects : List Effect
  result : Except Error O

/-- The endpoints requested, in order. -/
def requests (effects : List Effect) : List Url :=
  effects.filterMap fun | .request url => some url | _ => none

/-- The connection data sent to the metrics task, in order. -/
def connections (effects : List Effect) : List Eth1ConnectionData :=
  effects.filterMap fun | .connection data => some data | _ => none

namespace Eth1Api

/-- `Eth1Api::new`: the cursor starts at the first endpoint. -/
def new (eth1_rpc_urls : List Url) (eth1_api_to_metrics_tx metrics : Bool) : Eth1Api :=
  ⟨eth1_rpc_urls, eth1_rpc_urls, eth1_api_to_metrics_tx, metrics⟩

/-- `Eth1Api::current_endpoint`. -/
def currentEndpoint (endpoints : List Url) : Option Url := endpoints.head?

/-- `Eth1Api::next_endpoint`: the cursor advanced (the endpoint it yields is dropped). -/
def nextEndpoint (endpoints : List Url) : List Url := endpoints.tail

/-- `Eth1Api::peek_next_endpoint`. -/
def peekNextEndpoint (endpoints : List Url) : Option Url := endpoints[1]?

/-- The position of the cursor in `original`. -/
def position (api : Eth1Api) (endpoints : List Url) : Nat :=
  api.original.length - endpoints.length

/-- Sending the connection data to the metrics task, when the channel is set. -/
def sent (api : Eth1Api) (data : Eth1ConnectionData) : List Effect :=
  if api.eth1ApiToMetricsTx then [.connection data] else []

/-- Incrementing a Prometheus counter, when the metrics are set. -/
def counted (api : Eth1Api) (counter : Effect) : List Effect :=
  if api.metrics then [counter] else []

/-- The effects of the success of the request to `url`. -/
def succeeded (api : Eth1Api) (url : Url) : List Effect :=
  .request url :: api.sent ⟨true, api.original.head? != some url⟩

/-- The effects of the failure of the request to `url` with `error`, `next` being the next
    endpoint. -/
def failed (api : Eth1Api) (url : Url) (error : String) (next : Option Url) : List Effect :=
  .request url :: api.counted .errorsCount ++ .warn url error next :: api.sent ⟨false, false⟩

/-- The error once the cursor is exhausted. -/
def exhaustedError (api : Eth1Api) : Error :=
  if api.original.isEmpty then .noEndpointsProvided else .endpointsExhausted

variable {O : Type}

/-- The loop of `request_with_fallback` over the cursor, with no other call interleaved:
    `answer k` is what the attempt on the endpoint at position `k` meets. On a failure the
    cursor advances (`nextEndpoint` of `url :: rest` is `rest`); once it is exhausted, it is
    reset. -/
def fallbackLoop (api : Eth1Api) (answer : Nat → Answer O) : List Url → Outcome O
  | [] => ⟨api.original, api.counted .resetCount, .error api.exhaustedError⟩
  | url :: rest =>
    match answer (api.position (url :: rest)) with
    | .aborted message => ⟨url :: rest, [], .error (.other message)⟩
    | .ok result => ⟨url :: rest, api.succeeded url, .ok result⟩
    | .failed error =>
      let o := fallbackLoop api answer rest
      ⟨o.endpoints, api.failed url error (peekNextEndpoint (url :: rest)) ++ o.effects, o.result⟩

/-- `Eth1Api::request_with_fallback`, with no other call interleaved. -/
def requestWithFallback (api : Eth1Api) (answer : Nat → Answer O) : Outcome O :=
  api.fallbackLoop answer api.endpoints

@[simp] theorem requests_append (e e' : List Effect) :
    requests (e ++ e') = requests e ++ requests e' :=
  List.filterMap_append _ _ _

@[simp] theorem connections_append (e e' : List Effect) :
    connections (e ++ e') = connections e ++ connections e' :=
  List.filterMap_append _ _ _

@[simp] theorem requests_succeeded (api : Eth1Api) (url : Url) :
    requests (api.succeeded url) = [url] := by
  simp [succeeded, sent, requests]

@[simp] theorem requests_failed (api : Eth1Api) (url : Url) (error : String)
    (next : Option Url) : requests (api.failed url error next) = [url] := by
  simp only [failed, counted, sent, requests]; split <;> split <;> rfl

@[simp] theorem connections_succeeded (api : Eth1Api) (url : Url) :
    connections (api.succeeded url) =
      if api.eth1ApiToMetricsTx then [⟨true, api.original.head? != some url⟩] else [] := by
  simp only [succeeded, sent, connections]; split <;> rfl

@[simp] theorem connections_failed (api : Eth1Api) (url : Url) (error : String)
    (next : Option Url) : connections (api.failed url error next) =
      if api.eth1ApiToMetricsTx then [⟨false, false⟩] else [] := by
  simp only [failed, counted, sent, connections]; split <;> split <;> rfl

theorem position_drop (api : Eth1Api) {i : Nat} (hi : i ≤ api.original.length) :
    api.position (api.original.drop i) = i := by
  simp only [position, List.length_drop]; omega

/-- One turn of the loop, on the cursor at position `i`. -/
theorem fallbackLoop_drop (api : Eth1Api) (answer : Nat → Answer O) {i : Nat}
    (hi : i < api.original.length) :
    api.fallbackLoop answer (api.original.drop i) =
      match answer i with
      | .aborted message => ⟨api.original.drop i, [], .error (.other message)⟩
      | .ok result => ⟨api.original.drop i, api.succeeded api.original[i], .ok result⟩
      | .failed error =>
        let o := api.fallbackLoop answer (api.original.drop (i + 1))
        ⟨o.endpoints, api.failed api.original[i] error (peekNextEndpoint (api.original.drop i)) ++
          o.effects, o.result⟩ := by
  conv_lhs => rw [List.drop_eq_getElem_cons hi]
  rw [fallbackLoop, ← List.drop_eq_getElem_cons hi, position_drop api hi.le]

/-- Failures from position `i` to `j` walk the cursor from `i` to `j`: the call requests the
    endpoints in between, one after another, and sends one disconnection each. -/
theorem fallbackLoop_failed (api : Eth1Api) (answer : Nat → Answer O) {i j : Nat} (hij : i ≤ j)
    (hj : j ≤ api.original.length) (hfail : ∀ p, i ≤ p → p < j → ∃ e, answer p = .failed e) :
    (api.fallbackLoop answer (api.original.drop i)).endpoints =
        (api.fallbackLoop answer (api.original.drop j)).endpoints ∧
      (api.fallbackLoop answer (api.original.drop i)).result =
        (api.fallbackLoop answer (api.original.drop j)).result ∧
      requests (api.fallbackLoop answer (api.original.drop i)).effects =
        (api.original.drop i).take (j - i) ++
          requests (api.fallbackLoop answer (api.original.drop j)).effects ∧
      connections (api.fallbackLoop answer (api.original.drop i)).effects =
        (if api.eth1ApiToMetricsTx then List.replicate (j - i) ⟨false, false⟩ else []) ++
          connections (api.fallbackLoop answer (api.original.drop j)).effects := by
  obtain ⟨d, hd⟩ : ∃ d, j - i = d := ⟨_, rfl⟩
  induction d generalizing i with
  | zero =>
    obtain rfl : i = j := by omega
    simp
  | succ d ih =>
    have hi : i < api.original.length := by omega
    obtain ⟨e, he⟩ := hfail i le_rfl (by omega)
    obtain ⟨h₁, h₂, h₃, h₄⟩ :=
      @ih (i + 1) (by omega) (fun p hp hpj => hfail p (by omega) hpj) (by omega)
    have hsucc : j - i = j - (i + 1) + 1 := by omega
    rw [fallbackLoop_drop api answer hi, he]
    refine ⟨h₁, h₂, ?_, ?_⟩
    · rw [requests_append, requests_failed, h₃, hsucc, List.drop_eq_getElem_cons hi,
        List.take_succ_cons]
      rfl
    · rw [connections_append, connections_failed, h₄, hsucc]
      split <;> simp [List.replicate_succ]

/-- One call with no other call interleaved, from the cursor at position `k`. When the
    endpoints from `original[k]` on fail up to `original[j]`, which answers, the call answers its
    result, leaves the cursor on it, has requested `original[k]`, …, `original[j]` in order, and
    has sent one disconnection per failure, then one connection, a fallback unless the endpoint
    is the first of `original`; when every endpoint from `original[k]` on fails, it has requested
    each of them, it resets the cursor, and it fails with `NoEndpointsProvided` (no endpoints) or
    `EndpointsExhausted`. The connection data is only sent when the metrics channel is set. -/
theorem requestWithFallback_alone {api : Eth1Api} {k : Nat} (hk : k ≤ api.original.length)
    (hcursor : api.endpoints = api.original.drop k) (answer : Nat → Answer O) :
    (∀ j r, k ≤ j → j < api.original.length → answer j = .ok r →
        (∀ i, k ≤ i → i < j → ∃ e, answer i = .failed e) →
      (api.requestWithFallback answer).result = .ok r ∧
      (api.requestWithFallback answer).endpoints = api.original.drop j ∧
      requests (api.requestWithFallback answer).effects = (api.original.drop k).take (j + 1 - k) ∧
      connections (api.requestWithFallback answer).effects =
        if api.eth1ApiToMetricsTx then
          List.replicate (j - k) ⟨false, false⟩ ++ [⟨true, api.original.head? != api.original[j]?⟩]
        else []) ∧
    ((∀ i, k ≤ i → i < api.original.length → ∃ e, answer i = .failed e) →
      (api.requestWithFallback answer).result =
        .error (if api.original = [] then .noEndpointsProvided else .endpointsExhausted) ∧
      (api.requestWithFallback answer).endpoints = api.original ∧
      requests (api.requestWithFallback answer).effects = api.original.drop k ∧
      connections (api.requestWithFallback answer).effects =
        if api.eth1ApiToMetricsTx then List.replicate (api.original.length - k) ⟨false, false⟩
        else []) := by
  rw [requestWithFallback, hcursor]
  constructor
  · intro j r hkj hj hr hfail
    obtain ⟨h₁, h₂, h₃, h₄⟩ := fallbackLoop_failed api answer hkj hj.le hfail
    rw [fallbackLoop_drop api answer hj, hr] at h₁ h₂ h₃ h₄
    refine ⟨h₂, h₁, ?_, ?_⟩
    · rw [h₃, requests_succeeded, show j + 1 - k = j - k + 1 by omega, List.take_add,
        List.drop_drop, Nat.add_sub_cancel' hkj, List.drop_eq_getElem_cons hj]
      rfl
    · rw [h₄, connections_succeeded, List.getElem?_eq_getElem hj]
      split <;> simp
  · intro hfail
    obtain ⟨h₁, h₂, h₃, h₄⟩ := fallbackLoop_failed api answer hk le_rfl hfail
    rw [List.drop_length] at h₁ h₂ h₃ h₄
    refine ⟨?_, h₁, ?_, ?_⟩
    · rw [h₂]
      simp [fallbackLoop, exhaustedError]
    · rw [h₃, List.take_of_length_le (by simp)]
      simp only [fallbackLoop, counted]
      split <;> simp [requests]
    · rw [h₄]
      simp [fallbackLoop, counted, connections]

/-- Two endpoints from the start, the first failing and the second answering. -/
theorem requestWithFallback_alone_fallback :
    0 ≤ 2 ∧ ["a", "b"] = ["a", "b"].drop 0 ∧
    ((⟨["a", "b"], ["a", "b"], true, true⟩ : Eth1Api).requestWithFallback
        (fun i => if i = 0 then .failed "timeout" else .ok ())).result = .ok () ∧
    requests ((⟨["a", "b"], ["a", "b"], true, true⟩ : Eth1Api).requestWithFallback
        (fun i => if i = 0 then .failed "timeout" else .ok ())).effects = ["a", "b"] ∧
    connections ((⟨["a", "b"], ["a", "b"], true, true⟩ : Eth1Api).requestWithFallback
        (fun i => if i = 0 then .failed "timeout" else .ok ())).effects =
      [⟨false, false⟩, ⟨true, true⟩] :=
  let h := (@requestWithFallback_alone Unit ⟨["a", "b"], ["a", "b"], true, true⟩ 0 (by decide) rfl
    (fun i => if i = 0 then .failed "timeout" else .ok ())).1 1 () (by decide)
    (by decide) rfl (fun i _ hi => ⟨"timeout", by simp [Nat.lt_one_iff.1 hi]⟩)
  ⟨by decide, rfl, h.1, h.2.2.1, h.2.2.2⟩

/-- Without the channel to the metrics task, a call that succeeds sends no connection data. -/
theorem requestWithFallback_without_channel :
    ((⟨["a"], ["a"], false, false⟩ : Eth1Api).requestWithFallback fun _ => .ok ()).result =
      .ok () ∧
    connections ((⟨["a"], ["a"], false, false⟩ : Eth1Api).requestWithFallback
      fun _ => .ok ()).effects = [] :=
  ⟨rfl, rfl⟩

end Eth1Api

end Grandine
