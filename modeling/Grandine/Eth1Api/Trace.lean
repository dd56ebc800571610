import Grandine.Eth1Api.Concurrent

/-!
# What each call sends, in any interleaving

Each call of `request_with_fallback` sends its requests, its telemetry and its warnings in an
order fixed by its code, whatever the other calls do to the shared cursor. A failed attempt
sends the request, increments the errors counter when the metrics are set, warns, and sends the
disconnection when the metrics channel is set, all before the call advances the cursor. A
success sends the request, and the connection data when the channel is set, before the call
returns. An exhausted cursor is counted, when the metrics are set, after the call has reset it.
An attempt whose answer has not come has sent nothing yet: its request is recorded with its
answer. Each request goes to the endpoint of `original` at the position of the cursor that the
call read under the lock, even when other calls have moved the cursor since.

A call's own marks (`own`) are its history without the resets by other calls: its attempts and
their failures. What it sent for its failed attempts is `Failures`; what it has sent at each
point of its code is `Sent`.

* `Request.Traced.step`: a step of a call keeps what it sent in line with its marks;
* `System.Traced.run`: so does every run, where the other calls' steps only add resets to its
  history;
* `interleaved_effects`: in any interleaving of any number of calls from `Eth1Api::new`, every
  call has sent, in order, one block of effects per failed attempt, to the endpoint at the
  attempt's position, then those of how it returned;
* `interleaved_counters`: so each call increments `eth1_api_errors_count` once per failed
  attempt, and `eth1_api_reset_count` once exactly when it returns the error of an exhausted
  cursor, when the metrics are set, and neither when they are not.
-/

namespace Grandine

namespace Eth1Api

/-- The marks of a call's own steps: its history without the resets by other calls. -/
@[simp] def own : List Mark → List Mark
  | [] => []
  | .attempt k :: h => .attempt k :: own h
  | .failed :: h => .failed :: own h
  | .reset :: h => own h

/-- The failed attempts of a call, newest first, and what it sent for them, in order: for the
    attempt at position `k`, the request to `original[k]`, the error counted, the warning naming
    the endpoint that was next, and the disconnection. -/
inductive Failures (api : Eth1Api) : List Mark → List Effect → Prop
  | nil : Failures api [] []
  | cons {h : List Mark} {e : List Effect} {k : Nat} {url : Url} (error : String)
      (next : Option Url) :
      Failures api h e → api.original[k]? = some url →
      Failures api (.failed :: .attempt k :: h) (e ++ api.failed url error next)

variable {O : Type}

/-- What a call has sent at each point of its code, from its own marks `h`: one block per failed
    attempt; then nothing for an attempt awaiting its answer, the request and the error counted
    of a failed attempt not yet reported, or the effects of how it returned: those of the success
    of its last attempt, the reset counted once the cursor was exhausted, nothing more when the
    headers failed. Counters and connection data are sent only when the metrics, or the channel,
    are set (`counted`, `sent`). -/
def Sent (api : Eth1Api) (h : List Mark) (e : List Effect) : Pc O → Prop
  | .loop => Failures api h e
  | .query url =>
    ∃ k h', h = .attempt k :: h' ∧ api.original[k]? = some url ∧ Failures api h' e
  | .peek url _ =>
    ∃ k h' e', h = .failed :: .attempt k :: h' ∧ api.original[k]? = some url ∧
      Failures api h' e' ∧ e = e' ++ .request url :: api.counted .errorsCount
  | .advance => Failures api h e
  | .reset => Failures api h e
  | .done (.ok _) =>
    ∃ k url h' e', h = .attempt k :: h' ∧ api.original[k]? = some url ∧ Failures api h' e' ∧
      e = e' ++ api.succeeded url
  | .done (.error error) =>
    (error = api.exhaustedError ∧ ∃ e', Failures api h e' ∧ e = e' ++ api.counted .resetCount) ∨
      ∃ message k h', error = .other message ∧ h = .attempt k :: h' ∧ Failures api h' e

/-- A call has sent what its marks say. -/
def Request.Traced (api : Eth1Api) (r : Request O) : Prop := Sent api (own r.history) r.effects r.pc

/-! ## The cursor does not matter -/

theorem Failures.withEndpoints {api : Eth1Api} {h : List Mark} {e : List Effect}
    (hf : Failures api h e) (endpoints : List Url) : Failures { api with endpoints } h e := by
  induction hf with
  | nil => exact .nil
  | cons error next _ hk ih => exact .cons error next ih hk

theorem Request.Traced.withEndpoints {api : Eth1Api} {r : Request O} (hr : r.Traced api)
    (endpoints : List Url) : r.Traced { api with endpoints } := by
  obtain ⟨pc, effects, history⟩ := r
  unfold Traced at hr ⊢
  cases pc with
  | loop | advance | reset => exact Failures.withEndpoints hr endpoints
  | query url =>
    obtain ⟨k, h', hh, hk, hf⟩ := hr
    exact ⟨k, h', hh, hk, hf.withEndpoints endpoints⟩
  | peek url error =>
    obtain ⟨k, h', e', hh, hk, hf, he⟩ := hr
    exact ⟨k, h', e', hh, hk, hf.withEndpoints endpoints, he⟩
  | done result =>
    cases result with
    | ok result =>
      obtain ⟨k, url, h', e', hh, hk, hf, he⟩ := hr
      exact ⟨k, url, h', e', hh, hk, hf.withEndpoints endpoints, he⟩
    | error error =>
      rcases hr with ⟨he, e', hf, hee⟩ | ⟨message, k, h', he, hh, hf⟩
      · exact .inl ⟨he, e', hf.withEndpoints endpoints, hee⟩
      · exact .inr ⟨message, k, h', he, hh, hf.withEndpoints endpoints⟩

/-- A reset by another call is not one of the call's own marks. -/
theorem Request.Traced.noteReset {api : Eth1Api} {r : Request O} (hr : r.Traced api) :
    r.noteReset.Traced api := by
  unfold Request.noteReset
  split <;> exact hr

/-! ## A step -/

/-- The endpoint under the cursor is the one of `original` at the cursor's position. -/
theorem getElem?_position {api : Eth1Api} (hs : api.endpoints <:+ api.original) {url : Url}
    (hu : currentEndpoint api.endpoints = some url) :
    api.original[api.position api.endpoints]? = some url := by
  obtain ⟨p, hp⟩ := hs
  rw [position, ← hp, List.length_append, Nat.add_sub_cancel,
    List.getElem?_append_right le_rfl, Nat.sub_self, ← List.head?_eq_getElem?]
  exact hu

/-- A step of a call, with the cursor a suffix of `original`, keeps what it sent in line with
    its marks. -/
theorem Request.Traced.step {api : Eth1Api} (hs : api.endpoints <:+ api.original)
    {r : Request O} (hr : r.Traced api) (answer : Answer O) : (r.step api answer).2.Traced api := by
  obtain ⟨pc, effects, history⟩ := r
  unfold Traced at hr ⊢
  cases pc with
  | loop =>
    simp only [Request.step]
    split
    · next url hu => exact ⟨_, _, rfl, getElem?_position hs hu, hr⟩
    · exact hr
  | query url =>
    obtain ⟨k, h', hh, hk, hf⟩ := hr
    simp only [Request.step]
    split
    · exact .inr ⟨_, k, h', rfl, hh, hf⟩
    · exact ⟨k, url, h', effects, hh, hk, hf, rfl⟩
    · exact ⟨k, h', effects, by simp [hh], hk, hf, rfl⟩
  | peek url error =>
    -- The warning and the disconnection complete the block of the failed attempt.
    obtain ⟨k, h', e', hh, hk, hf, rfl⟩ := hr
    show Failures api (own history) _
    rw [hh]
    simp only [Request.step, List.append_assoc]
    exact .cons error _ hf hk
  | advance => exact hr
  | reset => exact .inl ⟨rfl, effects, hr, rfl⟩
  | done result => exact hr

/-! ## Any interleaving -/

namespace System

/-- Every call has sent what its marks say. -/
def Traced (s : System O) : Prop := ∀ r ∈ s.calls, r.Traced s.api

theorem init_traced (api : Eth1Api) : (init api : System O).Traced :=
  fun _ h => by simp [init] at h

/-- Every action keeps every call traced: the call that steps by `Request.Traced.step`, the
    others because a reset by it is not one of their own marks and the cursor does not matter. -/
theorem Traced.step {s : System O} (hs : s.Inv) (ht : s.Traced) : ∀ a, (s.step a).Traced
  | .call => fun r hr => by
    rcases List.mem_append.1 hr with hr | hr
    · exact ht r hr
    · rw [List.mem_singleton.1 hr]; exact Failures.nil
  | .step i answer => by
    simp only [System.step]
    split
    · exact ht
    · next r hget =>
      have hr := (ht r (List.getElem?_mem hget)).step hs.suffix answer
      intro r₀ h₀
      refine Request.Traced.withEndpoints ?_ _
      split at h₀
      · obtain ⟨r₁, h₁, rfl⟩ := List.mem_map.1 h₀
        rcases List.mem_or_eq_of_mem_set h₁ with h₁ | rfl
        · exact (ht r₁ h₁).noteReset
        · exact hr.noteReset
      · rcases List.mem_or_eq_of_mem_set h₀ with h₀ | rfl
        · exact ht r₀ h₀
        · exact hr

theorem Traced.run {s : System O} (hs : s.Inv) (ht : s.Traced) (acts : List (Action O)) :
    (s.run acts).Traced := by
  induction acts generalizing s with
  | nil => exact ht
  | cons a acts ih => exact ih (hs.step a) (ht.step hs a)

/-- Only the cursor of the `Eth1Api` changes. -/
theorem step_api (s : System O) (a : Action O) :
    (s.step a).api = { s.api with endpoints := (s.step a).api.endpoints } := by
  cases a with
  | call => rfl
  | step i answer => simp only [step]; split <;> rfl

theorem run_api (s : System O) (acts : List (Action O)) :
    (s.run acts).api = { s.api with endpoints := (s.run acts).api.endpoints } := by
  induction acts generalizing s with
  | nil => rfl
  | cons a acts ih =>
    show ((s.step a).run acts).api = _
    conv_lhs => rw [ih, step_api]
    rfl

end System

/-- Every call of a run from `Eth1Api::new` has sent what its marks say, against the `Eth1Api`
    it started on: only the cursor has changed since. -/
theorem traced_of_mem_run {urls : List Url} {tx metrics : Bool} {acts : List (Action O)}
    {r : Request O} (hr : r ∈ ((System.init (new urls tx metrics)).run acts).calls) :
    r.Traced (new urls tx metrics) := by
  have ht := ((System.init_traced _).run (System.init_inv urls tx metrics) acts) r hr
  rw [System.run_api] at ht
  exact ht.withEndpoints urls

/-- Whether the call returned the error of an exhausted cursor. -/
def Pc.exhausted (api : Eth1Api) : Pc O → Bool
  | .done (.error error) => error == api.exhaustedError
  | _ => false

section Counters

variable {api : Eth1Api}

theorem count_failed (url : Url) (error : String) (next : Option Url) :
    (api.failed url error next).count .errorsCount = (if api.metrics then 1 else 0) ∧
      (api.failed url error next).count .resetCount = 0 := by
  simp only [failed, counted, sent]; split <;> split <;> simp

theorem count_succeeded (url : Url) :
    (api.succeeded url).count .errorsCount = 0 ∧ (api.succeeded url).count .resetCount = 0 := by
  simp only [succeeded, sent]; split <;> simp

theorem failures_own (h : List Mark) : failures (own h) = failures h := by
  induction h with
  | nil => rfl
  | cons m h ih => cases m <;> simp [ih]

/-- Each failed attempt counts one error, and none resets. -/
theorem Failures.count {h : List Mark} {e : List Effect} (hf : Failures api h e) :
    e.count .errorsCount = (if api.metrics then failures h else 0) ∧ e.count .resetCount = 0 := by
  induction hf with
  | nil => simp
  | @cons h e k url error next _ _ ih =>
    obtain ⟨he, hr⟩ := @count_failed api url error next
    simp only [List.count_append, ih.1, ih.2, he, hr, failures]
    split <;> simp

/-- What a call has sent counts one error per failed attempt, and one reset once it has returned
    the error of an exhausted cursor, when the metrics are set. -/
theorem Sent.count {h : List Mark} {e : List Effect} {pc : Pc O} (hs : Sent api h e pc) :
    e.count .errorsCount = (if api.metrics then failures h else 0) ∧
      e.count .resetCount = (if api.metrics && pc.exhausted api then 1 else 0) := by
  cases pc with
  | loop | advance | reset => simpa [Pc.exhausted] using Failures.count hs
  | query url =>
    obtain ⟨k, h', rfl, -, hf⟩ := hs
    simpa [Pc.exhausted] using hf.count
  | peek url error =>
    obtain ⟨k, h', e', rfl, -, hf, rfl⟩ := hs
    have := hf.count
    simp only [List.count_append, counted, Pc.exhausted, failures]
    split <;> simp_all
  | done result =>
    cases result with
    | ok result =>
      obtain ⟨k, url, h', e', rfl, -, hf, rfl⟩ := hs
      simpa [Pc.exhausted, List.count_append, (count_succeeded url).1, (count_succeeded url).2]
        using hf.count
    | error error =>
      rcases hs with ⟨rfl, e', hf, rfl⟩ | ⟨message, k, h', rfl, rfl, hf⟩
      · have := hf.count
        simp only [List.count_append, counted, Pc.exhausted, beq_self_eq_true, Bool.and_true]
        split <;> simp_all
      · -- The headers failed: no reset, as the error is not that of an exhausted cursor.
        have hne : (Error.other message == api.exhaustedError) = false := by
          unfold exhaustedError; split <;> rfl
        simpa [Pc.exhausted, hne] using hf.count

end Counters

/-- In any interleaving of calls from `Eth1Api::new`, when the metrics are set, every call has
    incremented `eth1_api_errors_count` once per failed attempt, and `eth1_api_reset_count` once
    if it returned `EndpointsExhausted` or `NoEndpointsProvided` and never otherwise; when they
    are not set, neither. -/
theorem interleaved_counters (urls : List Url) (tx metrics : Bool) (acts : List (Action O)) :
    ∀ r ∈ ((System.init (new urls tx metrics)).run acts).calls,
      r.effects.count .errorsCount = (if metrics then failures r.history else 0) ∧
        r.effects.count .resetCount =
          (if metrics && r.pc.exhausted (new urls tx metrics) then 1 else 0) := by
  intro r hr
  rw [← failures_own]
  exact Sent.count (traced_of_mem_run hr)

/-- In `stickyRun`, the second call counted the failure of `b` and the reset. -/
theorem interleaved_counters_sticky :
    ∃ r ∈ ((System.init (new ["a", "b"] true true)).run stickyRun).calls,
      r.pc = .done (.error .endpointsExhausted) ∧
        r.effects.count .errorsCount = 1 ∧ r.effects.count .resetCount = 1 :=
  have hr := @List.getElem?_mem _ ((System.init (new ["a", "b"] true true)).run stickyRun).calls 1
    ⟨.done (.error .endpointsExhausted), [.request "b", .errorsCount, .warn "b" "timeout" none,
      .connection ⟨false, false⟩, .resetCount], [.failed, .attempt 1]⟩ rfl
  ⟨_, hr, rfl, interleaved_counters ["a", "b"] true true stickyRun _ hr⟩

end Eth1Api

end Grandine
