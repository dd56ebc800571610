import Grandine.Eth1Api

/-!
# Interleaved calls of `request_with_fallback`

The calls of `request_with_fallback` on one `Eth1Api` run concurrently: each is an `async`
task, and they share the cursor, which a call reaches only under the lock, in four atomic
operations (`current_endpoint`, `peek_next_endpoint`, `next_endpoint`, `reset_endpoints`).
Between two of them a call awaits its request, and the other calls go on.

A call (`Request`) is where it stands before its next operation on the cursor (`Pc`), its
effects, and a ghost history (`Mark`, newest first): the position of each endpoint it attempts,
read under the lock; each failure of an attempt; and each reset of the cursor by another call
while it runs. A system is the `Eth1Api`, its cursor included, and the calls started on it; an
action starts a call, or lets a call take its next step, with what its request meets when that
step is the request. Any interleaving of any number of calls, with any answers of the
endpoints, is a list of actions (`System.run`).

* `System.Inv.run`: the invariant holds along every run: the cursor is a suffix of `original`,
  and the attempts of each call are at increasing positions between two resets;
* `interleaved_cursor_attempts`: from `Eth1Api::new`, the cursor is always `original[k..]`; two
  attempts of a call with no reset between them are at increasing positions; and a call makes
  at most `|original| · (R + 1)` attempts, `R` the resets by other calls while it runs;
* `exhausted_after_failures`: a call that returns `EndpointsExhausted` had endpoints, and each of
  its attempts failed;
* `sticky_cursor_exhausts`: but it need not have attempted them all. The cursor is shared and a
  success leaves it in place, so a call starts where the last one stopped;
* `alone_requestWithFallback`: a call that runs alone, given enough steps, ends as the sequential
  `requestWithFallback` of `Grandine.Eth1Api` does, with the same result, effects and cursor.
-/

namespace Grandine

namespace Eth1Api

/-- Where a call of `request_with_fallback` stands: before its next operation on the cursor, or
    returned. -/
inductive Pc (O : Type)
  /-- At `while let Some(url) = self.current_endpoint().await`. -/
  | loop
  /-- The cursor gave `url`: the headers, the request to `url` and its answer. -/
  | query (url : Url)
  /-- The request to `url` failed with `error`: `self.peek_next_endpoint()`, for the warning. -/
  | peek (url : Url) (error : String)
  /-- `self.next_endpoint()`. -/
  | advance
  /-- The cursor gave nothing: `self.reset_endpoints()`. -/
  | reset
  /-- The call returned `result`. -/
  | done (result : Except Error O)

/-- What the history of a call records. -/
inductive Mark
  /-- The call read the cursor at position `k` of `original`, and attempts that endpoint. -/
  | attempt (k : Nat)
  /-- The attempt failed. -/
  | failed
  /-- Another call reset the cursor. -/
  | reset
  deriving DecidableEq, Repr

/-- A call of `request_with_fallback`: where it stands, its effects in order, and its history,
    newest first. -/
structure Request (O : Type) where
  pc : Pc O
  effects : List Effect
  history : List Mark

variable {O : Type}

/-- Whether a call is still running. -/
def Pc.running : Pc O → Bool
  | .done _ => false
  | _ => true

/-- Whether the next step of a call resets the cursor. -/
def Pc.resetting : Pc O → Bool
  | .reset => true
  | _ => false

/-- One step of a call, under the lock when it is an operation on the cursor of `api`: the
    cursor and the call after it. `answer` is what the request meets, when the step is the
    request. -/
def Request.step (api : Eth1Api) (answer : Answer O) (r : Request O) : List Url × Request O :=
  match r.pc with
  | .loop =>
    match currentEndpoint api.endpoints with
    | some url =>
      (api.endpoints, ⟨.query url, r.effects, .attempt (api.position api.endpoints) :: r.history⟩)
    | none => (api.endpoints, { r with pc := .reset })
  | .query url =>
    match answer with
    | .aborted message => (api.endpoints, { r with pc := .done (.error (.other message)) })
    | .ok result =>
      (api.endpoints, ⟨.done (.ok result), r.effects ++ api.succeeded url, r.history⟩)
    | .failed error =>
      (api.endpoints, ⟨.peek url error, r.effects ++ .request url :: api.counted .errorsCount,
        .failed :: r.history⟩)
  | .peek url error =>
    (api.endpoints, ⟨.advance, r.effects ++
      .warn url error (peekNextEndpoint api.endpoints) :: api.sent ⟨false, false⟩, r.history⟩)
  | .advance => (nextEndpoint api.endpoints, { r with pc := .loop })
  | .reset =>
    (api.original,
      ⟨.done (.error api.exhaustedError), r.effects ++ api.counted .resetCount, r.history⟩)
  | .done _ => (api.endpoints, r)

/-- A call still running records that another call reset the cursor. -/
def Request.noteReset (r : Request O) : Request O :=
  if r.pc.running then { r with history := .reset :: r.history } else r

/-- An `Eth1Api`, its cursor included, and the calls of `request_with_fallback` started on it. -/
structure System (O : Type) where
  api : Eth1Api
  calls : List (Request O)

/-- What can happen next. -/
inductive Action (O : Type)
  /-- A call of `request_with_fallback` starts. -/
  | call
  /-- Call `i` takes its next step; `answer` is what its request meets, if that step is the
      request. -/
  | step (i : Nat) (answer : Answer O)

namespace System

/-- No call has started yet. -/
def init (api : Eth1Api) : System O := ⟨api, []⟩

/-- One action. A reset is recorded by every other call still running. -/
def step (s : System O) : Action O → System O
  | .call => ⟨s.api, s.calls ++ [⟨.loop, [], []⟩]⟩
  | .step i answer =>
    match s.calls[i]? with
    | none => s
    | some r =>
      let calls := s.calls.set i (r.step s.api answer).2
      ⟨{ s.api with endpoints := (r.step s.api answer).1 },
        if r.pc.resetting then calls.map Request.noteReset else calls⟩

/-- The actions, one after another. -/
def run (s : System O) (acts : List (Action O)) : System O := acts.foldl step s

end System

/-! ## Histories -/

/-- The position of the newest attempt since the newest reset. -/
@[simp] def latest : List Mark → Option Nat
  | [] => none
  | .attempt k :: _ => some k
  | .failed :: h => latest h
  | .reset :: _ => none

/-- The number of attempts. -/
@[simp] def attempts : List Mark → Nat
  | [] => 0
  | .attempt _ :: h => attempts h + 1
  | .failed :: h => attempts h
  | .reset :: h => attempts h

/-- The number of failed attempts. -/
@[simp] def failures : List Mark → Nat
  | [] => 0
  | .attempt _ :: h => failures h
  | .failed :: h => failures h + 1
  | .reset :: h => failures h

/-- The number of resets by other calls. -/
@[simp] def resets : List Mark → Nat
  | [] => 0
  | .attempt _ :: h => resets h
  | .failed :: h => resets h
  | .reset :: h => resets h + 1

/-- The attempts are at positions below `n`, each above the newest one before it since the
    newest reset. -/
@[simp] def Increasing (n : Nat) : List Mark → Prop
  | [] => True
  | .attempt k :: h => k < n ∧ (∀ j, latest h = some j → j < k) ∧ Increasing n h
  | .failed :: h => Increasing n h
  | .reset :: h => Increasing n h

section Increasing

variable {n : Nat}

theorem Increasing.tail {m : Mark} {h : List Mark} (hi : Increasing n (m :: h)) :
    Increasing n h := by
  cases m with
  | attempt k => exact hi.2.2
  | failed => exact hi
  | reset => exact hi

theorem Increasing.latest_lt {h : List Mark} (hi : Increasing n h) {k : Nat}
    (hk : latest h = some k) : k < n := by
  induction h with
  | nil => simp at hk
  | cons m h ih =>
    cases m with
    | attempt j => simp only [latest, Option.some.injEq] at hk; exact hk ▸ hi.1
    | failed => exact ih hi hk
    | reset => simp at hk

theorem Increasing.elim_latest_le {h : List Mark} (hi : Increasing n h) :
    (latest h).elim 0 (· + 1) ≤ n := by
  cases hl : latest h with
  | none => exact Nat.zero_le _
  | some j => exact hi.latest_lt hl

/-- An attempt with no reset after it bounds the newest attempt from below. -/
theorem Increasing.le_latest {k : Nat} {h₁ m : List Mark}
    (hi : Increasing n (m ++ .attempt k :: h₁)) (hm : .reset ∉ m) :
    ∃ j, latest (m ++ .attempt k :: h₁) = some j ∧ k ≤ j := by
  induction m with
  | nil => exact ⟨k, rfl, le_rfl⟩
  | cons x m ih =>
    have ih := ih hi.tail fun h => hm (.tail _ h)
    cases x with
    | attempt j =>
      obtain ⟨j', hj', hkj'⟩ := ih
      exact ⟨j, rfl, hkj'.trans (hi.2.1 j' hj').le⟩
    | failed => exact ih
    | reset => exact absurd (List.mem_cons_self _ _) hm

/-- Two attempts with no reset between them are at increasing positions. -/
theorem Increasing.lt_of_eq_append {k k' : Nat} {h₁ m h₂ : List Mark}
    (hi : Increasing n (h₂ ++ .attempt k' :: (m ++ .attempt k :: h₁))) (hm : .reset ∉ m) :
    k < k' := by
  induction h₂ with
  | nil =>
    obtain ⟨j, hj, hkj⟩ := hi.2.2.le_latest hm
    exact Nat.lt_of_le_of_lt hkj (hi.2.1 j hj)
  | cons x h₂ ih => exact ih hi.tail

/-- Counting the attempts segment by segment: between two resets there are at most `n`, and
    in the newest segment at most one more than the newest position. -/
theorem Increasing.attempts_add_le {h : List Mark} (hi : Increasing n h) :
    attempts h + n ≤ n * (resets h + 1) + (latest h).elim 0 (· + 1) := by
  induction h with
  | nil => simp
  | cons m h ih =>
    have ih := ih hi.tail
    cases m with
    | attempt k =>
      have hlt : (latest h).elim 0 (· + 1) ≤ k := by
        cases hl : latest h with
        | none => exact Nat.zero_le _
        | some j => exact hi.2.1 j hl
      simp only [attempts, resets, latest, Option.elim_some, Option.elim_none]
      omega
    | failed => simpa using ih
    | reset =>
      have hle := hi.tail.elim_latest_le
      have hmul : n * (resets h + 1 + 1) = n * (resets h + 1) + n := Nat.mul_succ _ _
      simp only [attempts, resets, latest, Option.elim_some, Option.elim_none]
      omega

theorem Increasing.attempts_le {h : List Mark} (hi : Increasing n h) :
    attempts h ≤ n * (resets h + 1) := by
  have := hi.attempts_add_le
  have := hi.elim_latest_le
  omega

end Increasing

/-! ## The invariant -/

/-- What holds of a call at each point of its code, with `n` endpoints and the cursor at position
    `pos`: since the newest reset, the cursor has not gone back past the newest attempt, and it
    is beyond it once the call has advanced it; every attempt failed but the one in flight; and
    a call that returned `EndpointsExhausted` had endpoints. -/
def PcInv (n pos : Nat) (h : List Mark) : Pc O → Prop
  | .loop => (∀ k, latest h = some k → k < pos) ∧ failures h = attempts h
  | .query _ => (∀ k, latest h = some k → k ≤ pos) ∧ failures h + 1 = attempts h
  | .peek _ _ => (∀ k, latest h = some k → k ≤ pos) ∧ failures h = attempts h
  | .advance => (∀ k, latest h = some k → k ≤ pos) ∧ failures h = attempts h
  | .reset => failures h = attempts h
  | .done result => result = .error .endpointsExhausted → 0 < n ∧ failures h = attempts h

/-- The invariant of a call, with `n` endpoints and the cursor at position `pos`. -/
structure Request.Inv (n pos : Nat) (r : Request O) : Prop where
  increasing : Increasing n r.history
  pc : PcInv n pos r.history r.pc

/-- The invariant of a system: the cursor is a suffix of `original`, and every call keeps its
    invariant. -/
structure System.Inv (s : System O) : Prop where
  suffix : s.api.endpoints <:+ s.api.original
  calls : ∀ r ∈ s.calls, r.Inv s.api.original.length (s.api.position s.api.endpoints)

theorem PcInv.mono {n pos pos' : Nat} {h : List Mark} (hle : pos ≤ pos') :
    ∀ {pc : Pc O}, PcInv n pos h pc → PcInv n pos' h pc
  | .loop, ⟨hk, hf⟩ => ⟨fun k hl => Nat.lt_of_lt_of_le (hk k hl) hle, hf⟩
  | .query _, ⟨hk, hf⟩ => ⟨fun k hl => (hk k hl).trans hle, hf⟩
  | .peek _ _, ⟨hk, hf⟩ => ⟨fun k hl => (hk k hl).trans hle, hf⟩
  | .advance, ⟨hk, hf⟩ => ⟨fun k hl => (hk k hl).trans hle, hf⟩
  | .reset, hf => hf
  | .done _, hd => hd

namespace Request

variable {n pos : Nat} {r : Request O}

theorem Inv.mono (hr : r.Inv n pos) {pos' : Nat} (hle : pos ≤ pos') : r.Inv n pos' :=
  ⟨hr.increasing, hr.pc.mono hle⟩

/-- A call that records a reset keeps its invariant wherever the cursor is. -/
theorem Inv.noteReset (hr : r.Inv n pos) (pos' : Nat) : r.noteReset.Inv n pos' := by
  obtain ⟨pc, effects, history⟩ := r
  obtain ⟨hi, hp⟩ := hr
  cases pc with
  | done result => exact ⟨hi, hp⟩
  | reset => exact ⟨hi, hp⟩
  -- A running call forgets its newest attempt: the cursor no longer bounds it.
  | _ => exact ⟨hi, by simp, hp.2⟩

/-- The cursor after a step: only advancing and resetting move it. -/
theorem step_fst (api : Eth1Api) (answer : Answer O) (r : Request O) :
    (r.step api answer).1 =
      match r.pc with
      | .advance => nextEndpoint api.endpoints
      | .reset => api.original
      | _ => api.endpoints := by
  obtain ⟨pc, effects, history⟩ := r
  cases pc <;> simp only [step] <;> split <;> rfl

theorem step_suffix {api : Eth1Api} (hs : api.endpoints <:+ api.original) (answer : Answer O)
    (r : Request O) : (r.step api answer).1 <:+ api.original := by
  rw [step_fst]
  split
  · exact (List.tail_suffix _).trans hs
  · exact List.suffix_refl _
  · exact hs

/-- Only a reset moves the cursor back. -/
theorem position_le_step (api : Eth1Api) (answer : Answer O) (r : Request O)
    (h : r.pc.resetting = false) :
    api.position api.endpoints ≤ api.position (r.step api answer).1 := by
  rw [step_fst]
  split
  · simp only [position, nextEndpoint, List.length_tail]; omega
  · simp [Pc.resetting, *] at h
  · exact le_rfl

/-- A step keeps the invariant of the call that takes it. -/
theorem Inv.step {api : Eth1Api} (hs : api.endpoints <:+ api.original)
    (hr : r.Inv api.original.length (api.position api.endpoints)) (answer : Answer O) :
    (r.step api answer).2.Inv api.original.length (api.position (r.step api answer).1) := by
  obtain ⟨pc, effects, history⟩ := r
  obtain ⟨hi, hp⟩ := hr
  cases pc with
  | loop =>
    simp only [step]
    split
    · next url he =>
      -- The cursor gave an endpoint, so it is not exhausted: the attempt is below `n`.
      have hlt : api.position api.endpoints < api.original.length := by
        have := hs.length_le
        have : 0 < api.endpoints.length :=
          List.length_pos.2 fun h => by simp [h, currentEndpoint] at he
        simp only [position]; omega
      exact ⟨⟨hlt, hp.1, hi⟩, fun k hk => by simp at hk ⊢; omega, by simp [hp.2]⟩
    · exact ⟨hi, hp.2⟩
  | query url =>
    simp only [step]
    split
    · exact ⟨hi, by simp [PcInv]⟩
    · exact ⟨hi, by simp [PcInv]⟩
    · exact ⟨hi, hp.1, by simp [hp.2]⟩
  | peek url error => exact ⟨hi, hp⟩
  | advance =>
    refine ⟨hi, fun k hk => ?_, hp.2⟩
    have hle := hp.1 k hk
    have hlt := hi.latest_lt hk
    have := hs.length_le
    simp only [step, position, nextEndpoint, List.length_tail] at hle ⊢
    omega
  | reset =>
    refine ⟨hi, fun h => ⟨?_, hp⟩⟩
    simp only [exhaustedError, Except.error.injEq] at h
    split at h
    · cases h
    · next hne => exact List.length_pos.2 fun h => hne (by simp [h])
  | done result => exact ⟨hi, hp⟩

end Request

namespace System

@[simp] theorem step_original (s : System O) (a : Action O) :
    (s.step a).api.original = s.api.original := by
  cases a with
  | call => rfl
  | step i answer => simp only [step]; split <;> rfl

@[simp] theorem run_original (s : System O) (acts : List (Action O)) :
    (s.run acts).api.original = s.api.original := by
  induction acts generalizing s with
  | nil => rfl
  | cons a acts ih => exact (ih (s.step a)).trans (step_original s a)

theorem init_inv (urls : List Url) (tx metrics : Bool) :
    (init (new urls tx metrics) : System O).Inv :=
  ⟨List.suffix_refl _, fun _ h => by simp [init] at h⟩

/-- Every action keeps the invariant: the call that steps keeps its own, a reset is recorded by
    the others, and any other step only moves the cursor forward. -/
theorem Inv.step {s : System O} (hs : s.Inv) : ∀ a, (s.step a).Inv
  | .call => ⟨hs.suffix, fun r hr => by
      rcases List.mem_append.1 hr with hr | hr
      · exact hs.calls r hr
      · rw [List.mem_singleton.1 hr]; exact ⟨trivial, by simp [PcInv]⟩⟩
  | .step i answer => by
    simp only [System.step]
    split
    · exact hs
    · next r hget =>
      have hr := hs.calls r (List.getElem?_mem hget)
      refine ⟨Request.step_suffix hs.suffix answer r, fun r₀ h₀ => ?_⟩
      change r₀.Inv s.api.original.length (s.api.position (r.step s.api answer).1)
      split at h₀
      · obtain ⟨r₁, h₁, rfl⟩ := List.mem_map.1 h₀
        rcases List.mem_or_eq_of_mem_set h₁ with h₁ | rfl
        · exact (hs.calls r₁ h₁).noteReset _
        · exact (hr.step hs.suffix answer).noteReset _
      · next hres =>
        rcases List.mem_or_eq_of_mem_set h₀ with h₀ | rfl
        · exact (hs.calls r₀ h₀).mono
            (Request.position_le_step _ answer r (Bool.eq_false_iff.2 hres))
        · exact hr.step hs.suffix answer

/-- The invariant holds along every run. -/
theorem Inv.run {s : System O} (hs : s.Inv) (acts : List (Action O)) : (s.run acts).Inv := by
  induction acts generalizing s with
  | nil => exact hs
  | cons a acts ih => exact ih (hs.step a)

end System

/-! ## Any interleaving -/

/-- Any interleaving of any number of calls from `Eth1Api::new`: the cursor is always
    `original[k..]` for some `k ≤ |original|`; two attempts of a call with no reset by another
    call between them are at increasing positions; and a call makes at most
    `|original| · (R + 1)` attempts, `R` the resets by other calls while it runs. -/
theorem interleaved_cursor_attempts (urls : List Url) (tx metrics : Bool)
    (acts : List (Action O)) :
    (∃ k ≤ urls.length,
        ((System.init (new urls tx metrics)).run acts).api.endpoints = urls.drop k) ∧
    ∀ r ∈ ((System.init (new urls tx metrics)).run acts).calls,
      (∀ h₂ m h₁ k k', r.history = h₂ ++ .attempt k' :: (m ++ .attempt k :: h₁) →
        .reset ∉ m → k < k') ∧
      attempts r.history ≤ urls.length * (resets r.history + 1) := by
  have hs := (System.init_inv urls tx metrics).run acts
  have hsuffix := hs.suffix
  simp only [System.run_original] at hsuffix
  refine ⟨⟨_, Nat.sub_le _ _, List.suffix_iff_eq_drop.1 hsuffix⟩, fun r hr => ?_⟩
  have hi := (hs.calls r hr).increasing
  simp only [System.run_original] at hi
  exact ⟨fun h₂ m h₁ k k' he hm => (he ▸ hi).lt_of_eq_append hm, hi.attempts_le⟩

/-- A call that returns `EndpointsExhausted`, in any interleaving, had endpoints, and each of its
    attempts failed. -/
theorem exhausted_after_failures (urls : List Url) (tx metrics : Bool) (acts : List (Action O))
    (r : Request O) (hr : r ∈ ((System.init (new urls tx metrics)).run acts).calls)
    (hdone : r.pc = .done (.error .endpointsExhausted)) :
    urls ≠ [] ∧ failures r.history = attempts r.history := by
  have hp := (((System.init_inv urls tx metrics).run acts).calls r hr).pc
  simp only [System.run_original, hdone] at hp
  obtain ⟨hpos, hf⟩ := hp rfl
  exact ⟨List.ne_nil_of_length_pos hpos, hf⟩

/-- Two calls one after the other on `[a, b]`: the first fails on `a` and gets its answer from
    `b`; the second starts at `b`, where the first left the cursor, and `b` fails. An answer given
    to a step that is not a request is not used. -/
def stickyRun : List (Action Unit) :=
  [.call, .step 0 (.ok ()), .step 0 (.failed "timeout"), .step 0 (.ok ()), .step 0 (.ok ()),
    .step 0 (.ok ()), .step 0 (.ok ()),
    .call, .step 1 (.ok ()), .step 1 (.failed "timeout"), .step 1 (.ok ()), .step 1 (.ok ()),
    .step 1 (.ok ()), .step 1 (.ok ())]

/-- The second call returns `EndpointsExhausted` having attempted `b` only: it never tried `a`,
    the endpoint preferred. -/
theorem sticky_cursor_exhausts :
    ((System.init (new ["a", "b"] true true)).run stickyRun).calls[1]? =
      some ⟨.done (.error .endpointsExhausted),
        [.request "b", .errorsCount, .warn "b" "timeout" none, .connection ⟨false, false⟩,
          .resetCount],
        [.failed, .attempt 1]⟩ :=
  rfl

theorem exhausted_after_failures_sticky :
    ["a", "b"] ≠ [] ∧ failures [.failed, .attempt 1] = attempts [.failed, .attempt 1] :=
  exhausted_after_failures ["a", "b"] true true stickyRun
    ⟨.done (.error .endpointsExhausted),
      [.request "b", .errorsCount, .warn "b" "timeout" none, .connection ⟨false, false⟩,
        .resetCount],
      [.failed, .attempt 1]⟩
    (@List.getElem?_mem _ _ 1 _ rfl) rfl

/-! ## A call alone -/

namespace System

/-- Call `i` takes `fuel` steps with no other call interleaved, its request on the endpoint at
    position `k` meeting `answer k`. -/
def alone (i : Nat) (answer : Nat → Answer O) : Nat → System O → System O
  | 0, s => s
  | fuel + 1, s =>
    alone i answer fuel (s.step (.step i (answer (s.api.position s.api.endpoints))))

@[simp] theorem position_with (api : Eth1Api) (endpoints c : List Url) :
    { api with endpoints }.position c = api.position c := rfl

@[simp] theorem sent_with (api : Eth1Api) (endpoints : List Url) (data : Eth1ConnectionData) :
    { api with endpoints }.sent data = api.sent data := rfl

@[simp] theorem counted_with (api : Eth1Api) (endpoints : List Url) (counter : Effect) :
    { api with endpoints }.counted counter = api.counted counter := rfl

@[simp] theorem succeeded_with (api : Eth1Api) (endpoints : List Url) (url : Url) :
    { api with endpoints }.succeeded url = api.succeeded url := rfl

/-- A step of the only call is the step of that call. -/
theorem step_single (api : Eth1Api) (r : Request O) (answer : Answer O) :
    (⟨api, [r]⟩ : System O).step (.step 0 answer) =
      ⟨{ api with endpoints := (r.step api answer).1 }, [(r.step api answer).2]⟩ := by
  obtain ⟨pc, effects, history⟩ := r
  cases pc <;> simp only [step, List.getElem?_cons_zero, List.set_cons_zero] <;> rfl

/-- A call that returned takes no more steps. -/
theorem alone_done (answer : Nat → Answer O) (api : Eth1Api) (result : Except Error O)
    (effects : List Effect) (history : List Mark) (fuel : Nat) :
    alone 0 answer fuel ⟨api, [⟨.done result, effects, history⟩]⟩ =
      ⟨api, [⟨.done result, effects, history⟩]⟩ := by
  induction fuel with
  | zero => rfl
  | succ fuel ih => exact ih

/-- With no other call interleaved, a call from the cursor `endpoints` runs the loop of
    `request_with_fallback`: enough steps end it with the cursor, the effects and the result
    that `fallbackLoop` gives. -/
theorem alone_fallbackLoop (api : Eth1Api) (answer : Nat → Answer O) (endpoints : List Url)
    (effects : List Effect) (history : List Mark) (fuel : Nat)
    (hfuel : 4 * endpoints.length + 2 ≤ fuel) :
    ∃ history', alone 0 answer fuel ⟨{ api with endpoints }, [⟨.loop, effects, history⟩]⟩ =
      ⟨{ api with endpoints := (api.fallbackLoop answer endpoints).endpoints },
        [⟨.done (api.fallbackLoop answer endpoints).result,
          effects ++ (api.fallbackLoop answer endpoints).effects, history'⟩]⟩ := by
  induction endpoints generalizing effects history fuel with
  | nil =>
    obtain ⟨fuel, rfl⟩ : ∃ f, fuel = f + 2 := ⟨fuel - 2, by simp at hfuel; omega⟩
    exact ⟨history, alone_done _ _ _ _ _ _⟩
  | cons url rest ih =>
    obtain ⟨fuel, rfl⟩ : ∃ f, fuel = f + 2 := ⟨fuel - 2, by simp at hfuel; omega⟩
    simp only [alone, step_single, Request.step, currentEndpoint, List.head?_cons, fallbackLoop,
      position_with, succeeded_with, counted_with]
    cases ha : answer (api.position (url :: rest)) with
    | aborted message => exact ⟨_, by simpa using alone_done _ _ _ _ _ _⟩
    | ok result => exact ⟨_, alone_done _ _ _ _ _ _⟩
    | failed error =>
      obtain ⟨fuel, rfl⟩ : ∃ f, fuel = f + 2 := ⟨fuel - 2, by simp at hfuel; omega⟩
      simp only [alone, step_single, Request.step, nextEndpoint, List.tail_cons, sent_with]
      obtain ⟨history', h⟩ := ih _ _ fuel (by simp at hfuel; omega)
      exact ⟨history', h.trans (by simp [failed])⟩

end System

/-- With no other call interleaved, a call of `request_with_fallback` does what
    `requestWithFallback` says: enough steps end it with the result and the effects that
    `requestWithFallback` gives, and leave the cursor where it leaves it. -/
theorem alone_requestWithFallback (api : Eth1Api) (answer : Nat → Answer O) (fuel : Nat)
    (hfuel : 4 * api.endpoints.length + 2 ≤ fuel) :
    ∃ history, System.alone 0 answer fuel ⟨api, [⟨.loop, [], []⟩]⟩ =
      ⟨{ api with endpoints := (api.requestWithFallback answer).endpoints },
        [⟨.done (api.requestWithFallback answer).result, (api.requestWithFallback answer).effects,
          history⟩]⟩ := by
  simpa using System.alone_fallbackLoop api answer api.endpoints [] [] fuel hfuel

theorem alone_requestWithFallback_two :
    4 * (new ["a", "b"] true true).endpoints.length + 2 ≤ 10 ∧
    ∃ history, System.alone 0 (fun i => if i = 0 then .failed "timeout" else .ok ()) 10
        ⟨new ["a", "b"] true true, [⟨.loop, [], []⟩]⟩ =
      ⟨{ new ["a", "b"] true true with endpoints := ["b"] },
        [⟨.done (.ok ()), [.request "a", .errorsCount, .warn "a" "timeout" (some "b"),
          .connection ⟨false, false⟩, .request "b", .connection ⟨true, true⟩], history⟩]⟩ :=
  ⟨by decide, alone_requestWithFallback (new ["a", "b"] true true)
    (fun i => if i = 0 then .failed "timeout" else .ok ()) 10 (by decide)⟩

end Eth1Api

end Grandine
