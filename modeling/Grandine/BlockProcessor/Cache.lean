import Grandine.BlockProcessor

/-!
# What the state cache answers

Every cached method of the processor goes through the state cache under a key: the block's root,
its slot, and whether the result is that of a full transition. The key does not record the
method, nor any of the arguments that decide how strictly the block is checked (trusted or
untrusted, `skip_randao_verification`, the verifier, the state root policy, the execution
engine). So the processor answers a call from the history of the calls before it
(`answer`): with the value the cache held under its key, or else that of the first earlier call
with the same key whose own transition succeeded, whatever that call was; only when there is
none does the call run, and get, its own transition.

* `call_cache`: one call moves the cache from the history before it to the history after it,
  and answers as `answer` does;
* `answer_eq_transition`: a call gets its own transition when the cache held nothing under its
  key and every earlier call with that key computed the same result;
* `run_prefix_answers`: the answers of a run of the processor are those of the history
  semantics, up to a panic of the metrics; so a call of the run gets its own transition in the
  case of `answer_eq_transition`;
* `trusted_answers_untrusted`: a block processed trusted answers a later untrusted call with RANDAO
  verification from the cache, although that call's own transition fails.
-/

namespace Grandine

variable {T : Types} (chain : Chain T)

/-- What a call leaves in the cache under the key `k` on a miss: its own result, if it
    succeeded and `k` is its key. -/
def Call.inserts (c : Call T) (k : CacheKey) : Option (StateWithRewards T) :=
  if c.key chain = k then (c.transition chain).toOption else none

/-- What the cache holds under `k` after the calls `hist`, from `cache₀`: what `cache₀` held,
    or else the value of the first call of `hist` with the key `k` whose own transition
    succeeded. -/
def cachedAfter (cache₀ : CacheKey → Option (StateWithRewards T)) (hist : List (Call T))
    (k : CacheKey) : Option (StateWithRewards T) :=
  hist.foldl (fun acc c => acc.orElse fun _ => c.inserts chain k) (cache₀ k)

/-- The answer to the call `c` after the calls `hist`: the cached value under its key, or else
    its own transition. -/
def answer (cache₀ : CacheKey → Option (StateWithRewards T)) (hist : List (Call T))
    (c : Call T) : Except T.Error (StateWithRewards T) :=
  match cachedAfter chain cache₀ hist (c.key chain) with
  | some v => .ok v
  | none => c.transition chain

/-- The answers to the calls `cs`, one after another, after the calls `hist`. -/
def answers (cache₀ : CacheKey → Option (StateWithRewards T)) :
    List (Call T) → List (Call T) → List (Except T.Error (StateWithRewards T))
  | _, [] => []
  | hist, c :: cs => answer chain cache₀ hist c :: answers cache₀ (hist ++ [c]) cs

theorem cachedAfter_append (cache₀ : CacheKey → Option (StateWithRewards T))
    (hist : List (Call T)) (c : Call T) (k : CacheKey) :
    cachedAfter chain cache₀ (hist ++ [c]) k =
      (cachedAfter chain cache₀ hist k).orElse fun _ => c.inserts chain k := by
  simp [cachedAfter, List.foldl_append]

/-- The history never loses nor replaces an entry of the cache. -/
theorem cachedAfter_of_some {cache₀ : CacheKey → Option (StateWithRewards T)}
    {k : CacheKey} {v : StateWithRewards T} (h : cache₀ k = some v) (hist : List (Call T)) :
    cachedAfter chain cache₀ hist k = some v := by
  induction hist using List.reverseRecOn with
  | nil => exact h
  | append_singleton hist c ih => rw [cachedAfter_append, ih]; rfl

/-- An entry the history adds to the cache is the result of the transition of one of its calls,
    under that call's key. -/
theorem cachedAfter_eq_some {cache₀ : CacheKey → Option (StateWithRewards T)}
    {hist : List (Call T)} {k : CacheKey} {v : StateWithRewards T}
    (h : cachedAfter chain cache₀ hist k = some v) :
    cache₀ k = some v ∨ ∃ c ∈ hist, c.key chain = k ∧ c.transition chain = .ok v := by
  induction hist using List.reverseRecOn with
  | nil => exact .inl h
  | append_singleton hist c ih =>
    rw [cachedAfter_append] at h
    cases hprev : cachedAfter chain cache₀ hist k with
    | some v' =>
      rw [hprev] at h
      cases h
      exact (ih hprev).imp_right fun ⟨c', hc', hk⟩ => ⟨c', List.mem_append_left _ hc', hk⟩
    | none =>
      rw [hprev] at h
      simp only [Option.orElse, Call.inserts] at h
      split at h
      · next hk =>
        cases ht : c.transition chain with
        | error e => simp [ht, Except.toOption] at h
        | ok w =>
          simp only [ht, Except.toOption, Option.some.injEq] at h
          exact .inr ⟨c, List.mem_append_right _ (List.mem_singleton_self _), hk, h ▸ ht⟩
      · cases h

/-- Insert-or-compute leaves what the cache held, or else the computed value under the key,
    when the computation succeeds; it answers with the cached value, or else the computation. -/
theorem getOrInsertWith_eq_orElse {E V : Type} (cache : CacheKey → Option V) (root : H256)
    (slot : Slot) (full : Bool) (compute : Unit → Except E V) :
    getOrInsertWith cache root slot full compute =
      (fun k => (cache k).orElse fun _ =>
        if (root, slot, full) = k then (compute ()).toOption else none,
       match cache (root, slot, full) with
       | some v => .ok v
       | none => compute ()) := by
  unfold getOrInsertWith
  cases hv : cache (root, slot, full) with
  | some v =>
    simp only [Prod.mk.injEq, and_true]
    funext k
    by_cases hk : (root, slot, full) = k
    · subst hk; simp [hv]
    · cases cache k <;> simp [hk]
  | none =>
    cases hc : compute () with
    | ok v =>
      simp only [Prod.mk.injEq, and_true]
      funext k
      by_cases hk : (root, slot, full) = k
      · subst hk; simp [hv, hc, Except.toOption]
      · cases hk' : cache k <;> simp [Function.update_apply, Ne.symm hk, hk, hk']
    | error e =>
      simp only [Prod.mk.injEq, and_true]
      funext k
      by_cases hk : (root, slot, full) = k
      · subst hk; simp [hv, hc, Except.toOption]
      · cases cache k <;> simp [hk]

/-- Through the cache, a call moves it from the history before the call to the history after,
    and answers as `answer` does. -/
theorem getOrInsertWith_eq {cache₀ : CacheKey → Option (StateWithRewards T)}
    {hist : List (Call T)} (c : Call T) :
    getOrInsertWith (cachedAfter chain cache₀ hist) (c.key chain).1 (c.key chain).2.1
        (c.key chain).2.2 (fun _ => c.transition chain) =
      (cachedAfter chain cache₀ (hist ++ [c]), answer chain cache₀ hist c) := by
  rw [getOrInsertWith_eq_orElse]
  simp only [Prod.mk.eta]
  refine Prod.ext (funext fun k => (cachedAfter_append chain cache₀ hist c k).symm) ?_
  simp only [answer]
  cases cachedAfter chain cache₀ hist (c.key chain) <;> rfl

/-- The answer at position `i` is that of the call at `i`, after the history and the calls before
    it. -/
theorem getElem?_answers (cache₀ : CacheKey → Option (StateWithRewards T)) :
    ∀ (hist cs : List (Call T)) (i : Nat),
      (answers chain cache₀ hist cs)[i]? = cs[i]?.map (answer chain cache₀ (hist ++ cs.take i))
  | _, [], _ => rfl
  | hist, c :: cs, 0 => by simp [answers]
  | hist, c :: cs, i + 1 => by
    simp only [answers, List.getElem?_cons_succ, List.take_succ_cons]
    rw [getElem?_answers cache₀ (hist ++ [c]) cs i, List.append_assoc, List.singleton_append]

/-- A call gets its own transition when the initial cache held nothing under its key and every
    earlier call with that key computed the same result as it: for instance, the same method on
    the same pre-state, block and checks. -/
theorem answer_eq_transition {cache₀ : CacheKey → Option (StateWithRewards T)}
    {hist : List (Call T)} {c : Call T} (h₀ : cache₀ (c.key chain) = none)
    (hsame : ∀ c' ∈ hist, c'.key chain = c.key chain → c'.transition chain = c.transition chain) :
    answer chain cache₀ hist c = c.transition chain := by
  unfold answer
  split
  · next v hv =>
    -- The value came from an earlier call with the same key, hence from `c`'s own transition.
    rcases cachedAfter_eq_some chain hv with h | ⟨c', hc', hk, ht⟩
    · simp [h₀] at h
    · rw [← hsame c' hc' hk, ht]
  · rfl

namespace BlockProcessor

/-- A call that returns moves the cache from the history before it to the history after, and
    answers as `answer` does. -/
theorem call_cache {cache₀ : CacheKey → Option (StateWithRewards T)} {hist : List (Call T)}
    {bp bp' : BlockProcessor T} {c : Call T} {elapsed : Duration}
    {r : Except T.Error (StateWithRewards T)}
    (hbp : bp.stateCache = cachedAfter chain cache₀ hist)
    (h : bp.call chain c elapsed = .ok (bp', r)) :
    bp'.stateCache = cachedAfter chain cache₀ (hist ++ [c]) ∧ r = answer chain cache₀ hist c := by
  simp only [call, cached, hbp, getOrInsertWith_eq, bind, Except.bind] at h
  split at h
  · cases h
  · cases h
    exact ⟨rfl, rfl⟩

/-- The answers of a run of the processor are those the history semantics gives its calls, up
    to the first call whose timing panicked. In particular, a call of the run gets its own
    transition when the initial cache held nothing under its key and every earlier call of the
    run with that key computed the same result. -/
theorem run_prefix_answers (bp : BlockProcessor T) (cs : List (Call T × Duration)) :
    bp.run chain cs <+: answers chain bp.stateCache [] (cs.map Prod.fst) ∧
    ∀ i c r, cs[i]? = some c → (bp.run chain cs)[i]? = some r →
      bp.stateCache (c.1.key chain) = none →
      (∀ c' ∈ cs.take i, c'.1.key chain = c.1.key chain →
        c'.1.transition chain = c.1.transition chain) →
      r = c.1.transition chain := by
  have hp : ∀ (bp' : BlockProcessor T) hist,
      bp'.stateCache = cachedAfter chain bp.stateCache hist →
      bp'.run chain cs <+: answers chain bp.stateCache hist (cs.map Prod.fst) := by
    induction cs with
    | nil => exact fun _ _ _ => List.nil_prefix
    | cons ce cs ih =>
      intro bp' hist hbp
      obtain ⟨c, elapsed⟩ := ce
      simp only [run, List.map_cons, answers]
      split
      · next bp'' r h =>
        obtain ⟨hbp', rfl⟩ := call_cache chain hbp h
        exact (List.prefix_cons_inj _).2 (ih _ _ hbp')
      · exact List.nil_prefix
  refine ⟨hp bp [] rfl, fun i c r hc hr h₀ hsame => ?_⟩
  -- The run's answer at `i` is the history semantics' answer to its call after those before it.
  obtain ⟨t, ht⟩ := hp bp [] rfl
  have ha : (answers chain bp.stateCache [] (cs.map Prod.fst))[i]? = some r := by
    rw [← ht, List.getElem?_append_left (List.getElem?_eq_some_iff.1 hr).1, hr]
  rw [getElem?_answers, List.getElem?_map, hc, List.nil_append, ← List.map_take] at ha
  cases ha
  refine answer_eq_transition chain h₀ fun c' hc' hk => ?_
  obtain ⟨ce, hce, rfl⟩ := List.mem_map.1 hc'
  exact hsame ce hce hk

end BlockProcessor

/-! ## A block with an invalid RANDAO reveal -/

/-- Beacon types where states and blocks are numbers and errors are messages. -/
abbrev CountingTypes : Types := ⟨Nat, Nat, Nat, Nat, Unit, Unit, Unit, Unit, String⟩

/-- A chain on which blocks apply by counting, with no rewards, and fail RANDAO verification
    whenever it runs: every block has an invalid RANDAO reveal. -/
def invalidRandaoChain : Chain CountingTypes where
  hashTreeRoot block := BitVec.ofNat 256 block
  slot _ := 0
  blindedHashTreeRoot block := BitVec.ofNat 256 block
  blindedSlot _ := 0
  signedSlot _ := 0
  processUntrustedBlock state _ skip_randao_verification :=
    if skip_randao_verification then .ok (state + 1, ⟨[], none, fun _ => []⟩)
    else .error "invalid RANDAO reveal"
  processTrustedBlock state _ := .ok (state + 1, ⟨[], none, fun _ => []⟩)
  processUntrustedBlindedBlock state _ skip_randao_verification :=
    if skip_randao_verification then .ok (state + 1, ⟨[], none, fun _ => []⟩)
    else .error "invalid RANDAO reveal"
  processTrustedBlindedBlock state _ := .ok (state + 1, ⟨[], none, fun _ => []⟩)
  customStateTransition state _ _ _ _ _ := .ok (state + 1)

/-- A block processed trusted answers a later untrusted call with RANDAO verification on the
    same block and pre-state from the cache: that call returns `Ok`, although its own
    transition fails. -/
theorem trusted_answers_untrusted :
    (⟨fun _ => none, fun _ => none⟩ : BlockProcessor CountingTypes).run invalidRandaoChain
        [(.processTrustedBlockWithReport 0 7, ⟨1, by decide⟩),
         (.processUntrustedBlockWithReport 0 7 false, ⟨1, by decide⟩)] =
      [.ok (1, some ⟨0, 0, 0, 0, 0⟩), .ok (1, some ⟨0, 0, 0, 0, 0⟩)] ∧
    (Call.processUntrustedBlockWithReport 0 7 false : Call CountingTypes).transition
      invalidRandaoChain = .error "invalid RANDAO reveal" :=
  ⟨rfl, rfl⟩

end Grandine
