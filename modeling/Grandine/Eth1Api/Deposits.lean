import Grandine.Duration
import Grandine.Eth1Api
import Mathlib.Data.List.Nodup

/-!
# Deposit events and blocks

`get_deposit_events` asks the node for the logs of the deposit contract over a range of block
numbers (`depositFilter`), decodes each log that carries a block number, and groups the events by
that number in a `BTreeMap` (`depositLoop`). `get_blocks` walks the same range with the iterator
of `RangeInclusive<u64>` (`RangeInclusive.next`, which does not step past `end`, so that
`u64::MAX` does not overflow, but sets its `exhausted` flag), asks the node for each block, and
gives each block it gets the events of its number, taken out of the map (`blocksLoop`).

What the node answers, through `request_with_fallback`, is a parameter (`Node`), and so are the
parts of the code that are not in this repository (`DepositCodec`): the deposit contract's
address, `DepositEvent::TOPIC`, `DepositEvent::try_from(log)`, and the error of
`ContiguousList::try_from` on a list longer than its bound. A `BTreeMap` is a function to
`Option`, which is all of it that these functions read.

* `toList_new`: a `for` loop over `start..=end` takes `start`, `start + 1`, …, `end` in order,
  and nothing when `start > end`, `end = u64::MAX` included;
* `deposit_events_grouped`: `get_deposit_events` succeeds exactly when every log with a block
  number decodes; it then files under each number the events of the logs with that number, in
  their order, and nothing under any other number; logs with no block number are never decoded;
* `blocks_of_range`: `get_blocks` returns one block for each number of the range that the node
  has a block for, in increasing order, each with the events filed under its number;
* `getBlocks_ok_iff`: it fails exactly when `get_deposit_events` fails, the node fails on a
  number of the range, or a number with a block has more events than the list bound.
-/

namespace Grandine

namespace Eth1Api

/-- An address (`H160`). -/
abbrev Address := BitVec 160

/-- `web3::types::BlockNumber`, as far as the filters use it. -/
inductive BlockNumber
  | earliest
  | number (n : UInt64)
  deriving DecidableEq, Repr

/-- The filter of `eth_getLogs` (`FilterBuilder`): the range of blocks, the contract addresses,
    the topics in the first position, and a limit on the number of logs. -/
structure Filter where
  fromBlock : Option BlockNumber
  toBlock : Option BlockNumber
  address : List Address
  topics : Option (List (BitVec 256))
  limit : Option Nat
  deriving DecidableEq

/-- A log (`web3::types::Log`): its block number, if the node gives one, and the rest, which
    only decoding reads. -/
structure Log (Data : Type) where
  blockNumber : Option UInt64
  data : Data

/-- `ContiguousList<T, N>` (`ssz`): a list of at most `N` elements. -/
structure ContiguousList (T : Type) (N : Nat) where
  toList : List T
  length_le : toList.length ≤ N

/-- An `Eth1Block`: its number, the rest of its header, and its deposit events. -/
structure Eth1Block (Header D : Type) (N : Nat) where
  number : UInt64
  header : Header
  depositEvents : ContiguousList D N

/-- What `get_deposit_events` and `get_blocks` use from outside this repository. -/
structure DepositCodec (Data D : Type) where
  /-- `config.deposit_contract_address`. -/
  depositContractAddress : Address
  /-- `DepositEvent::TOPIC`. -/
  topic : BitVec 256
  /-- `DepositEvent::try_from(log)`. -/
  decode : Log Data → Except Error D
  /-- The error of `ContiguousList::try_from` on a list longer than its bound. -/
  tooLong : Error

/-- What the node answers, through `request_with_fallback`. -/
structure Node (Data Header D : Type) (N : Nat) where
  /-- `eth_getLogs` on a filter. -/
  logs : Filter → Except Error (List (Log Data))
  /-- `get_block_by_number`: the block with that number, converted to an `Eth1Block`, if the
      node has one. -/
  blockByNumber : UInt64 → Except Error (Option (Eth1Block Header D N))

/-! ## Ranges of block numbers -/

/-- `RangeInclusive<u64>`: `start..=end`, and whether iterating it has yielded `end`. -/
structure RangeInclusive where
  start : UInt64
  «end» : UInt64
  exhausted : Bool

namespace RangeInclusive

/-- `RangeInclusive::new`. -/
def new (start «end» : UInt64) : RangeInclusive := ⟨start, «end», false⟩

/-- `RangeInclusive::is_empty`. -/
def isEmpty (r : RangeInclusive) : Bool := r.exhausted || !decide (r.start ≤ r.«end»)

/-- `Iterator::next`: the next number and the range after it. At `end` it does not step past
    `end`, which could overflow, but sets `exhausted`. -/
def next (r : RangeInclusive) : Option (UInt64 × RangeInclusive) :=
  if r.isEmpty then none
  else if r.start < r.«end» then some (r.start, { r with start := r.start + 1 })
  else some (r.start, { r with exhausted := true })

/-- The numbers that a `for` loop over the range takes, in order, in at most `fuel` steps. -/
def takeAux : Nat → RangeInclusive → List UInt64
  | 0, _ => []
  | fuel + 1, r =>
    match r.next with
    | none => []
    | some (n, r') => n :: takeAux fuel r'

/-- The numbers that a `for` loop over the range takes, in order: there are at most
    `UInt64.size` of them (`toList_new`). -/
def toList (r : RangeInclusive) : List UInt64 := takeAux UInt64.size r

theorem toNat_add_one {a b : UInt64} (h : a < b) : (a + 1).toNat = a.toNat + 1 := by
  have hb := b.toNat_lt_size
  have hab : a.toNat < b.toNat := h
  show (a.toNat + 1) % UInt64.size = a.toNat + 1
  exact Nat.mod_eq_of_lt (by omega)

theorem takeAux_exhausted (fuel : Nat) (r : RangeInclusive) :
    takeAux fuel { r with exhausted := true } = [] := by
  cases fuel <;> simp [takeAux, next, isEmpty]

/-- A range that is not exhausted, from `start` up to `end`, yields `start`, …, `end`, given the
    steps. -/
theorem takeAux_of_le {d : Nat} : ∀ {fuel : Nat} {r : RangeInclusive}, r.exhausted = false →
    r.start ≤ r.«end» → r.«end».toNat - r.start.toNat = d → d < fuel →
    (takeAux fuel r).map UInt64.toNat = List.range' r.start.toNat (d + 1) := by
  induction d with
  | zero =>
    intro fuel r hx hle hd hfuel
    obtain ⟨fuel, rfl⟩ : ∃ f, fuel = f + 1 := ⟨fuel - 1, by omega⟩
    have hlt : ¬ r.start < r.«end» := fun h => by
      have : r.start.toNat < r.«end».toNat := h
      omega
    simp [takeAux, next, isEmpty, hx, hle, hlt, takeAux_exhausted]
  | succ d ih =>
    intro fuel r hx hle hd hfuel
    obtain ⟨fuel, rfl⟩ : ∃ f, fuel = f + 1 := ⟨fuel - 1, by omega⟩
    have hlt : r.start < r.«end» := show r.start.toNat < r.«end».toNat by omega
    have hstep := toNat_add_one hlt
    have ih' := @ih fuel ⟨r.start + 1, r.«end», false⟩ rfl
      (show (r.start + 1).toNat ≤ r.«end».toNat by omega) (by simp only [hstep]; omega) (by omega)
    simp [takeAux, next, isEmpty, hx, hle, hlt, ih', hstep, List.range'_succ]

/-- A `for` loop over `start..=end` takes `start`, `start + 1`, …, `end`, in order: nothing when
    `start > end`, and `end` itself when it is `u64::MAX`. -/
theorem toList_new (a b : UInt64) :
    (new a b).toList.map UInt64.toNat = List.range' a.toNat (b.toNat + 1 - a.toNat) := by
  by_cases h : a ≤ b
  · have hab : a.toNat ≤ b.toNat := h
    rw [toList, takeAux_of_le rfl h rfl (Nat.lt_of_le_of_lt (Nat.sub_le _ _) b.toNat_lt_size)]
    congr 1
    simp only [new]
    omega
  · have hab : ¬ a.toNat ≤ b.toNat := h
    have : UInt64.size = UInt64.size - 1 + 1 := by decide
    rw [toList, this]
    simp [takeAux, next, isEmpty, new, h, Nat.sub_eq_zero_of_le (Nat.not_le.1 hab)]

theorem nodup_toList_new (a b : UInt64) : (new a b).toList.Nodup :=
  List.Nodup.of_map UInt64.toNat ((toList_new a b).symm ▸ List.nodup_range' _ _)

theorem mem_toList_new {a b n : UInt64} : n ∈ (new a b).toList ↔ a ≤ n ∧ n ≤ b := by
  have hmem : n ∈ (new a b).toList ↔ n.toNat ∈ (new a b).toList.map UInt64.toNat :=
    ⟨List.mem_map_of_mem _, fun h => by
      obtain ⟨n', hn', he⟩ := List.mem_map.1 h
      exact UInt64.toNat.inj he ▸ hn'⟩
  rw [hmem, toList_new, List.mem_range'_1]
  show _ ↔ a.toNat ≤ n.toNat ∧ n.toNat ≤ b.toNat
  constructor <;> intro h <;> omega

end RangeInclusive

/-! ## `get_deposit_events` -/

variable {Data Header D : Type} {N : Nat}

/-- `deposit_events.entry(n).or_default().push(event)`. -/
def pushEvent (m : UInt64 → Option (List D)) (n : UInt64) (event : D) :
    UInt64 → Option (List D) :=
  Function.update m n (some ((m n).getD [] ++ [event]))

/-- The loop of `get_deposit_events` over the logs: a log with no block number is skipped; any
    other is decoded, and its event pushed under its block number, unless the decoding fails,
    which ends the call with its error. -/
def depositLoop (decode : Log Data → Except Error D) :
    (UInt64 → Option (List D)) → List (Log Data) → Except Error (UInt64 → Option (List D))
  | m, [] => .ok m
  | m, log :: logs =>
    match log.blockNumber with
    | none => depositLoop decode m logs
    | some n =>
      match decode log with
      | .error e => .error e
      | .ok event => depositLoop decode (pushEvent m n event) logs

/-- The filter of `get_deposit_events`: the logs of the deposit contract from `start` to `end`,
    with the topic of `DepositEvent`. -/
def depositFilter (codec : DepositCodec Data D) (start «end» : UInt64) : Filter :=
  ⟨some (.number start), some (.number «end»), [codec.depositContractAddress], some [codec.topic],
    none⟩

/-- `Eth1Api::get_deposit_events`. -/
def getDepositEvents (codec : DepositCodec Data D) (node : Node Data Header D N)
    (range : RangeInclusive) : Except Error (UInt64 → Option (List D)) := do
  let logs ← node.logs (depositFilter codec range.start range.«end»)
  depositLoop codec.decode (fun _ => none) logs

/-- The filter of `get_first_deposit_contract_block_number`: the logs of the deposit contract
    from the earliest block, at most one. -/
def firstDepositFilter (codec : DepositCodec Data D) : Filter :=
  ⟨some .earliest, none, [codec.depositContractAddress], none, some 1⟩

/-- `Eth1Api::get_first_deposit_contract_block_number`: the block number of the first log, if it
    has one. -/
def getFirstDepositContractBlockNumber (codec : DepositCodec Data D)
    (node : Node Data Header D N) : Except Error (Option UInt64) := do
  let logs ← node.logs (firstDepositFilter codec)
  pure (logs.head?.bind Log.blockNumber)

/-- The events that the logs with block number `n` decode to, in their order. -/
def eventsAt (decode : Log Data → Except Error D) (logs : List (Log Data)) (n : UInt64) :
    List D :=
  logs.filterMap fun log => if log.blockNumber = some n then (decode log).toOption else none


section DepositLoop

variable {decode : Log Data → Except Error D}

@[simp] theorem pushEvent_same (m : UInt64 → Option (List D)) (n : UInt64) (event : D) :
    pushEvent m n event n = some ((m n).getD [] ++ [event]) :=
  Function.update_same _ _ _

theorem pushEvent_ne (m : UInt64 → Option (List D)) {n n' : UInt64} (event : D) (h : n' ≠ n) :
    pushEvent m n event n' = m n' :=
  Function.update_noteq h _ _

/-- The loop files under each number, after what was there, the events of the logs with that
    number, in their order; it files something under a number only if a log has it. -/
theorem depositLoop_ok {logs : List (Log Data)} : ∀ {m₀ m : UInt64 → Option (List D)},
    depositLoop decode m₀ logs = .ok m → ∀ n,
      (m n).getD [] = (m₀ n).getD [] ++ eventsAt decode logs n ∧
      ((m n).isSome ↔ (m₀ n).isSome ∨ ∃ log ∈ logs, log.blockNumber = some n) := by
  induction logs with
  | nil =>
    intro m₀ m h n
    cases h
    simp [eventsAt]
  | cons log logs ih =>
    intro m₀ m h n
    simp only [depositLoop] at h
    split at h
    · next hb =>
      obtain ⟨h₁, h₂⟩ := ih h n
      refine ⟨by simpa [eventsAt, hb] using h₁, h₂.trans ?_⟩
      simp [hb]
    · next k hb =>
      split at h
      · cases h
      · next event he =>
        obtain ⟨h₁, h₂⟩ := ih h n
        by_cases hn : n = k
        · subst hn
          refine ⟨by simp [h₁, eventsAt, hb, he, Except.toOption], by simp [h₂, hb]⟩
        · have hne : log.blockNumber ≠ some n := by rw [hb]; exact fun h => hn (Option.some.inj h).symm
          refine ⟨by simp [h₁, pushEvent_ne _ _ hn, eventsAt, hne], ?_⟩
          simp [h₂, pushEvent_ne _ _ hn, hne]

/-- The loop succeeds exactly when every log with a block number decodes. -/
theorem depositLoop_ok_iff {logs : List (Log Data)} : ∀ {m₀ : UInt64 → Option (List D)},
    (∃ m, depositLoop decode m₀ logs = .ok m) ↔
      ∀ log ∈ logs, log.blockNumber.isSome → ∃ event, decode log = .ok event := by
  induction logs with
  | nil => intro m₀; simp [depositLoop]
  | cons log logs ih =>
    intro m₀
    simp only [depositLoop, List.mem_cons, forall_eq_or_imp]
    split
    · next hb => simp [hb, ih]
    · next k hb =>
      split
      · next e he => simp [hb, he]
      · next event he => simp [hb, he, ih]

/-- The loop decodes only the logs that have a block number. -/
theorem depositLoop_congr {decode' : Log Data → Except Error D} {logs : List (Log Data)}
    (h : ∀ log ∈ logs, log.blockNumber.isSome → decode' log = decode log) :
    ∀ {m₀ : UInt64 → Option (List D)}, depositLoop decode' m₀ logs = depositLoop decode m₀ logs := by
  induction logs with
  | nil => intro m₀; rfl
  | cons log logs ih =>
    intro m₀
    have ih' : ∀ m, depositLoop decode' m logs = depositLoop decode m logs :=
      fun _ => ih fun l hl => h l (List.mem_cons_of_mem _ hl)
    simp only [depositLoop]
    split
    · exact ih' m₀
    · next k hb => rw [h log (List.mem_cons_self _ _) (by simp [hb])]; split <;> simp only [ih']

end DepositLoop

theorem getDepositEvents_eq {codec : DepositCodec Data D} {node : Node Data Header D N}
    {range : RangeInclusive} {logs : List (Log Data)}
    (h : node.logs (depositFilter codec range.start range.«end») = .ok logs) :
    getDepositEvents codec node range = depositLoop codec.decode (fun _ => none) logs := by
  simp [getDepositEvents, h, bind, Except.bind]

/-- `get_deposit_events`, on the logs `L` that the node returns for its filter, succeeds exactly
    when every log of `L` with a block number decodes. It then files under each number `n` the
    events of the logs of `L` with block number `n`, in their order in `L`, and has a key `n` only
    if such a log exists. It never decodes a log with no block number: its result does not
    depend on how those decode. -/
theorem deposit_events_grouped (codec : DepositCodec Data D) (node : Node Data Header D N)
    (range : RangeInclusive) (L : List (Log Data))
    (hL : node.logs (depositFilter codec range.start range.«end») = .ok L) :
    ((∃ m, getDepositEvents codec node range = .ok m) ↔
      ∀ log ∈ L, log.blockNumber.isSome → ∃ event, codec.decode log = .ok event) ∧
    (∀ m, getDepositEvents codec node range = .ok m → ∀ n,
      (m n).getD [] = eventsAt codec.decode L n ∧
      ((m n).isSome ↔ ∃ log ∈ L, log.blockNumber = some n)) ∧
    ∀ decode' : Log Data → Except Error D,
      (∀ log ∈ L, log.blockNumber.isSome → decode' log = codec.decode log) →
      getDepositEvents { codec with decode := decode' } node range =
        getDepositEvents codec node range := by
  rw [getDepositEvents_eq hL]
  refine ⟨depositLoop_ok_iff, fun m hm n => ?_, fun decode' h => ?_⟩
  · simpa using depositLoop_ok hm n
  · rw [@getDepositEvents_eq Data Header D N { codec with decode := decode' } node range L hL]
    exact depositLoop_congr h

/-- Logs of a deposit contract: two under block 5, one with no block number, one under 6; each
    log's event is its payload, and a payload of `0` does not decode. -/
def sampleLogs : List (Log Nat) := [⟨some 5, 1⟩, ⟨none, 0⟩, ⟨some 5, 2⟩, ⟨some 6, 3⟩]

/-- The codec of `sampleLogs`. -/
def sampleCodec : DepositCodec Nat Nat :=
  ⟨0, 0, fun log => if log.data = 0 then .error (.other "invalid deposit") else .ok log.data,
    .other "too many deposits"⟩

/-- A node with the logs `sampleLogs`, and a block with no events for each odd number. -/
def sampleNode : Node Nat Unit Nat 16 :=
  ⟨fun _ => .ok sampleLogs,
    fun n => if n % 2 = 1 then .ok (some ⟨n, (), ⟨[], Nat.zero_le _⟩⟩) else .ok none⟩

theorem deposit_events_grouped_sample :
    ∃ m, getDepositEvents sampleCodec sampleNode (.new 3 7) = .ok m ∧ (m 5).getD [] = [1, 2] := by
  have h := deposit_events_grouped sampleCodec sampleNode (.new 3 7) sampleLogs rfl
  obtain ⟨m, hm⟩ := h.1.2 (by simp [sampleLogs, sampleCodec])
  exact ⟨m, hm, (h.2.1 m hm 5).1⟩

/-! ## `get_blocks` -/

/-- `BTreeMap::remove`: the value under `n`, and the map without it. -/
def remove (m : UInt64 → Option (List D)) (n : UInt64) :
    Option (List D) × (UInt64 → Option (List D)) :=
  (m n, Function.update m n none)

/-- `ContiguousList::try_from`. -/
def ContiguousList.tryFrom {T : Type} (tooLong : Error) (l : List T) :
    Except Error (ContiguousList T N) :=
  if h : l.length ≤ N then .ok ⟨l, h⟩ else .error tooLong

theorem ContiguousList.toList_tryFrom {T : Type} {tooLong : Error} {l : List T}
    {c : ContiguousList T N} (h : ContiguousList.tryFrom tooLong l = .ok c) : c.toList = l := by
  unfold ContiguousList.tryFrom at h
  split at h
  · cases h; rfl
  · cases h

/-- The loop of `get_blocks` over the block numbers, `blocks` those pushed so far: a number the
    node has no block for is skipped; a block gets the events taken out of `depositData` under
    its number, or none. -/
def blocksLoop (codec : DepositCodec Data D) (node : Node Data Header D N) :
    (UInt64 → Option (List D)) → List (Eth1Block Header D N) → List UInt64 →
      Except Error (List (Eth1Block Header D N))
  | _, blocks, [] => .ok blocks
  | depositData, blocks, n :: ns =>
    match node.blockByNumber n with
    | .error e => .error e
    | .ok none => blocksLoop codec node depositData blocks ns
    | .ok (some block) =>
      match ContiguousList.tryFrom codec.tooLong ((remove depositData n).1.getD []) with
      | .error e => .error e
      | .ok depositEvents =>
        blocksLoop codec node (remove depositData n).2 (blocks ++ [{ block with depositEvents }]) ns

/-- `Eth1Api::get_blocks`. -/
def getBlocks (codec : DepositCodec Data D) (node : Node Data Header D N)
    (range : RangeInclusive) : Except Error (List (Eth1Block Header D N)) := do
  let depositData ← getDepositEvents codec node range
  blocksLoop codec node depositData [] range.toList

/-- The loop pushes, after `blocks`, one block for each number the node has a block for, in the
    order of the numbers, with the rest of the block as the node gave it and the events of
    `depositData` under its number, or none; the numbers are distinct, so that taking a number's
    events out of the map leaves those of the others. -/
theorem blocksLoop_ok {codec : DepositCodec Data D} {node : Node Data Header D N} :
    ∀ {ns : List UInt64} {depositData : UInt64 → Option (List D)}
      {blocks bs : List (Eth1Block Header D N)},
    ns.Nodup → blocksLoop codec node depositData blocks ns = .ok bs →
      bs.map (fun block => (block.number, block.header, block.depositEvents.toList)) =
        blocks.map (fun block => (block.number, block.header, block.depositEvents.toList)) ++
          ns.filterMap fun n =>
            match node.blockByNumber n with
            | .ok (some block) => some (block.number, block.header, (depositData n).getD [])
            | _ => none
  | [], _, _, _, _, h => by cases h; simp
  | n :: ns, depositData, blocks, bs, hnd, h => by
    obtain ⟨hn, hnd⟩ := List.nodup_cons.1 hnd
    simp only [blocksLoop] at h
    cases hb : node.blockByNumber n with
    | error e => simp [hb] at h
    | ok block? =>
      cases block? with
      | none =>
        simp only [hb] at h
        rw [blocksLoop_ok hnd h, List.filterMap_cons, hb]
      | some block =>
        cases ht : (ContiguousList.tryFrom codec.tooLong ((remove depositData n).1.getD []) :
            Except Error (ContiguousList D N)) with
        | error e => simp [hb, ht] at h
        | ok events =>
          -- The events of `n` fit: the block is pushed, and the other numbers keep their events.
          simp only [hb, ht] at h
          rw [blocksLoop_ok hnd h, List.filterMap_cons, hb]
          simp only [List.map_append, List.map_cons, List.map_nil, List.append_assoc,
            List.singleton_append, ContiguousList.toList_tryFrom ht, remove]
          congr 2
          refine List.filterMap_congr fun n' hn' => ?_
          rw [Function.update_noteq fun (h : n' = n) => hn (h ▸ hn')]

/-- The loop fails exactly when the node fails on one of the numbers, or when a number the node
    has a block for has more than `N` events in `depositData`: a number the node has no block for
    is skipped, whatever its events. -/
theorem blocksLoop_ok_iff {codec : DepositCodec Data D} {node : Node Data Header D N} :
    ∀ {ns : List UInt64} {depositData : UInt64 → Option (List D)}
      {blocks : List (Eth1Block Header D N)}, ns.Nodup →
    ((∃ bs, blocksLoop codec node depositData blocks ns = .ok bs) ↔
      ∀ n ∈ ns, ∃ block?, node.blockByNumber n = .ok block? ∧
        (block?.isSome → ((depositData n).getD []).length ≤ N))
  | [], _, _, _ => by simp [blocksLoop]
  | n :: ns, depositData, blocks, hnd => by
    obtain ⟨hn, hnd⟩ := List.nodup_cons.1 hnd
    simp only [blocksLoop, List.forall_mem_cons]
    cases hb : node.blockByNumber n with
    | error e => simp
    | ok block? =>
      cases block? with
      | none => simp [blocksLoop_ok_iff hnd]
      | some block =>
        simp only [ContiguousList.tryFrom, remove]
        by_cases hlen : ((depositData n).getD []).length ≤ N
        · -- The block is pushed; taking its events out leaves those of the other numbers.
          have hother : ∀ n' ∈ ns, Function.update depositData n none n' = depositData n' :=
            fun n' hn' => Function.update_noteq (fun (h : n' = n) => hn (h ▸ hn')) _ _
          simp only [hlen, dif_pos, blocksLoop_ok_iff hnd]
          constructor
          · intro h
            exact ⟨⟨_, rfl, fun _ => trivial⟩, fun n' hn' => by rw [← hother n' hn']; exact h n' hn'⟩
          · rintro ⟨-, h⟩ n' hn'
            rw [hother n' hn']
            exact h n' hn'
        · simp [hlen]

/-- Over `a..=b`, `get_blocks` fails exactly when `get_deposit_events` fails, when the node fails
    on a number from `a` to `b`, or when a number from `a` to `b` that the node has a block for
    has more than `N` deposit events: a number without a block never fails it. -/
theorem getBlocks_ok_iff (codec : DepositCodec Data D) (node : Node Data Header D N)
    (a b : UInt64) :
    (∃ bs, getBlocks codec node (.new a b) = .ok bs) ↔
      ∃ m, getDepositEvents codec node (.new a b) = .ok m ∧
        ∀ n, a ≤ n → n ≤ b → ∃ block?, node.blockByNumber n = .ok block? ∧
          (block?.isSome → ((m n).getD []).length ≤ N) := by
  have hnd := RangeInclusive.nodup_toList_new a b
  constructor
  · rintro ⟨bs, h⟩
    obtain ⟨m, hm, h⟩ := bind_eq_ok.1 h
    exact ⟨m, hm, fun n ha hb =>
      (blocksLoop_ok_iff hnd).1 ⟨bs, h⟩ n (RangeInclusive.mem_toList_new.2 ⟨ha, hb⟩)⟩
  · rintro ⟨m, hm, h⟩
    have hloop : ∃ bs, blocksLoop codec node m [] (RangeInclusive.new a b).toList = .ok bs :=
      (blocksLoop_ok_iff hnd).2 fun n hn =>
        h n (RangeInclusive.mem_toList_new.1 hn).1 (RangeInclusive.mem_toList_new.1 hn).2
    obtain ⟨bs, hbs⟩ := hloop
    exact ⟨bs, bind_eq_ok.2 ⟨m, hm, hbs⟩⟩

/-- Over `a..=b`, when `get_blocks` returns `Ok(bs)`: the loop takes the numbers `a`, …, `b`,
    in increasing order (none when `a > b`, `u64::MAX` included); and `bs` has exactly one block
    for each of them that the node has a block for, in that order: the block the node gave, with
    the events that `get_deposit_events` filed under that number, or none. So when the node gives
    each block under its own number, each block of `bs` carries exactly the events of the logs
    with its number, in their order. -/
theorem blocks_of_range (codec : DepositCodec Data D) (node : Node Data Header D N) (a b : UInt64)
    (bs : List (Eth1Block Header D N)) (h : getBlocks codec node (.new a b) = .ok bs) :
    (RangeInclusive.new a b).toList.map UInt64.toNat = List.range' a.toNat (b.toNat + 1 - a.toNat) ∧
    ∃ m, getDepositEvents codec node (.new a b) = .ok m ∧
      bs.map (fun block => (block.number, block.header, block.depositEvents.toList)) =
        (RangeInclusive.new a b).toList.filterMap (fun n =>
          match node.blockByNumber n with
          | .ok (some block) => some (block.number, block.header, (m n).getD [])
          | _ => none) ∧
      ∀ L, node.logs (depositFilter codec a b) = .ok L →
        (∀ n block, node.blockByNumber n = .ok (some block) → block.number = n) →
        ∀ block ∈ bs, block.depositEvents.toList = eventsAt codec.decode L block.number := by
  refine ⟨RangeInclusive.toList_new a b, ?_⟩
  obtain ⟨m, hm, h⟩ := bind_eq_ok.1 h
  have hbs := blocksLoop_ok (RangeInclusive.nodup_toList_new a b) h
  rw [List.map_nil, List.nil_append] at hbs
  refine ⟨m, hm, hbs, fun L hL hnum block hblock => ?_⟩
  -- The block comes from some number `n` of the range, under which it was numbered.
  have hmem : (block.number, block.header, block.depositEvents.toList) ∈ bs.map
      (fun block => (block.number, block.header, block.depositEvents.toList)) :=
    List.mem_map_of_mem _ hblock
  rw [hbs, List.mem_filterMap] at hmem
  obtain ⟨n, -, hn⟩ := hmem
  split at hn
  · next block' hb =>
    simp only [Option.some.injEq, Prod.mk.injEq] at hn
    obtain ⟨hnumber, -, hevents⟩ := hn
    rw [← hevents, ← hnumber, hnum n block' hb]
    simpa using (depositLoop_ok ((getDepositEvents_eq hL).symm.trans hm) n).1
  · cases hn

theorem blocks_of_range_sample :
    ∃ bs, getBlocks sampleCodec sampleNode (.new 3 7) = .ok bs ∧
      ∀ block ∈ bs, block.depositEvents.toList = eventsAt sampleCodec.decode sampleLogs block.number := by
  obtain ⟨-, m, -, -, h⟩ := blocks_of_range sampleCodec sampleNode 3 7 _ rfl
  refine ⟨_, rfl, h sampleLogs rfl fun n block hb => ?_⟩
  simp only [sampleNode] at hb
  split at hb
  · cases hb; rfl
  · cases hb

end Eth1Api

end Grandine
