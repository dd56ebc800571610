import Grandine.TimingMetrics
import Mathlib.Data.List.Sort
import Mathlib.Order.MinMax

/-!
# Statistics of the timing metrics

`min`, `max`, `average` and `median` of `TimingMetrics`. The average divides the running total,
not the window, by the count cast to `u32`; the median sorts the window and halves the sum of
its two central elements, with the panicking `Duration` arithmetic.

The order statistics are stated without sorting (`IsOrderStat`): the `k`-th smallest of a list
is the value with at most `k` elements below it and more than `k` at most it. It is unique
(`IsOrderStat.unique`) and depends only on how many times each value occurs, not on their order.
Then, for every state reached from `new c` with `c < UInt32.size` by durations of at most half of
`Duration::MAX` (`statistics_of_updates`), the average is the floor of the mean of the window,
the median is its middle order statistic (or the floor of the mean of the two central ones),
and both lie between the minimum and the maximum.
-/

namespace Grandine

namespace TimingMetrics

/-- `TimingMetrics::min`. -/
def min (m : TimingMetrics) : Option Duration := m.times.min?

/-- `TimingMetrics::max`. -/
def max (m : TimingMetrics) : Option Duration := m.times.max?

/-- `TimingMetrics::average`. -/
def average (m : TimingMetrics) : Except Panic (Option Duration) :=
  if m.times.isEmpty then .ok none
  else some <$> m.total.div (UInt32.ofNat m.times.length)

/-- `TimingMetrics::median`. -/
def median (m : TimingMetrics) : Except Panic (Option Duration) :=
  if h : m.times.length = 0 then .ok none
  else
    let sorted := m.times.insertionSort (· ≤ ·)
    have hs : sorted.length = m.times.length := List.length_insertionSort _ _
    let mid_idx := m.times.length / 2
    do
      let sum ← (sorted.get ⟨mid_idx, by omega⟩).add
        (sorted.get ⟨m.times.length - 1 - mid_idx, by omega⟩)
      some <$> sum.div 2

/-! ## Order statistics -/

/-- `v` is the `k`-th smallest element of `l`, counting from `0`. -/
def IsOrderStat (l : List Duration) (k : Nat) (v : Duration) : Prop :=
  l.countP (· < v) ≤ k ∧ k < l.countP (· ≤ v)

theorem IsOrderStat.perm {l l' : List Duration} (hp : l.Perm l') {k : Nat} {v : Duration}
    (h : IsOrderStat l k v) : IsOrderStat l' k v := by
  rwa [IsOrderStat, ← hp.countP_eq, ← hp.countP_eq]

/-- The `k`-th order statistic is unique. -/
theorem IsOrderStat.unique {l : List Duration} {k : Nat} {v w : Duration}
    (hv : IsOrderStat l k v) (hw : IsOrderStat l k w) : v = w := by
  -- If one were below the other, more than `k` elements would be below the larger one.
  have below : ∀ {v w}, IsOrderStat l k v → IsOrderStat l k w → ¬v < w := fun hv hw hlt =>
    absurd ((hv.2.trans_le (List.countP_mono_left fun x _ hx => by
      simpa using lt_of_le_of_lt (by simpa using hx) hlt)).trans_le hw.1) (lt_irrefl k)
  exact le_antisymm (not_lt.1 (below hw hv)) (not_lt.1 (below hv hw))

/-- In a sorted list, the element at index `k` is the `k`-th order statistic. -/
theorem isOrderStat_get_of_sorted {s : List Duration} (hs : s.Sorted (· ≤ ·)) {k : Nat}
    (hk : k < s.length) : IsOrderStat s k (s.get ⟨k, hk⟩) := by
  induction s generalizing k with
  | nil => cases hk
  | cons a t ih =>
    have ha : ∀ x ∈ t, a ≤ x := List.rel_of_sorted_cons hs
    cases k with
    | zero =>
      have h0 : (a :: t).countP (· < a) = 0 := List.countP_eq_zero.2 fun x hx => by
        rcases List.mem_cons.1 hx with rfl | hx
        · simp
        · simpa using ha x hx
      simp only [IsOrderStat, List.get_eq_getElem, List.getElem_cons_zero, h0]
      simp [List.countP_cons]
    | succ k =>
      obtain ⟨h₁, h₂⟩ := ih hs.of_cons (Nat.lt_of_succ_lt_succ hk)
      have hav : a ≤ t.get ⟨k, Nat.lt_of_succ_lt_succ hk⟩ := ha _ (List.get_mem _ _ _)
      simp only [IsOrderStat, List.get_eq_getElem, List.getElem_cons_succ, List.countP_cons]
        at h₁ h₂ hav ⊢
      constructor
      · split <;> omega
      · simp [hav]
        omega

/-- Sorting a list puts its `k`-th order statistic at index `k`. -/
theorem isOrderStat_insertionSort (l : List Duration) {k : Nat}
    (hk : k < (l.insertionSort (· ≤ ·)).length) :
    IsOrderStat l k ((l.insertionSort (· ≤ ·)).get ⟨k, hk⟩) :=
  (isOrderStat_get_of_sorted (List.sorted_insertionSort _ _) hk).perm
    (List.perm_insertionSort _ _)

/-! ## The statistics of a window -/

theorem length_mul_le_nanosSum {l : List Duration} {lo : Duration} (h : ∀ d ∈ l, lo ≤ d) :
    l.length * lo.nanos ≤ Duration.nanosSum l := by
  induction l with
  | nil => simp
  | cons d l ih =>
    have := h d (List.mem_cons_self _ _)
    simp only [List.length_cons, Duration.nanosSum_cons, Nat.succ_mul]
    have := ih fun x hx => h x (List.mem_cons_of_mem _ hx)
    rw [Duration.le_def] at *
    omega

theorem nanosSum_le_length_mul {l : List Duration} {hi : Duration} (h : ∀ d ∈ l, d ≤ hi) :
    Duration.nanosSum l ≤ l.length * hi.nanos := by
  induction l with
  | nil => simp
  | cons d l ih =>
    have := h d (List.mem_cons_self _ _)
    simp only [List.length_cons, Duration.nanosSum_cons, Nat.succ_mul]
    have := ih fun x hx => h x (List.mem_cons_of_mem _ hx)
    rw [Duration.le_def] at *
    omega

/-- The minimum of a non-empty window is one of its durations, below all of them. -/
theorem min_spec {m : TimingMetrics} (hne : m.times ≠ []) :
    ∃ lo, m.min = some lo ∧ lo ∈ m.times ∧ ∀ d ∈ m.times, lo ≤ d := by
  obtain ⟨lo, hlo⟩ := Option.ne_none_iff_exists'.1 (mt List.min?_eq_none_iff.1 hne)
  exact ⟨lo, hlo, List.min?_mem min_choice hlo,
    (List.le_min?_iff (fun _ _ _ => le_min_iff) hlo).1 le_rfl⟩

/-- The maximum of a non-empty window is one of its durations, above all of them. -/
theorem max_spec {m : TimingMetrics} (hne : m.times ≠ []) :
    ∃ hi, m.max = some hi ∧ hi ∈ m.times ∧ ∀ d ∈ m.times, d ≤ hi := by
  obtain ⟨hi, hhi⟩ := Option.ne_none_iff_exists'.1 (mt List.max?_eq_none_iff.1 hne)
  exact ⟨hi, hhi, List.max?_mem max_choice hhi,
    (List.max?_le_iff (fun _ _ _ => max_le_iff) hhi).1 le_rfl⟩

/-- When the total is the sum of a non-empty window of fewer than `UInt32.size` durations, the
    average is the floor of their mean. -/
theorem average_of_tracks {m : TimingMetrics} (h : m.Tracks) (hne : m.times ≠ [])
    (hlen : m.count < UInt32.size) :
    ∃ avg, m.average = .ok (some avg) ∧ avg.nanos = Duration.nanosSum m.times / m.count := by
  have hcast : (UInt32.ofNat m.times.length).toNat = m.count := by
    simp only [UInt32.toNat, UInt32.ofNat, count, UInt32.size] at hlen ⊢
    simp only [BitVec.toNat_ofNat]
    omega
  have hpos : m.count ≠ 0 := by simpa [count] using hne
  rw [average, if_neg (by simpa using hne), Duration.div_eq_ok (hcast ▸ hpos)]
  exact ⟨_, rfl, by simp only [hcast]; exact congrArg (· / m.count) h⟩

/-- The median of a non-empty window of durations of at most half of `Duration::MAX` is the
    floor of the mean of its order statistics at `count / 2` and `count - 1 - count / 2`. -/
theorem median_spec {m : TimingMetrics} (hne : m.times ≠ [])
    (hhalf : ∀ d ∈ m.times, d.nanos ≤ MAX_NANOS / 2) :
    ∃ x y med, x ∈ m.times ∧ y ∈ m.times ∧ IsOrderStat m.times (m.count / 2) x ∧
      IsOrderStat m.times (m.count - 1 - m.count / 2) y ∧
      m.median = .ok (some med) ∧ med.nanos = (x.nanos + y.nanos) / 2 := by
  have hn : m.times.length ≠ 0 := by simpa using hne
  have hs := List.length_insertionSort (· ≤ ·) m.times
  have hmem : ∀ {i} (hi : i < (m.times.insertionSort (· ≤ ·)).length),
      (m.times.insertionSort (· ≤ ·)).get ⟨i, hi⟩ ∈ m.times := fun hi =>
    (List.perm_insertionSort _ _).subset (List.get_mem _ _ _)
  set x := (m.times.insertionSort (· ≤ ·)).get ⟨m.times.length / 2, by omega⟩
  set y := (m.times.insertionSort (· ≤ ·)).get ⟨m.times.length - 1 - m.times.length / 2, by omega⟩
  have hsum : x.nanos + y.nanos ≤ MAX_NANOS := by
    have := hhalf x (hmem _)
    have := hhalf y (hmem _)
    omega
  rw [median, dif_neg hn]
  simp only [bind, Except.bind, Duration.add_eq_ok hsum,
    Duration.div_eq_ok (show (2 : UInt32).toNat ≠ 0 by decide)]
  exact ⟨x, y, _, hmem _, hmem _, isOrderStat_insertionSort _ _,
    isOrderStat_insertionSort _ _, rfl, rfl⟩

/-- For every state reached from `new c`, `c < UInt32.size`, by durations of at most half of
    `Duration::MAX`, with a non-empty window: the average is the floor of the mean of the
    window; the median is its middle order statistic when the count is odd, and the floor of
    the mean of its two central order statistics when it is even (so it depends only on the
    durations of the window, not on their order); and both lie between the minimum and the
    maximum. -/
theorem statistics_of_updates {c : Nat} (hc : c < UInt32.size) {ds : List Duration}
    (hds : ∀ d ∈ ds, d.nanos ≤ MAX_NANOS / 2) {m : TimingMetrics}
    (h : updates (new c) ds = .ok m) (hne : m.times ≠ []) :
    ∃ lo hi avg med, m.min = some lo ∧ m.max = some hi ∧
      m.average = .ok (some avg) ∧ m.median = .ok (some med) ∧
      avg.nanos = Duration.nanosSum m.times / m.count ∧
      (m.count % 2 = 1 → IsOrderStat m.times (m.count / 2) med) ∧
      (m.count % 2 = 0 → ∃ a b, IsOrderStat m.times (m.count / 2 - 1) a ∧
        IsOrderStat m.times (m.count / 2) b ∧ med.nanos = (a.nanos + b.nanos) / 2) ∧
      lo ≤ avg ∧ avg ≤ hi ∧ lo ≤ med ∧ med ≤ hi := by
  obtain ⟨hw, ht, -⟩ := updates_new h
  have hsub : ∀ d ∈ m.times, d ∈ ds := fun d hd => by
    rw [hw, window_eq_drop] at hd
    exact List.mem_of_mem_drop hd
  have hcount : m.count < UInt32.size := by
    have : m.count ≤ Max.max c 1 := by rw [count, hw, window_eq_drop, List.length_drop]; omega
    simp only [UInt32.size] at hc ⊢
    omega
  have hpos : 0 < m.count := List.length_pos.2 hne
  obtain ⟨lo, hlo, -, hlo_le⟩ := min_spec hne
  obtain ⟨hi, hhi, -, hle_hi⟩ := max_spec hne
  obtain ⟨avg, havg, havg_eq⟩ := average_of_tracks ht hne hcount
  obtain ⟨x, y, med, hx, hy, hxs, hys, hmed, hmed_eq⟩ :=
    median_spec hne fun d hd => hds d (hsub d hd)
  have hlo_sum := length_mul_le_nanosSum hlo_le
  have hsum_hi := nanosSum_le_length_mul hle_hi
  have := hlo_le x hx
  have := hlo_le y hy
  have := hle_hi x hx
  have := hle_hi y hy
  simp only [Duration.le_def] at *
  refine ⟨lo, hi, avg, med, hlo, hhi, havg, hmed, havg_eq, fun hodd => ?_, fun heven => ?_,
    ?_, ?_, by omega, by omega⟩
  · -- An odd count: both central indices are `count / 2`.
    rwa [show x = med from Duration.nanos_injective (by
      rw [hmed_eq, IsOrderStat.unique hys (by rwa [show m.count - 1 - m.count / 2 =
        m.count / 2 by omega])]; omega)] at hxs
  · exact ⟨y, x, by rwa [show m.count - 1 - m.count / 2 = m.count / 2 - 1 by omega] at hys,
      hxs, by rw [hmed_eq, Nat.add_comm]⟩
  · rw [havg_eq, Nat.le_div_iff_mul_le hpos]
    simpa [count, Nat.mul_comm] using hlo_sum
  · rw [havg_eq]
    exact Nat.div_le_of_le_mul (by simpa [count, Nat.mul_comm] using hsum_hi)

/-- Three durations through a window of two. -/
theorem statistics_of_three_updates :
    ∃ m, updates (new 2) [⟨3, by decide⟩, ⟨1, by decide⟩, ⟨2, by decide⟩] = .ok m ∧
      m.times ≠ [] ∧ ∃ lo hi avg med, m.min = some lo ∧ m.max = some hi ∧
        m.average = .ok (some avg) ∧ m.median = .ok (some med) ∧
        lo ≤ avg ∧ avg ≤ hi ∧ lo ≤ med ∧ med ≤ hi := by
  obtain ⟨lo, hi, avg, med, h₁, h₂, h₃, h₄, -, -, -, h₅, h₆, h₇, h₈⟩ :=
    @statistics_of_updates 2 (by decide) [⟨3, by decide⟩, ⟨1, by decide⟩, ⟨2, by decide⟩]
      (by decide) _ rfl (List.cons_ne_nil _ _)
  exact ⟨_, rfl, List.cons_ne_nil _ _, lo, hi, avg, med, h₁, h₂, h₃, h₄, h₅, h₆, h₇, h₈⟩

end TimingMetrics

end Grandine
