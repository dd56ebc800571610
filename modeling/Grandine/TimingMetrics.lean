import Grandine.Duration
import Mathlib.Data.List.Basic

/-!
# Timing metrics

`TimingMetrics` (`block_processor.rs`): a window of the last durations, oldest first
(a `VecDeque`), with room for `max_size` of them, and their running `total`. An update first
evicts the oldest duration when the window is full, taking it off the total, then pushes the new
one and adds it to the total; both steps use the panicking arithmetic of `Duration`.

The window alone is a function of the durations that arrived (`window`): each arrival slides
it (`slide`). The total follows it (`Tracks`), so

* `update_of_tracks`: from a state whose total is the sum of its window, an update slides the
  window, keeps the total the sum of the window, and panics exactly when that sum overflows;
* `updates_new`: every state reached from `new c` has the window `window c ds` of the
  durations `ds` it was given, and its total is their sum (`total_eq_sum_times`);
* `window_eq_drop`: the window holds the last `max c 1` durations. With room for none
  (`c = 0`), it still keeps the last one (`count_new_zero_update`).
-/

namespace Grandine

/-- `TimingMetrics`. -/
structure TimingMetrics where
  /-- The durations of the window, oldest first. -/
  times : List Duration
  /-- The running total. -/
  total : Duration
  /-- The room of the window. -/
  maxSize : Nat
  deriving DecidableEq

namespace TimingMetrics

/-- `TimingMetrics::new`. -/
def new (max_size : Nat) : TimingMetrics := ⟨[], Duration.zero, max_size⟩

/-- The first half of `TimingMetrics::update`: when the window is full, its oldest duration
    goes, and off the total. -/
def evict (m : TimingMetrics) : Except Panic TimingMetrics :=
  if m.maxSize ≤ m.times.length then
    match m.times with
    | [] => .ok m
    | old :: rest => do
      let total ← m.total.sub old
      pure { m with times := rest, total }
  else .ok m

/-- `TimingMetrics::update`. -/
def update (m : TimingMetrics) (duration : Duration) : Except Panic TimingMetrics := do
  let m ← m.evict
  let total ← m.total.add duration
  pure { m with times := m.times ++ [duration], total }

/-- `TimingMetrics::count`. -/
def count (m : TimingMetrics) : Nat := m.times.length

/-- `TimingMetrics::last`. -/
def last (m : TimingMetrics) : Option Duration := m.times.getLast?

/-- Updates with the durations `ds`, one after another, up to the first panic. -/
def updates : TimingMetrics → List Duration → Except Panic TimingMetrics
  | m, [] => .ok m
  | m, d :: ds => do updates (← m.update d) ds

theorem updates_append (m : TimingMetrics) (ds : List Duration) (d : Duration) :
    updates m (ds ++ [d]) = (updates m ds).bind fun m => m.update d := by
  induction ds generalizing m with
  | nil => simp only [List.nil_append, updates, bind, Except.bind]; cases m.update d <;> rfl
  | cons d' ds ih =>
    simp only [List.cons_append, updates, bind, Except.bind]
    cases m.update d' with
    | error p => rfl
    | ok m' => exact ih m'

/-! ## The window -/

/-- The window after the duration `d` arrives, with room for `c`: when it is full, the oldest
    duration goes first. -/
def slide (c : Nat) (times : List Duration) (d : Duration) : List Duration :=
  (if c ≤ times.length then times.tail else times) ++ [d]

/-- The window after the durations `ds` arrive, from an empty one. -/
def window (c : Nat) (ds : List Duration) : List Duration := ds.foldl (slide c) []

/-- The total is the sum of the window. -/
def Tracks (m : TimingMetrics) : Prop := m.total.nanos = Duration.nanosSum m.times

theorem tracks_new (c : Nat) : (new c).Tracks := rfl

theorem window_append (c : Nat) (ds : List Duration) (d : Duration) :
    window c (ds ++ [d]) = slide c (window c ds) d := by
  simp [window, List.foldl_append]

/-- Sliding a window that holds at most `max c 1` durations keeps the last `max c 1`. -/
theorem slide_eq_drop {c : Nat} {w : List Duration} (hw : w.length ≤ max c 1) (d : Duration) :
    slide c w d = (w ++ [d]).drop (w.length + 1 - max c 1) := by
  cases w with
  | nil => simp [slide]
  | cons x w =>
    by_cases hc : c ≤ (x :: w).length
    · have : (x :: w).length + 1 - max c 1 = 1 := by
        simp only [List.length_cons] at hw hc ⊢; omega
      rw [slide, if_pos hc, this]
      rfl
    · rw [slide, if_neg hc, Nat.sub_eq_zero_of_le (by omega), List.drop_zero]

/-- The window holds the last `max c 1` durations that arrived, oldest first. -/
theorem window_eq_drop (c : Nat) (ds : List Duration) :
    window c ds = ds.drop (ds.length - max c 1) := by
  induction ds using List.reverseRecOn with
  | nil => simp [window]
  | append_singleton ds d ih =>
    have hlen : (ds.drop (ds.length - max c 1)).length ≤ max c 1 := by
      rw [List.length_drop]; omega
    rw [window_append, ih, slide_eq_drop hlen,
      ← List.drop_append_of_le_length (Nat.sub_le _ _), List.drop_drop, List.length_drop,
      List.length_append, List.length_singleton]
    congr 1
    omega

/-! ## Updates -/

/-- From a state whose total is the sum of its window, eviction cannot underflow: it gives the
    window without its oldest duration when the window is full, and the total follows. -/
theorem evict_of_tracks {m : TimingMetrics} (h : m.Tracks) :
    ∃ m', m.evict = .ok m' ∧ m'.Tracks ∧ m'.maxSize = m.maxSize ∧
      m'.times = if m.maxSize ≤ m.times.length then m.times.tail else m.times := by
  unfold evict
  split
  · split
    · exact ⟨m, rfl, h, rfl, by simp_all⟩
    · next old rest htimes =>
      have hle : old.nanos ≤ m.total.nanos := by simp [Tracks, htimes] at h; omega
      rw [Duration.sub_eq_ok hle]
      refine ⟨_, rfl, ?_, rfl, by simp [htimes]⟩
      simp [Tracks, htimes] at h ⊢
      omega
  · exact ⟨m, rfl, h, rfl, by simp_all⟩

/-- From a state whose total is the sum of its window, `update d` slides the window, and
    panics exactly when the sum of the slid window overflows. -/
theorem update_of_tracks {m : TimingMetrics} (h : m.Tracks) (d : Duration) :
    m.update d = if hs : Duration.nanosSum (slide m.maxSize m.times d) ≤ MAX_NANOS then
      .ok ⟨slide m.maxSize m.times d, ⟨_, hs⟩, m.maxSize⟩ else .error .addOverflow := by
  obtain ⟨m', he, ht, hc, hw⟩ := evict_of_tracks h
  have hsum : Duration.nanosSum (slide m.maxSize m.times d) = m'.total.nanos + d.nanos := by
    rw [slide, ← hw, Duration.nanosSum_append, ht]
    simp
  by_cases hs : Duration.nanosSum (slide m.maxSize m.times d) ≤ MAX_NANOS
  · rw [dif_pos hs, update, he]
    simp only [bind, Except.bind, Duration.add_eq_ok (hsum ▸ hs), pure, Except.pure,
      Except.ok.injEq, TimingMetrics.mk.injEq, Duration.mk.injEq]
    exact ⟨by rw [slide, hw], hsum.symm, hc⟩
  · have hov : MAX_NANOS < m'.total.nanos + d.nanos := by omega
    rw [dif_neg hs, update, he]
    simp only [bind, Except.bind, Duration.add_eq_error hov]

/-- A run of updates from a state whose total is the sum of its window slides the window by
    each duration, and keeps the total the sum of the window. -/
theorem updates_of_tracks {m m' : TimingMetrics} {ds : List Duration}
    (hu : updates m ds = .ok m') (h : m.Tracks) :
    m'.times = ds.foldl (slide m.maxSize) m.times ∧ m'.Tracks ∧ m'.maxSize = m.maxSize := by
  induction ds generalizing m with
  | nil => cases hu; exact ⟨rfl, h, rfl⟩
  | cons d ds ih =>
    rw [updates, update_of_tracks h] at hu
    by_cases hs : Duration.nanosSum (slide m.maxSize m.times d) ≤ MAX_NANOS
    · simp only [dif_pos hs, bind, Except.bind] at hu
      exact ih hu rfl
    · simp [dif_neg hs, bind, Except.bind] at hu

/-- Every state reached from `new c` holds the window of the durations it was given, its total
    is their sum, and its room is `c`. -/
theorem updates_new {c : Nat} {ds : List Duration} {m : TimingMetrics}
    (h : updates (new c) ds = .ok m) :
    m.times = window c ds ∧ m.Tracks ∧ m.maxSize = c :=
  updates_of_tracks h (tracks_new c)

/-- The window always ends with the duration that arrived last, whatever its room: `last` is
    the newest duration. -/
theorem last_window (c : Nat) (ds : List Duration) : (window c ds).getLast? = ds.getLast? := by
  rw [window_eq_drop, List.getLast?_drop]
  split
  · next hle =>
    obtain rfl : ds = [] := List.length_eq_zero.1 (by omega)
    rfl
  · rfl

theorem last_of_updates {c : Nat} {ds : List Duration} {m : TimingMetrics}
    (h : updates (new c) ds = .ok m) : m.last = ds.getLast? := by
  rw [last, (updates_new h).1, last_window]

/-- After every update from `new c`, the total is the exact sum of the window; eviction never
    underflows; and an update panics only when the exact sum of the window it would make
    exceeds `Duration::MAX`. -/
theorem total_eq_sum_times {c : Nat} {ds : List Duration} {m : TimingMetrics}
    (h : updates (new c) ds = .ok m) :
    m.total.nanos = Duration.nanosSum m.times ∧ (∃ m', m.evict = .ok m') ∧
      ∀ d p, m.update d = .error p →
        MAX_NANOS < Duration.nanosSum (slide m.maxSize m.times d) := by
  obtain ⟨-, ht, -⟩ := updates_new h
  refine ⟨ht, (evict_of_tracks ht).imp fun _ h => h.1, fun d p hp => ?_⟩
  rw [update_of_tracks ht] at hp
  split at hp
  · cases hp
  · omega

/-- Three durations through a window of two. -/
theorem total_eq_sum_times_of_three :
    ∃ m, updates (new 2) [⟨3, by decide⟩, ⟨1, by decide⟩, ⟨2, by decide⟩] = .ok m ∧
      m.total.nanos = Duration.nanosSum m.times ∧ ∃ m', m.evict = .ok m' :=
  let h := @total_eq_sum_times 2 [⟨3, by decide⟩, ⟨1, by decide⟩, ⟨2, by decide⟩] _ rfl
  ⟨_, rfl, h.1, h.2.1⟩

/-- With room for none, the window still holds the duration that arrived last. -/
theorem count_new_zero_update :
    ((new 0).update ⟨1, by decide⟩).map count = .ok 1 :=
  rfl

end TimingMetrics

end Grandine
