import Grandine.BlockProcessor.Cache

/-!
# The timing metrics of the processor

Each method of the processor times itself under its name (`update_metrics`): the metrics of that
name, created with room for 100 on the first timing, take the duration. After a log of timings,
the metrics of each name are therefore `TimingMetrics::new(100)` updated with the durations timed
under that name, in order (`MetricsAfter`).

* `MetricsAfter.window`: the metrics of each name then hold the last 100 durations timed under
  it, oldest first, their total is their exact sum, and a name has metrics exactly when it has
  been timed; by `MetricsAfter.last`, `TimingMetrics::last` is the newest of them;
* `MetricsAfter.update`, `MetricsAfter.call`: `update_metrics`, and a call of a cached method,
  add their timing to the log.
-/

namespace Grandine

namespace BlockProcessor

variable {T : Types} {chain : Chain T}

/-- The durations timed under `name` in a log of timings, in order. -/
def timesOf (name : String) (log : List (String × Duration)) : List Duration :=
  (log.filter fun t => t.1 = name).map Prod.snd

theorem timesOf_append (name : String) (log : List (String × Duration)) (n : String)
    (elapsed : Duration) :
    timesOf name (log ++ [(n, elapsed)]) = timesOf name log ++ if n = name then [elapsed] else [] := by
  simp only [timesOf, List.filter_append, List.map_append, List.filter_cons, List.filter_nil]
  split <;> simp_all

/-- What the metrics are after the timings `log`: for each name, the metrics of new updated with
    the durations timed under it, present exactly when there is one. -/
def MetricsAfter (metrics : String → Option TimingMetrics) (log : List (String × Duration)) :
    Prop :=
  ∀ name, TimingMetrics.updates (.new 100) (timesOf name log) =
      .ok ((metrics name).getD (.new 100)) ∧
    ((metrics name).isSome ↔ timesOf name log ≠ [])

theorem metricsAfter_nil : MetricsAfter (fun _ => none) [] :=
  fun _ => by simp [timesOf, TimingMetrics.updates]

/-- After a log, the metrics of each name hold the last 100 durations timed under it, oldest
    first, and their total is their exact sum. -/
theorem MetricsAfter.window {metrics : String → Option TimingMetrics}
    {log : List (String × Duration)} (hm : MetricsAfter metrics log) (name : String) :
    ((metrics name).getD (.new 100)).times =
        (timesOf name log).drop ((timesOf name log).length - 100) ∧
      ((metrics name).getD (.new 100)).total.nanos =
        Duration.nanosSum ((metrics name).getD (.new 100)).times ∧
      ((metrics name).isSome ↔ timesOf name log ≠ []) := by
  obtain ⟨hu, hsome⟩ := hm name
  obtain ⟨htimes, htotal, -⟩ := TimingMetrics.updates_new hu
  exact ⟨by rw [htimes, TimingMetrics.window_eq_drop]; rfl, htotal, hsome⟩

/-- After a log, the last duration of each name is the newest one timed under it. -/
theorem MetricsAfter.last {metrics : String → Option TimingMetrics}
    {log : List (String × Duration)} (hm : MetricsAfter metrics log) (name : String) :
    ((metrics name).getD (.new 100)).last = (timesOf name log).getLast? :=
  TimingMetrics.last_of_updates (hm name).1

/-- `update_metrics` times the duration under its name, and nothing else. -/
theorem MetricsAfter.update {metrics metrics' : String → Option TimingMetrics}
    {log : List (String × Duration)} (hm : MetricsAfter metrics log) {n : String}
    {elapsed : Duration} (h : updateMetrics metrics n elapsed = .ok metrics') :
    MetricsAfter metrics' (log ++ [(n, elapsed)]) := by
  obtain ⟨entry, hentry, h⟩ := bind_eq_ok.1 h
  cases h
  intro name
  rw [timesOf_append]
  by_cases hn : n = name
  · subst hn
    simp [TimingMetrics.updates_append, (hm n).1, Except.bind, hentry]
  · simpa [hn, Function.update_noteq (Ne.symm hn)] using hm name

/-- A call that returns times itself under its method's name. -/
theorem MetricsAfter.call {bp bp' : BlockProcessor T} {log : List (String × Duration)}
    (hm : MetricsAfter bp.metrics log) {c : Call T} {elapsed : Duration}
    {r : Except T.Error (StateWithRewards T)} (h : bp.call chain c elapsed = .ok (bp', r)) :
    MetricsAfter bp'.metrics (log ++ [(c.name, elapsed)]) := by
  simp only [BlockProcessor.call, cached, bind, Except.bind] at h
  split at h
  · cases h
  · next metrics hmetrics =>
    cases h
    exact hm.update hmetrics

end BlockProcessor

end Grandine
