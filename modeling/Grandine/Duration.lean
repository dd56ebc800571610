import Mathlib.Order.MinMax

/-!
# Durations

`std::time::Duration`, as much of it as the timing metrics use. A duration is its length in
nanoseconds, at most `Duration::MAX` (`u64::MAX` seconds and `999_999_999` nanoseconds); the
order is that of the lengths. The arithmetic is checked: `+` and `-` panic where `checked_add`
and `checked_sub` give nothing, and `/` by a `u32` panics on zero. Division is exact on the
nanoseconds (`checked_div` divides the seconds and carries their remainder into the
nanoseconds), so it is the floor of the quotient of the lengths.

A panic is a value here (`Panic`): what may panic returns `Except Panic _`, and a proof about it
takes its computations apart with `bind_eq_ok` and `map_eq_ok`.
-/

namespace Grandine

/-- Nanoseconds in a second. -/
def NANOS_PER_SEC : Nat := 1000000000

/-- The length of `Duration::MAX`, in nanoseconds. -/
def MAX_NANOS : Nat := (UInt64.size - 1) * NANOS_PER_SEC + (NANOS_PER_SEC - 1)

/-- A `std::time::Duration`: its length in nanoseconds (`as_nanos`). -/
structure Duration where
  nanos : Nat
  le_max : nanos ≤ MAX_NANOS
  deriving DecidableEq

/-- The panics of duration arithmetic, by the message `core` gives them. -/
inductive Panic
  /-- "overflow when adding durations" -/
  | addOverflow
  /-- "overflow when subtracting durations" -/
  | subOverflow
  /-- "divide by zero error when dividing duration by scalar" -/
  | divByZero
  deriving DecidableEq, Repr

/-- A computation that may fail returns `b` through a bind exactly when its first part returns a
    value from which the rest returns `b`. -/
theorem bind_eq_ok {ε α β : Type} {x : Except ε α} {f : α → Except ε β} {b : β} :
    x >>= f = .ok b ↔ ∃ a, x = .ok a ∧ f a = .ok b := by
  cases x <;> simp [bind, Except.bind]

theorem map_eq_ok {ε α β : Type} {x : Except ε α} {f : α → β} {b : β} :
    f <$> x = .ok b ↔ ∃ a, x = .ok a ∧ f a = b := by
  cases x <;> simp [Functor.map, Except.map]

namespace Duration

theorem nanos_injective : Function.Injective nanos := by
  rintro ⟨a, _⟩ ⟨b, _⟩ rfl
  rfl

instance : LinearOrder Duration := LinearOrder.lift' nanos nanos_injective

theorem le_def {a b : Duration} : a ≤ b ↔ a.nanos ≤ b.nanos := Iff.rfl

theorem lt_def {a b : Duration} : a < b ↔ a.nanos < b.nanos := Iff.rfl

/-- `Duration::default()`. -/
def zero : Duration := ⟨0, Nat.zero_le _⟩

/-- `Duration + Duration`. -/
def add (a b : Duration) : Except Panic Duration :=
  if h : a.nanos + b.nanos ≤ MAX_NANOS then .ok ⟨a.nanos + b.nanos, h⟩ else .error .addOverflow

/-- `Duration - Duration`. -/
def sub (a b : Duration) : Except Panic Duration :=
  if h : b.nanos ≤ a.nanos then .ok ⟨a.nanos - b.nanos, by have := a.le_max; omega⟩
  else .error .subOverflow

/-- `Duration / u32`. -/
def div (a : Duration) (rhs : UInt32) : Except Panic Duration :=
  if rhs.toNat = 0 then .error .divByZero
  else .ok ⟨a.nanos / rhs.toNat, Nat.le_trans (Nat.div_le_self _ _) a.le_max⟩

/-- The total length of some durations, in nanoseconds. -/
def nanosSum : List Duration → Nat
  | [] => 0
  | d :: l => d.nanos + nanosSum l

@[simp] theorem nanos_zero : zero.nanos = 0 := rfl

@[simp] theorem nanosSum_nil : nanosSum [] = 0 := rfl

@[simp] theorem nanosSum_cons (d : Duration) (l : List Duration) :
    nanosSum (d :: l) = d.nanos + nanosSum l := rfl

@[simp] theorem nanosSum_append (l l' : List Duration) :
    nanosSum (l ++ l') = nanosSum l + nanosSum l' := by
  induction l with
  | nil => simp
  | cons d l ih => simp [ih, Nat.add_assoc]

theorem add_eq_ok {a b : Duration} (h : a.nanos + b.nanos ≤ MAX_NANOS) :
    a.add b = .ok ⟨a.nanos + b.nanos, h⟩ := by
  simp [add, h]

theorem add_eq_error {a b : Duration} (h : MAX_NANOS < a.nanos + b.nanos) :
    a.add b = .error .addOverflow := by
  simp [add, Nat.not_le.2 h]

theorem sub_eq_ok {a b : Duration} (h : b.nanos ≤ a.nanos) :
    a.sub b = .ok ⟨a.nanos - b.nanos, by have := a.le_max; omega⟩ := by
  simp [sub, h]

theorem div_eq_ok {a : Duration} {rhs : UInt32} (h : rhs.toNat ≠ 0) :
    a.div rhs = .ok ⟨a.nanos / rhs.toNat, Nat.le_trans (Nat.div_le_self _ _) a.le_max⟩ := by
  simp [div, h]

end Duration

end Grandine
