/-!
# Phases

`Phase` (crate `types`, not among the sources): the forks of the beacon chain, in the order they
happen. It derives `PartialOrd`, so phases compare in that order, as `block.phase() <
Phase::Capella` in `validate_block` does.
-/

namespace Grandine

/-- Modelled from the spec: `Phase`, the forks in order. -/
inductive Phase
  | phase0
  | altair
  | bellatrix
  | capella
  | deneb
  deriving DecidableEq, Repr

/-- The place of a phase in the order of the forks. -/
def Phase.index : Phase → Nat
  | .phase0 => 0
  | .altair => 1
  | .bellatrix => 2
  | .capella => 3
  | .deneb => 4

/-- The derived `PartialOrd`: phases compare in the order of the forks. -/
instance : LT Phase := ⟨fun a b => a.index < b.index⟩

instance (a b : Phase) : Decidable (a < b) := inferInstanceAs (Decidable (a.index < b.index))

end Grandine
