namespace FrameGraph

/-- Widths of the stored fraction and of the stored exponent. The magnitude of a number is one natural,
its code: the stored exponent followed by the stored fraction. -/
structure BinaryFormat where
  fraction : Nat
  exponent : Nat
  deriving DecidableEq, Repr

namespace BinaryFormat

def double : BinaryFormat := ⟨52, 11⟩

def single : BinaryFormat := ⟨23, 8⟩

/-- The least positive magnitude is two to the power of `-scale`; it is the unit of `units`. -/
def scale (F : BinaryFormat) : Nat := (1 <<< (F.exponent - 1)) - 2 + F.fraction

/-- The code of infinity, above the codes of all finite magnitudes and below those of NaNs. -/
def infinity (F : BinaryFormat) : Nat := ((1 <<< F.exponent) - 1) <<< F.fraction

/-- Number of codes. -/
def codes (F : BinaryFormat) : Nat := 1 <<< (F.fraction + F.exponent)

/-- The magnitude of a finite code, in units of the least one. -/
def units (F : BinaryFormat) (code : Nat) : Nat :=
  let e := code >>> F.fraction
  let f := code - (e <<< F.fraction)
  if e = 0 then f else ((1 <<< F.fraction) + f) <<< (e - 1)

/-- The quotient to the nearest natural, a half to the even one. -/
def nearest (n d : Nat) : Nat :=
  let q := n / d
  let r := n % d
  if 2 * r < d then q else if d < 2 * r then q + 1 else q + q % 2

/-- The code nearest to `n / d`, a tie to the even one and an overflow to infinity. With `k` the
number of binades above the least one, neighbours among the codes lie `1 <<< k` units apart. -/
def round (F : BinaryFormat) (n d : Nat) : Nat :=
  let n := n <<< F.scale
  let k := (n / d).log2 - F.fraction
  min F.infinity ((k <<< F.fraction) + nearest n (d <<< k))

/-- The code nearest to the product of two finite codes. -/
def mul (F : BinaryFormat) (a b : Nat) : Nat :=
  F.round (F.units a * F.units b) (1 <<< (2 * F.scale))

/-- The code nearest to the quotient of two finite codes. -/
def div (F : BinaryFormat) (a b : Nat) : Nat := F.round (F.units a) (F.units b)

/-- The code in `G` nearest to that of `F`; infinity and all above it become infinity. -/
def convert (F G : BinaryFormat) (code : Nat) : Nat :=
  if code < F.infinity then G.round (F.units code) (1 <<< F.scale) else G.infinity

theorem single_infinity_lt_codes : single.infinity < single.codes := by decide

end BinaryFormat

/-- A finite number of double width: a sign and a code below infinity. -/
structure Double where
  negative : Bool
  code : Nat
  isLt : code < BinaryFormat.double.infinity
  deriving DecidableEq, Repr

end FrameGraph
