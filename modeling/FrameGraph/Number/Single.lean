import FrameGraph.Number.Binary

namespace FrameGraph

/-- A number of single width, with infinities and NaNs. -/
structure Single where
  negative : Bool
  code : Nat
  isLt : code < BinaryFormat.single.codes
  deriving DecidableEq, Repr

namespace Single

def isNaN (x : Single) : Bool := BinaryFormat.single.infinity < x.code

/-- Numerical equality: a NaN differs from all, and the two zeros are equal. -/
protected def beq (x y : Single) : Bool :=
  !x.isNaN && !y.isNaN && x.code == y.code && (x.negative == y.negative || x.code == 0)

instance : BEq Single := ⟨Single.beq⟩

/-- A number that is not a NaN, from a code of any size. -/
def ofCode (negative : Bool) (code : Nat) : Single :=
  ⟨negative, min code BinaryFormat.single.infinity,
    Nat.lt_of_le_of_lt (Nat.min_le_right _ _) BinaryFormat.single_infinity_lt_codes⟩

/-- The number nearest to one of double width. -/
def ofDouble (x : Double) : Single :=
  ofCode x.negative (BinaryFormat.double.convert .single x.code)

/-- The number nearest to the number of double width that is nearest to a natural. -/
def ofNat (n : Nat) : Single :=
  ofCode false (BinaryFormat.double.convert .single (BinaryFormat.double.round n 1))

/-- The bit pattern: the sign bit, then the code. -/
def toBits (x : Single) : Nat := (if x.negative then BinaryFormat.single.codes else 0) + x.code

def ofBits (bits : UInt32) : Single :=
  ⟨BinaryFormat.single.codes ≤ bits.toNat, bits.toNat % BinaryFormat.single.codes,
    Nat.mod_lt _ (by decide)⟩

def zero : Single := ofCode false 0

def one : Single := ofNat 1

theorem isNaN_ofCode (negative : Bool) (code : Nat) : (ofCode negative code).isNaN = false :=
  decide_eq_false (Nat.not_lt.2 (Nat.min_le_right ..))

end Single

end FrameGraph
