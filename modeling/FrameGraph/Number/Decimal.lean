import FrameGraph.Number.Binary

namespace FrameGraph

/-- A natural that fits 64 bits, times a power of ten. -/
structure Decimal where
  significand : UInt64
  exponent : Int
  deriving DecidableEq, Repr

namespace Decimal

/-- The value of a digit. -/
def digit (c : Char) : Nat := c.toNat - '0'.toNat

/-- The natural with digits appended for as long as it fits 64 bits, and the digits left over. -/
def append (n : UInt64) : List Char → UInt64 × List Char
  | [] => (n, [])
  | c :: cs =>
    let m := 10 * n.toNat + digit c
    if m < UInt64.size then append (.ofNat m) cs else (n, c :: cs)

/-- The decimal written with digits before and after a point. Digits left over are lost; each one
before the point still scales by ten. -/
def ofDigits (whole fraction : List Char) (exponent : Int) : Decimal :=
  let (n, wholeLeft) := append 0 whole
  let (n, fractionLeft) := append n fraction
  ⟨n, exponent + wholeLeft.length + fractionLeft.length - fraction.length⟩

/-- The exponent of the greatest power of ten that is below infinity. -/
def maxPower : Nat := 308

/-- The code of the double nearest to a power of ten. -/
def powerCode (e : Nat) : Nat := BinaryFormat.double.round (Nat.pow 10 e) 1

/-- The code of the double of the significand, times a power of ten. -/
def scaleUp (n : UInt64) (e : Nat) : Nat :=
  let F := BinaryFormat.double
  if e ≤ maxPower then F.mul (F.round n.toNat 1) (powerCode e)
  else if n = 0 then 0
  else F.infinity

/-- The code of the double of the significand, divided by a power of ten. A power beyond the greatest
is divided by in two steps; nothing remains after a third. -/
def scaleDown (n : UInt64) (e : Nat) : Nat :=
  let F := BinaryFormat.double
  if e ≤ maxPower then F.div (F.round n.toNat 1) (powerCode e)
  else if e ≤ 2 * maxPower then
    F.div (F.div (F.round n.toNat 1) (powerCode maxPower)) (powerCode (e - maxPower))
  else 0

/-- The code of the double that the decimal is read as. -/
def code (d : Decimal) : Nat :=
  match d.exponent with
  | .ofNat e => scaleUp d.significand e
  | .negSucc e => scaleDown d.significand (e + 1)

/-- The double that the decimal is read as, unless it overflows. -/
def double? (negative : Bool) (d : Decimal) : Option Double :=
  if h : d.code < BinaryFormat.double.infinity then some ⟨negative, d.code, h⟩ else none

end Decimal

end FrameGraph
