namespace FrameGraph

structure Instant where
  seconds : Int
  nanos : Nat := 0
  deriving DecidableEq, Repr

structure Date where
  year : Int
  month : Nat
  day : Nat
  deriving DecidableEq, Repr

/-- Days from the first of March of year 0 to the first of January 1970. -/
def daysToEpoch : Int := 719468

/-- The date that lies a number of days after the first of January 1970. Years are counted from March
here, so that a leap day ends its year, its four years, and every fourth of its centuries. -/
def Date.ofDays (days : Int) : Date :=
  let n := days + daysToEpoch
  let cycle := n.fdiv 146097
  let d := (n.fmod 146097).toNat
  let century := min 3 (d / 36524)
  let d := d - century * 36524
  let four := d / 1461
  let d := d - four * 1461
  let single := min 3 (d / 365)
  let d := d - single * 365
  let year := cycle * 400 + (century * 100 + four * 4 + single : Nat)
  let month := (5 * d + 2) / 153
  let day := d - (153 * month + 2) / 5 + 1
  if month < 10 then ⟨year, month + 3, day⟩ else ⟨year + 1, month - 9, day⟩

/-- The digits of a number with zeros in front, up to a width. -/
def padded (width n : Nat) : String :=
  let digits := Nat.toDigits 10 n
  String.ofList (List.replicate (width - digits.length) '0' ++ digits)

/-- A year has four digits; one that needs more, or that lies before year 0, has a sign. -/
def yearText (year : Int) : String :=
  if year < 0 then "-" ++ padded 4 year.natAbs
  else if year ≤ 9999 then padded 4 year.natAbs
  else "+" ++ padded 4 year.natAbs

namespace Instant

/-- The date and the time of day; milliseconds are cut off, not rounded. -/
def stamp (t : Instant) : String :=
  let seconds := t.seconds + (t.nanos / 1000000000 : Nat)
  let date := Date.ofDays (seconds.fdiv 86400)
  let s := (seconds.fmod 86400).toNat
  let millis := t.nanos % 1000000000 / 1000000
  s!"{yearText date.year}-{padded 2 date.month}-{padded 2 date.day} " ++
    s!"{padded 2 (s / 3600)}:{padded 2 (s / 60 % 60)}:{padded 2 (s % 60)}.{padded 3 millis}"

end Instant

end FrameGraph
