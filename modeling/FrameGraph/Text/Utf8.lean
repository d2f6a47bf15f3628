namespace FrameGraph.Text

/-- Where octets stop being UTF-8. No length means that the octets end inside a sequence. -/
structure Utf8Fault where
  start : Nat
  length : Option Nat
  deriving DecidableEq, Repr

def Utf8Fault.message : Utf8Fault → String
  | ⟨i, some n⟩ => s!"invalid utf-8 sequence of {n} bytes from index {i}"
  | ⟨i, none⟩ => s!"incomplete utf-8 byte sequence from index {i}"

/-- What a lead octet announces: its own bits, the bounds of the second octet, and the number of
tails after that one. -/
structure Lead where
  bits : Nat
  low : Nat := 0x80
  high : Nat := 0xBF
  tails : Nat

/-- The bounds rule out overlong forms, surrogates and code points above U+10FFFF. -/
def lead (a : Nat) : Option Lead :=
  if a < 0xC2 then none
  else if a < 0xE0 then some { bits := a - 0xC0, tails := 0 }
  else if a = 0xE0 then some { bits := 0, low := 0xA0, tails := 1 }
  else if a = 0xED then some { bits := 0xD, high := 0x9F, tails := 1 }
  else if a < 0xF0 then some { bits := a - 0xE0, tails := 1 }
  else if a = 0xF0 then some { bits := 0, low := 0x90, tails := 2 }
  else if a < 0xF4 then some { bits := a - 0xF0, tails := 2 }
  else if a = 0xF4 then some { bits := 4, high := 0x8F, tails := 2 }
  else none

def isTail (a : Nat) : Bool := 0x80 ≤ a && a ≤ 0xBF

/-- The six bits that a tail adds. -/
def addTail (bits a : Nat) : Nat := bits * 64 + (a - 0x80)

/-- The characters of the octets, the first of which stands at index `i`. -/
def decodeFrom (i : Nat) : List UInt8 → Except Utf8Fault (List Char)
  | [] => .ok []
  | a :: s =>
    if a.toNat < 0x80 then return Char.ofNat a.toNat :: (← decodeFrom (i + 1) s)
    else match lead a.toNat, s with
    | none, _ => .error ⟨i, some 1⟩
    | some _, [] => .error ⟨i, none⟩
    | some l, b :: s =>
      if b.toNat < l.low || l.high < b.toNat then .error ⟨i, some 1⟩
      else
        let two := addTail l.bits b.toNat
        match l.tails, s with
        | 0, s => return Char.ofNat two :: (← decodeFrom (i + 2) s)
        | _ + 1, [] => .error ⟨i, none⟩
        | t + 1, c :: s =>
          if !isTail c.toNat then .error ⟨i, some 2⟩
          else
            let three := addTail two c.toNat
            match t, s with
            | 0, s => return Char.ofNat three :: (← decodeFrom (i + 3) s)
            | _ + 1, [] => .error ⟨i, none⟩
            | _ + 1, d :: s =>
              if !isTail d.toNat then .error ⟨i, some 3⟩
              else return Char.ofNat (addTail three d.toNat) :: (← decodeFrom (i + 4) s)

/-- The text that the octets spell, or the first place where they spell none. -/
def decodeUtf8 (bytes : List UInt8) : Except Utf8Fault String :=
  (decodeFrom 0 bytes).map String.ofList

end FrameGraph.Text
