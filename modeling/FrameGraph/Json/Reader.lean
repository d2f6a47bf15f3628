import FrameGraph.Json.Basic
import FrameGraph.Number.Decimal

namespace FrameGraph.Json

def isBlank (c : Char) : Bool := c == ' ' || c == '\t' || c == '\n' || c == '\r'

def skipBlanks (s : List Char) : List Char := s.dropWhile isBlank

/-- The characters after an expected start. -/
def after? : List Char → List Char → Option (List Char)
  | [], s => some s
  | _ :: _, [] => none
  | c :: w, d :: s => if c = d then after? w s else none

/-- The digits at the front, of which there must be one, and the rest. -/
def digits? (s : List Char) : Option (List Char × List Char) :=
  match s.takeWhile Char.isDigit with
  | [] => none
  | ds => some (ds, s.dropWhile Char.isDigit)

/-- The number that decimal digits spell. -/
def decimal (ds : List Char) : Nat := ds.foldl (fun n c => 10 * n + Decimal.digit c) 0

def hexDigit? (c : Char) : Option Nat :=
  if '0' ≤ c ∧ c ≤ '9' then some (c.toNat - '0'.toNat)
  else if 'a' ≤ c ∧ c ≤ 'f' then some (c.toNat - 'a'.toNat + 10)
  else if 'A' ≤ c ∧ c ≤ 'F' then some (c.toNat - 'A'.toNat + 10)
  else none

/-- The UTF-16 unit that four digits spell. -/
def unit? (a b c d : Char) : Option Nat := do
  return ((← hexDigit? a) * 16 + (← hexDigit? b)) * 256 + (← hexDigit? c) * 16 + (← hexDigit? d)

/-- The character that a backslash and a letter stand for. -/
def escaped? : Char → Option Char
  | '"' => some '"'
  | '\\' => some '\\'
  | '/' => some '/'
  | 'b' => some '\x08'
  | 'f' => some '\x0c'
  | 'n' => some '\n'
  | 'r' => some '\r'
  | 't' => some '\t'
  | _ => none

/-- What stands between an opening quote and its closing one, and the rest. -/
def quoted (before : List Char) : List Char → Option (String × List Char)
  | [] => none
  | '"' :: s => some (String.ofList before.reverse, s)
  | '\\' :: 'u' :: a :: b :: c :: d :: s =>
    match unit? a b c d with
    | none => none
    | some u =>
      if u < 0xD800 || 0xE000 ≤ u then quoted (Char.ofNat u :: before) s
      else if 0xDC00 ≤ u then none
      else match s with
        | '\\' :: 'u' :: a :: b :: c :: d :: s =>
          match unit? a b c d with
          | none => none
          | some v =>
            if v < 0xDC00 || 0xE000 ≤ v then none
            else quoted (Char.ofNat (0x10000 + (u - 0xD800) * 0x400 + (v - 0xDC00)) :: before) s
        | _ => none
  | '\\' :: e :: s =>
    match escaped? e with
    | none => none
    | some c => quoted (c :: before) s
  | c :: s => if c.toNat < 0x20 then none else quoted (c :: before) s

/-- The whole part of a number: no zero stands before another digit. -/
def whole? (s : List Char) : Option (List Char × List Char) :=
  match s with
  | '0' :: s => some (['0'], s)
  | s => digits? s

/-- The digits after a point, if there is one. -/
def fraction? (s : List Char) : Option (List Char × List Char) :=
  match s with
  | '.' :: s => digits? s
  | s => some ([], s)

/-- The exponent, if there is one. -/
def exponent? (s : List Char) : Option (Option Int × List Char) :=
  match s with
  | e :: s =>
    if e = 'e' ∨ e = 'E' then
      match s with
      | '-' :: s => (digits? s).map fun (ds, s) => (some (-(decimal ds : Int)), s)
      | '+' :: s => (digits? s).map fun (ds, s) => (some (decimal ds : Int), s)
      | s => (digits? s).map fun (ds, s) => (some (decimal ds : Int), s)
    else some (none, e :: s)
  | [] => some (none, [])

/-- The natural that a number is, if it has digits alone and fits 64 bits. -/
def natural? (negative : Bool) (whole fraction : List Char) (exponent : Option Int) :
    Option UInt64 :=
  match Decimal.append 0 whole with
  | (n, []) => if negative || !fraction.isEmpty || exponent.isSome then none else some n
  | _ => none

/-- A number whose sign has been read. -/
def number (negative : Bool) (s : List Char) : Option (Json × List Char) := do
  let (whole, s) ← whole? s
  let (fraction, s) ← fraction? s
  let (exponent, s) ← exponent? s
  match natural? negative whole fraction exponent with
  | some n => return (natural n, s)
  | none =>
    let d := Decimal.ofDigits whole fraction (exponent.getD 0)
    return (real (← d.double? negative), s)

/-- The items up to the closing bracket, the first of which is due. -/
def items (value : List Char → Option (Json × List Char)) :
    Nat → List Json → List Char → Option (Json × List Char)
  | 0, _, _ => none
  | fuel + 1, before, s => do
    let (item, s) ← value (skipBlanks s)
    match skipBlanks s with
    | ',' :: s => items value fuel (item :: before) s
    | ']' :: s => return (array (item :: before).reverse, s)
    | _ => none

/-- The fields up to the closing brace, the first of which is due. -/
def fields (value : List Char → Option (Json × List Char)) :
    Nat → List (String × Json) → List Char → Option (Json × List Char)
  | 0, _, _ => none
  | fuel + 1, before, s => do
    let s ← after? ['"'] (skipBlanks s)
    let (key, s) ← quoted [] s
    let s ← after? [':'] (skipBlanks s)
    let (item, s) ← value (skipBlanks s)
    match skipBlanks s with
    | ',' :: s => fields value fuel (put before key item) s
    | '}' :: s => return (object (put before key item), s)
    | _ => none

/-- The value at the front, which may be nested `depth` deep, and the rest. The text bounds the number
of items and fields. -/
def value : (depth : Nat) → List Char → Option (Json × List Char)
  | _, [] => none
  | depth, c :: s =>
    match c with
    | '"' => (quoted [] s).map fun (t, s) => (text t, s)
    | '-' => number true s
    | 'n' => (after? ['u', 'l', 'l'] s).map (null, ·)
    | 't' => (after? ['r', 'u', 'e'] s).map (boolean true, ·)
    | 'f' => (after? ['a', 'l', 's', 'e'] s).map (boolean false, ·)
    | '[' =>
      match depth with
      | 0 => none
      | depth + 1 =>
        match skipBlanks s with
        | ']' :: s => some (array [], s)
        | s => items (value depth) (s.length + 1) [] s
    | '{' =>
      match depth with
      | 0 => none
      | depth + 1 =>
        match skipBlanks s with
        | '}' :: s => some (object [], s)
        | s => fields (value depth) (s.length + 1) [] s
    | c => number false (c :: s)

/-- How deep arrays and objects may be nested. -/
def maxDepth : Nat := 127

/-- The one value that the text holds, strictly by the grammar. -/
def parse : Parser := fun text =>
  match value maxDepth (skipBlanks text.toList) with
  | some (j, s) => if (skipBlanks s).isEmpty then .ok j else .error "trailing characters"
  | none => .error "no value"

end FrameGraph.Json
