namespace Decaf.ArraySize

def digit? (base : Nat) (c : Char) : Option Nat :=
  let value :=
    if '0' ≤ c ∧ c ≤ '9' then some (c.toNat - '0'.toNat)
    else if 'a' ≤ c ∧ c ≤ 'f' then some (c.toNat - 'a'.toNat + 10)
    else if 'A' ≤ c ∧ c ≤ 'F' then some (c.toNat - 'A'.toNat + 10)
    else none
  value.filter fun v => v < base

def digits (base : Nat) (read : Nat) : List Char → Option Nat
  | [] => some read
  | c :: cs =>
    match digit? base c with
    | some d => digits base (read * base + d) cs
    | none => none

def natural (base : Nat) : List Char → Option Nat
  | [] => none
  | cs => digits base 0 cs

def integer (base : Nat) : List Char → Option Int
  | '+' :: cs => (natural base cs).map Int.ofNat
  | '-' :: cs => (natural base cs).map fun n => -(n : Int)
  | cs => (natural base cs).map Int.ofNat

def value : List Char → Option Int
  | '0' :: 'x' :: cs => integer 16 cs
  | cs => integer 10 cs

def largest : Int := 2147483647

/-- The length of an array by its size text: a number with an optional sign, decimal or hexadecimal
behind `0x`, of at least 1 and at most 31 bits. -/
def read? (text : String) : Option Nat :=
  match value text.toList with
  | some n => if 1 ≤ n ∧ n ≤ largest then some n.toNat else none
  | none => none

end Decaf.ArraySize
