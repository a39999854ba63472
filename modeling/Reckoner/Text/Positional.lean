namespace Reckoner.Text

def digitChar (n : Nat) : Char := Char.ofNat (if n < 10 then 48 + n else 87 + n)

def digitOf? (c : Char) : Option Nat :=
  if '0' ≤ c ∧ c ≤ '9' then some (c.toNat - 48)
  else if 'a' ≤ c ∧ c ≤ 'f' then some (c.toNat - 87)
  else if 'A' ≤ c ∧ c ≤ 'F' then some (c.toNat - 55)
  else none

def digitIn? (base : Nat) (c : Char) : Option Nat := (digitOf? c).filter (· < base)

def numeral (base n : Nat) : List Char :=
  if _ : n < base ∨ base < 2 then [digitChar n]
  else numeral base (n / base) ++ [digitChar (n % base)]
termination_by n
decreasing_by exact Nat.div_lt_self (by omega) (by omega)

def continued (base : Nat) : Nat → List Char → Nat
  | n, [] => n
  | n, c :: cs => continued base (n * base + (digitOf? c).getD 0) cs

def numeralValue (base : Nat) (cs : List Char) : Nat := continued base 0 cs

def withPoint (digits : List Char) (place : Int) : List Char :=
  if place ≤ 0 then '0' :: '.' :: List.replicate (-place).toNat '0' ++ digits
  else if digits.length ≤ place.toNat then
    digits ++ List.replicate (place.toNat - digits.length) '0'
  else digits.take place.toNat ++ '.' :: digits.drop place.toNat

def natText (n : Nat) : String := String.ofList (numeral 10 n)

def intChars (n : Int) : List Char :=
  if n < 0 then '-' :: numeral 10 n.natAbs else numeral 10 n.natAbs

def intText (n : Int) : String := String.ofList (intChars n)

def signedNumeral (n : Int) : List Char :=
  (if n < 0 then '-' else '+') :: numeral 10 n.natAbs

def takeSign : List Char → Bool × List Char
  | '-' :: cs => (true, cs)
  | '+' :: cs => (false, cs)
  | cs => (false, cs)

def readInt? (s : String) : Option Int :=
  let cs := s.toList
  let negative := cs.head? == some '-'
  let ds := if negative then cs.drop 1 else cs
  if ds.isEmpty || !ds.all Char.isDigit then none
  else some (if negative then -(numeralValue 10 ds : Int) else numeralValue 10 ds)

end Reckoner.Text
