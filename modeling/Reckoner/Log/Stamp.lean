import Reckoner.Text.Positional

namespace Reckoner.Stamp

def padded (width n : Nat) : String :=
  let digits := Text.numeral 10 n
  String.ofList (List.replicate (width - digits.length) '0' ++ digits)

/-- The year, month and day, counted from the first of January 1970. A year is taken to begin in
    March, so that a leap day is its last, and 146097 days make 400 years. -/
def date (day : Nat) : Nat × Nat × Nat :=
  let shifted := day + 719468
  let era := shifted / 146097
  let ofEra := shifted % 146097
  let year := (ofEra - ofEra / 1460 + ofEra / 36524 - ofEra / 146096) / 365
  let ofYear := ofEra - (365 * year + year / 4 - year / 100)
  let month := (5 * ofYear + 2) / 153
  let ofMonth := ofYear - (153 * month + 2) / 5
  (year + era * 400 + (if month < 10 then 0 else 1),
    if month < 10 then month + 3 else month - 9, ofMonth + 1)

def ofMicroseconds (n : Nat) : String :=
  let seconds := n / 1000000
  let (year, month, day) := date (seconds / 86400)
  let ofDay := seconds % 86400
  padded 4 year ++ "-" ++ padded 2 month ++ "-" ++ padded 2 day ++ "T" ++
    padded 2 (ofDay / 3600) ++ ":" ++ padded 2 (ofDay / 60 % 60) ++ ":" ++ padded 2 (ofDay % 60) ++
    "." ++ padded 6 (n % 1000000) ++ "Z"

end Reckoner.Stamp
