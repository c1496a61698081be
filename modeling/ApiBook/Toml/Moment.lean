import ApiBook.Text.Number

/-! # TOML dates and times

A moment is a date, a time of day, or both, and then possibly an offset. It is kept as its standard
text: a capital `T` and `Z`, at most nine digits of a second and no zeros at their end.
-/

namespace ApiBook.Toml

/-- A number of `n` digits from `low` to `high`, and the text behind it. -/
def digits? (n low high : Nat) (s : Text) : Option (Text × Text) :=
  let digits := s.take n
  let value := Text.numberOf 10 digits
  if digits.length = n ∧ digits.all Char.isDigit ∧ low ≤ value ∧ value ≤ high then
    some (digits, s.drop n)
  else none

def isLeapYear (year : Nat) : Bool :=
  year % 4 == 0 && (year % 100 != 0 || year % 400 == 0)

def monthDays (year month : Nat) : Nat :=
  if month = 2 then if isLeapYear year then 29 else 28
  else if month = 4 ∨ month = 6 ∨ month = 9 ∨ month = 11 then 30
  else 31

def date? (s : Text) : Option (Text × Text) := do
  let (year, '-' :: s) ← digits? 4 0 9999 s | none
  let (month, '-' :: s) ← digits? 2 1 12 s | none
  let (day, s) ← digits? 2 1 (monthDays (Text.numberOf 10 year) (Text.numberOf 10 month)) s
  return (year ++ "-" ++ month ++ "-" ++ day, s)

/-- The fraction of a second with its point, if there is one. -/
def splitFraction (s : Text) : Text × Text :=
  match s with
  | '.' :: r =>
    match r.takeWhile Char.isDigit with
    | [] => ([], s)
    | digits =>
      match Text.dropEndWhile (· == '0') (digits.take 9) with
      | [] => ([], r.dropWhile Char.isDigit)
      | digits => ('.' :: digits, r.dropWhile Char.isDigit)
  | _ => ([], s)

/-- A time of day. A minute may have a leap second. -/
def time? (s : Text) : Option (Text × Text) := do
  let (hour, ':' :: s) ← digits? 2 0 23 s | none
  let (minute, ':' :: s) ← digits? 2 0 59 s | none
  let (second, s) ← digits? 2 0 60 s
  let (fraction, s) := splitFraction s
  return (hour ++ ":" ++ minute ++ ":" ++ second ++ fraction, s)

/-- An offset in hours and minutes. None at all is written with a plus. -/
def offset? : Text → Option (Text × Text)
  | 'Z' :: s => some ("Z", s)
  | 'z' :: s => some ("Z", s)
  | sign :: s => do
    guard (sign = '+' ∨ sign = '-')
    let (hour, ':' :: s) ← digits? 2 0 23 s | none
    let (minute, s) ← digits? 2 0 59 s
    let sign := if Text.numberOf 10 (hour ++ minute) = 0 then '+' else sign
    return (sign :: hour ++ ":" ++ minute, s)
  | [] => none

def timeOfDate? : Text → Option (Text × Text)
  | c :: s => do
    guard (c = 'T' ∨ c = 't' ∨ c = ' ')
    let (time, s) ← time? s
    let (offset, s) := (offset? s).getD ([], s)
    return ('T' :: time ++ offset, s)
  | [] => none

def moment? (s : Text) : Option (Text × Text) :=
  match date? s with
  | some (date, s) =>
    let (time, s) := (timeOfDate? s).getD ([], s)
    some (date ++ time, s)
  | none => time? s

end ApiBook.Toml
