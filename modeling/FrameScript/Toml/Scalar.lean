import FrameScript.Decimal.Read
import FrameScript.Text.Hex
import FrameScript.Toml.Basic

set_option autoImplicit false

/-!
# TOML scalars

The scalars without quotes: truth values, numbers, dates and times. All are read from the run of
characters they are written with.

## Main definitions

* `TomlScalar.int?` — integers, in decimal with a sign, or with a mark of another base.
* `TomlScalar.float?` — floating point numbers.
* `TomlScalar.isMoment` — dates, times, and dates with times and offsets.
* `Toml.ofScalar?` — any of them.
-/

namespace FrameScript

namespace TomlScalar

/-! ## Numbers -/

/-- The value of a digit of a base up to sixteen. -/
def digit? (base : Nat) (c : Char) : Option Nat :=
  (hexValue? c).filter (· < base)

/-- The number that digits write behind those that wrote `n`; a single underscore may stand between
two digits. -/
def groupedFrom? (base n : Nat) : List Char → Option Nat
  | [] => some n
  | '_' :: c :: cs => (digit? base c).bind fun d => groupedFrom? base (base * n + d) cs
  | c :: cs => (digit? base c).bind fun d => groupedFrom? base (base * n + d) cs

/-- The number that digits of a base write, with underscores between them. -/
def grouped? (base : Nat) : List Char → Option Nat
  | [] => none
  | c :: cs => (digit? base c).bind fun d => groupedFrom? base d cs

/-- The number that decimal digits write without leading zeros. -/
def whole? : List Char → Option Nat
  | '0' :: _ :: _ => none
  | cs => grouped? 10 cs

/-- The sign in front of a number, as whether it is a minus, and what follows it. -/
def sign : List Char → Bool × List Char
  | '-' :: cs => (true, cs)
  | '+' :: cs => (false, cs)
  | cs => (false, cs)

/-- The integer that is written. Only decimal ones have a sign. -/
def int? : List Char → Option Int
  | '0' :: 'x' :: cs => (grouped? 16 cs).map Int.ofNat
  | '0' :: 'o' :: cs => (grouped? 8 cs).map Int.ofNat
  | '0' :: 'b' :: cs => (grouped? 2 cs).map Int.ofNat
  | cs =>
    let (negative, cs) := sign cs
    (whole? cs).map fun n => if negative then -Int.ofNat n else Int.ofNat n

/-- Whether an integer fits into 128 bits, with or without a sign. -/
def fits : Int → Bool
  | .ofNat n => n < Nat.pow 2 128
  | .negSucc n => n < Nat.pow 2 127

/-- Whether a letter marks an exponent. -/
def isExponentMark (c : Char) : Bool :=
  c == 'e' || c == 'E'

/-- Whether these are an exponent with its mark. -/
def isExponent : List Char → Bool
  | [] => false
  | c :: cs => isExponentMark c && (grouped? 10 (sign cs).2).isSome

/-- Whether these are what may follow the whole part of a floating point number: a fraction, an
exponent, or both. -/
def isFraction : List Char → Bool
  | '.' :: cs =>
    let (digits, rest) := cs.span (!isExponentMark ·)
    (grouped? 10 digits).isSome && (rest.isEmpty || isExponent rest)
  | cs => isExponent cs

/-- Whether these name infinity or the undefined number. -/
def isNamedFloat (cs : List Char) : Bool :=
  let unsigned := (sign cs).2
  unsigned == ['i', 'n', 'f'] || unsigned == ['n', 'a', 'n']

/-- The floating point number that is written. -/
def float? (cs : List Char) : Option Float :=
  let (whole, rest) := (sign cs).2.span fun c => c.isDigit || c == '_'
  if isNamedFloat cs || ((whole? whole).isSome && isFraction rest) then
    floatOfText? (String.ofList (cs.filter (· != '_')))
  else none

/-! ## Dates and times -/

/-- Reads two digits that write a number in a range. -/
def twoDigits? (low high : Nat) : List Char → Option (Nat × List Char)
  | a :: b :: cs =>
    match grouped? 10 [a, b] with
    | some n => if low ≤ n && n ≤ high then some (n, cs) else none
    | none => none
  | _ => none

/-- Whether a year has a leap day. -/
def isLeapYear (year : Nat) : Bool :=
  (year % 4 == 0 && year % 100 != 0) || year % 400 == 0

/-- How many days a month has. -/
def daysIn (year month : Nat) : Nat :=
  if month == 2 then if isLeapYear year then 29 else 28
  else if [4, 6, 9, 11].contains month then 30
  else 31

/-- Passes over a date. -/
def afterDate? : List Char → Option (List Char)
  | a :: b :: c :: d :: '-' :: cs => do
    let year ← if [a, b, c, d].contains '_' then none else grouped? 10 [a, b, c, d]
    let (month, cs) ← twoDigits? 1 12 cs
    match cs with
    | '-' :: cs => (twoDigits? 1 (daysIn year month) cs).map (·.2)
    | _ => none
  | _ => none

/-- Passes over the fraction of a second, if there is one. -/
def afterFraction? : List Char → Option (List Char)
  | '.' :: c :: cs => if c.isDigit then some (spanDigits cs).2 else none
  | '.' :: _ => none
  | cs => some cs

/-- Passes over a time of day. The seconds may be left out. -/
def afterTime? (cs : List Char) : Option (List Char) :=
  match twoDigits? 0 23 cs with
  | some (_, ':' :: cs) =>
    match twoDigits? 0 59 cs with
    | some (_, ':' :: cs) => (twoDigits? 0 60 cs).bind fun (_, cs) => afterFraction? cs
    | some (_, cs) => some cs
    | none => none
  | _ => none

/-- Whether these are an offset from universal time, or nothing. -/
def isOffset : List Char → Bool
  | [] => true
  | ['Z'] | ['z'] => true
  | c :: cs =>
    (c == '+' || c == '-') &&
      match twoDigits? 0 23 cs with
      | some (_, ':' :: cs) => (twoDigits? 0 59 cs).map (·.2) == some []
      | _ => false

/-- Whether these are a date, a time of day, or a date with a time of day. -/
def isMoment (cs : List Char) : Bool :=
  match afterDate? cs with
  | some [] => true
  | some (c :: cs) =>
    (c == 'T' || c == 't' || c == ' ') &&
      match afterTime? cs with
      | some cs => isOffset cs
      | none => false
  | none => afterTime? cs == some []

end TomlScalar

/-! ## Scalars -/

open TomlScalar in
/-- The scalar that is written without quotes. -/
def Toml.ofScalar? (cs : List Char) : Option Toml :=
  if cs == ['t', 'r', 'u', 'e'] then some (.bool true)
  else if cs == ['f', 'a', 'l', 's', 'e'] then some (.bool false)
  else if isMoment cs then some (.moment (String.ofList cs))
  else
    match int? cs with
    | some n => some (if fits n then .int n else .tooLarge)
    | none =>
      (float? cs).map fun x => if x.isInf && !isNamedFloat cs then .tooLarge else .float x

end FrameScript
