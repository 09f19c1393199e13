import Workflow.Document
import Workflow.Number.Literal
import Workflow.Text.Hex
import Workflow.Yaml.Basic

/-!
# Dates

A plain scalar may be a date, alone or with a time of day, and that with the distance of a zone from
universal time. Of a fraction of a second six digits count.
-/

namespace Workflow.Yaml

/-- The values of the digits of a text, of any base up to 16; other characters are passed over. -/
def digitsOf (cs : List Char) : List Nat :=
  cs.filterMap Text.hexValue?

/-- Takes as many digits as there are, within bounds. -/
def takeDigits (low high : Nat) (cs : List Char) : Option (Nat × List Char) :=
  let digits := (cs.take high).takeWhile Char.isDigit
  if digits.length < low then none
  else some (Text.digitsValue (digitsOf digits), cs.drop digits.length)

/-- Takes a given character. -/
def takeChar (c : Char) : List Char → Option (List Char)
  | d :: rest => if c = d then some rest else none
  | [] => none

/-- Takes three numbers with a character between them. -/
def takeThree (between : Char) (first second third : Nat × Nat) (cs : List Char) :
    Option ((Nat × Nat × Nat) × List Char) := do
  let (a, cs) ← takeDigits first.1 first.2 cs
  let cs ← takeChar between cs
  let (b, cs) ← takeDigits second.1 second.2 cs
  let cs ← takeChar between cs
  let (c, cs) ← takeDigits third.1 third.2 cs
  some ((a, b, c), cs)

/-! ### Days -/

/-- How many days a month has. -/
def daysIn (year month : Nat) : Nat :=
  if month = 2 then
    if year % 4 = 0 && (year % 100 ≠ 0 || year % 400 = 0) then 29 else 28
  else if [4, 6, 9, 11].contains month then 30
  else 31

/-- How many days have passed since the beginning of the first year when a day begins. -/
def dayNumber (year month day : Nat) : Nat :=
  let years := year - 1
  let months := (List.range (month - 1)).map fun m => daysIn year (m + 1)
  365 * years + years / 4 - years / 100 + years / 400 + months.foldl (· + ·) 0 + (day - 1)

/-- What is wrong with a date, if anything is. -/
def dateFault? (year month day : Nat) : Option Fault :=
  if year = 0 then some (.noSuchYear year)
  else if month = 0 || 12 < month then some (.outOfRange "month" 1 12)
  else if day = 0 || daysIn year month < day then some .noSuchDay
  else none

/-- A date without a time of day. -/
def momentOfDate (year month day : Nat) : Except Fault Moment :=
  match dateFault? year month day with
  | some fault => .error fault
  | none =>
    .ok {
      timed := false
      zoned := false
      instant := dayNumber year month day * 86400000000
      shown := "datetime.date(" ++ ", ".intercalate ([year, month, day].map toString) ++ ")" }

/-! ### Times of day -/

/-- A time of day. -/
structure DayTime where
  hour : Nat
  minute : Nat
  second : Nat
  microsecond : Nat := 0

/-- What is wrong with a time of day, if anything is. -/
def DayTime.fault? (t : DayTime) : Option Fault :=
  if 23 < t.hour then some (.outOfRange "hour" 0 23)
  else if 59 < t.minute then some (.outOfRange "minute" 0 59)
  else if 59 < t.second then some (.outOfRange "second" 0 59)
  else none

/-- The microseconds of a time of day. -/
def DayTime.microseconds (t : DayTime) : Nat :=
  ((60 * t.hour + t.minute) * 60 + t.second) * 1000000 + t.microsecond

/-- The parts of a time of day as they are listed: zeros at the end are left out. -/
def DayTime.listed (t : DayTime) : List Nat :=
  [t.hour, t.minute] ++
    if t.microsecond ≠ 0 then [t.second, t.microsecond]
    else if t.second ≠ 0 then [t.second]
    else []

/-- What is wrong with the distance of a zone in seconds, if anything is. -/
def zoneFault? (zone? : Option Int) : Option Fault :=
  match zone? with
  | some seconds => if 86400 ≤ seconds.natAbs then some (.farZone seconds) else none
  | none => none

/-- The zone of a point in time as it is listed. -/
def zoneText : Option Int → String
  | none => ""
  | some 0 => ", tzinfo=datetime.timezone.utc"
  | some seconds => ", tzinfo=datetime.timezone(" ++ spanText seconds ++ ")"

/-- A point in time, with the distance of its zone from universal time in seconds if it is known. -/
def momentOfTime (year month day : Nat) (t : DayTime) (zone? : Option Int) :
    Except Fault Moment :=
  match zoneFault? zone? <|> dateFault? year month day <|> t.fault? with
  | some fault => .error fault
  | none =>
    .ok {
      timed := true
      zoned := zone?.isSome
      instant := dayNumber year month day * 86400000000 + t.microseconds
        - zone?.getD 0 * 1000000
      shown := "datetime.datetime("
        ++ ", ".intercalate (([year, month, day] ++ t.listed).map toString) ++ zoneText zone?
        ++ ")" }

/-! ### Reading -/

/-- The distance of a zone in seconds after its sign: hours, and minutes after a colon. -/
def zoneDistance? (cs : List Char) : Option Int :=
  match takeDigits 1 2 cs with
  | some (hours, []) => some (3600 * hours)
  | some (hours, ':' :: minutes) =>
    match takeDigits 2 2 minutes with
    | some (minutes, []) => some (3600 * hours + 60 * minutes)
    | _ => none
  | _ => none

/-- The zone that ends a point in time, which may be missing. -/
def zone? (cs : List Char) : Option (Option Int) :=
  match cs.dropWhile isSpace with
  | [] => if cs.isEmpty then some none else none
  | ['Z'] => some (some 0)
  | '+' :: rest => (zoneDistance? rest).map some
  | '-' :: rest => (zoneDistance? rest).map fun seconds => some (-seconds)
  | _ => none

/-- Takes the blanks or the letter between a date and a time of day. -/
def takeDateGap : List Char → Option (List Char)
  | 'T' :: rest | 't' :: rest => some rest
  | cs => if cs.head?.any isSpace then some (cs.dropWhile isSpace) else none

/-- Takes the fraction of a second, in microseconds. -/
def takeMicroseconds : List Char → Nat × List Char
  | '.' :: rest =>
    let digits := (digitsOf (rest.takeWhile Char.isDigit)).take 6
    (Text.digitsValue (digits ++ List.replicate (6 - digits.length) 0), rest.dropWhile Char.isDigit)
  | cs => (0, cs)

/-- The date that a text writes, with or without a time of day, if it writes one. -/
def moment? (cs : List Char) : Option (Except Fault Moment) :=
  match takeThree '-' (4, 4) (2, 2) (2, 2) cs with
  | some ((year, month, day), []) => some (momentOfDate year month day)
  | _ => do
    let ((year, month, day), rest) ← takeThree '-' (4, 4) (1, 2) (1, 2) cs
    let rest ← takeDateGap rest
    let ((hour, minute, second), rest) ← takeThree ':' (1, 2) (2, 2) (2, 2) rest
    let (microsecond, rest) := takeMicroseconds rest
    let zone? ← zone? rest
    some (momentOfTime year month day ⟨hour, minute, second, microsecond⟩ zone?)

end Workflow.Yaml
