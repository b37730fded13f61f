import RemoteModel.Text.Rune

/-!
Dates of the proleptic Gregorian calendar, counted from the first of January 1970.
-/

namespace RemoteModel

structure Moment where
  year : Int
  month : Nat
  day : Nat
  hour : Nat
  minute : Nat
  second : Nat
  /-- Days since Sunday. -/
  weekday : Nat
  deriving DecidableEq, Repr

namespace Moment

/-- Years are counted from March, so that the leap day ends a year; 400 of them have 146097 days. -/
def ofSeconds (seconds : Int) : Moment :=
  let days := seconds.fdiv 86400
  let rest := (seconds.fmod 86400).toNat
  let shifted := days + 719468
  let era := shifted.fdiv 146097
  let dayOfEra := (shifted.fmod 146097).toNat
  let yearOfEra := (dayOfEra - dayOfEra / 1460 + dayOfEra / 36524 - dayOfEra / 146096) / 365
  let dayOfYear := dayOfEra - (365 * yearOfEra + yearOfEra / 4 - yearOfEra / 100)
  let monthFromMarch := (5 * dayOfYear + 2) / 153
  let month := if monthFromMarch < 10 then monthFromMarch + 3 else monthFromMarch - 9
  { year := yearOfEra + era * 400 + (if month ≤ 2 then 1 else 0)
    month
    day := dayOfYear - (153 * monthFromMarch + 2) / 5 + 1
    hour := rest / 3600
    minute := rest % 3600 / 60
    second := rest % 60
    weekday := ((days + 4).fmod 7).toNat }

def daysOfDate (year : Int) (month day : Nat) : Int :=
  let year := if month ≤ 2 then year - 1 else year
  let era := year.fdiv 400
  let yearOfEra := (year.fmod 400).toNat
  let monthFromMarch := if 2 < month then month - 3 else month + 9
  let dayOfYear := (153 * monthFromMarch + 2) / 5 + day - 1
  let dayOfEra := yearOfEra * 365 + yearOfEra / 4 - yearOfEra / 100 + dayOfYear
  era * 146097 + (dayOfEra : Int) - 719468

def toSeconds (m : Moment) : Int :=
  daysOfDate m.year m.month m.day * 86400 + (m.hour * 3600 + m.minute * 60 + m.second : Nat)

def padded (width n : Nat) : Text :=
  let digits := Text.ofNat n
  List.replicate (width - digits.length) (.scalar '0') ++ digits

def yearText (m : Moment) : Text := if m.year < 0 then Text.ofInt m.year else padded 4 m.year.toNat

def dateText (separator : Text) (m : Moment) : Text :=
  m.yearText ++ separator ++ padded 2 m.month ++ separator ++ padded 2 m.day

def timeText (separator : Text) (m : Moment) : Text :=
  padded 2 m.hour ++ separator ++ padded 2 m.minute ++ separator ++ padded 2 m.second

/-- Date and time without separators, in the zone of the meridian. -/
def basicText (m : Moment) : Text := m.dateText "" ++ "T" ++ m.timeText "" ++ "Z"

/-- The digits of a text from a position on, as a number. -/
def digitsAt (t : Text) (start width : Nat) : Nat :=
  ((t.drop start).take width).foldl (fun n r => n * 10 + (r.code - 0x30)) 0

/-- Reads a basic text of a year of four digits; the weekday follows from the date. -/
def ofBasicText (t : Text) : Moment :=
  ofSeconds (toSeconds ⟨digitsAt t 0 4, digitsAt t 4 2, digitsAt t 6 2, digitsAt t 9 2,
    digitsAt t 11 2, digitsAt t 13 2, 0⟩)

def weekdayNames : List Text := ["Sun", "Mon", "Tue", "Wed", "Thu", "Fri", "Sat"]

def monthNames : List Text :=
  ["Jan", "Feb", "Mar", "Apr", "May", "Jun", "Jul", "Aug", "Sep", "Oct", "Nov", "Dec"]

/-- The date of a mail header without a known zone. -/
def mailText (m : Moment) : Text :=
  weekdayNames.getD m.weekday [] ++ ", " ++ padded 2 m.day ++ " "
    ++ monthNames.getD (m.month - 1) [] ++ " " ++ m.yearText ++ " " ++ timeText ":" m
    ++ " -0000"

end Moment

end RemoteModel
