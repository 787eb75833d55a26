/-!
# Time stamps

The time at which a line is logged, as a date and a time of day with milliseconds.
Times are counted in seconds from the start of 1970, dates are those of the
Gregorian calendar, and the time of day is universal time.
-/

namespace KeyAudit.Time

/-- A day of the calendar. -/
structure Date where
  year : Nat
  month : Nat
  day : Nat
deriving Repr, DecidableEq

/-- The number of days in four centuries. -/
def eraDays : Nat := 146097

/-- The number of days from the first of March of year zero to the start of 1970. -/
def epochDays : Nat := 719468

/-- The date that lies a number of days after the start of 1970. Years are counted
    from March, so that the leap day comes last. -/
def dateOf (days : Nat) : Date :=
  let era := (days + epochDays) / eraDays
  let day := (days + epochDays) % eraDays
  let year := (day - day / 1460 + day / 36524 - day / 146096) / 365
  let day := day - (365 * year + year / 4 - year / 100)
  let month := (5 * day + 2) / 153
  let year := 400 * era + year
  let day := day - (153 * month + 2) / 5 + 1
  if month < 10 then ⟨year, month + 3, day⟩ else ⟨year + 1, month - 9, day⟩

/-- A number with at least `width` digits. -/
def padded (width n : Nat) : String :=
  let digits := toString n
  String.ofList (List.replicate (width - digits.length) '0') ++ digits

/-- The time stamp of a time. -/
def stamp (seconds milliseconds : Nat) : String :=
  let date := dateOf (seconds / 86400)
  let ofDay := seconds % 86400
  padded 4 date.year ++ "-" ++ padded 2 date.month ++ "-" ++ padded 2 date.day ++ " " ++
    padded 2 (ofDay / 3600) ++ ":" ++ padded 2 (ofDay / 60 % 60) ++ ":" ++ padded 2 (ofDay % 60) ++
    "," ++ padded 3 milliseconds

end KeyAudit.Time
