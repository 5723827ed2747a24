import ModelInputs.Number.Read

/-!
# Dates and times

A moment is a date of the Gregorian calendar with a time of day and perhaps an offset from
universal time. The accepted texts are those of ISO 8601: a calendar date or a week date, with or
without dashes, then any one character, then a time with or without colons, a fraction of a second
and an offset.

* `DateTime`, `DateTime.isoText`;
* `daysInMonth`, `dayNumber`, `ofDayNumber`: the calendar;
* `readDate?`, `readClock?`, `DateTime.ofIso?`: reading.
-/

namespace ModelInputs

/-- A moment; the offset is in microseconds. -/
structure DateTime where
  year : Nat
  month : Nat
  day : Nat
  hour : Nat := 0
  minute : Nat := 0
  second : Nat := 0
  microsecond : Nat := 0
  offset : Option Int := none
deriving DecidableEq, Repr, Inhabited

namespace DateTime

open Number

/-! ## Writing -/

/-- The digits of a number, padded with zeros. -/
def padded (width n : Nat) : String :=
  let ds := natDigits n
  String.ofList (List.replicate (width - ds.length) '0' ++ ds)

/-- A fraction of a second, if there is one. -/
def fractionText (microsecond : Nat) : String :=
  if microsecond = 0 then "" else "." ++ padded 6 microsecond

/-- An offset with its sign; seconds are written only if there are any. -/
def offsetText (offset : Int) : String :=
  let n := offset.natAbs
  let seconds := n / 1000000
  let sign := if offset < 0 then "-" else "+"
  let short := sign ++ padded 2 (seconds / 3600) ++ ":" ++ padded 2 (seconds / 60 % 60)
  if n % 60000000 = 0 then short
  else short ++ ":" ++ padded 2 (seconds % 60) ++ fractionText (n % 1000000)

/-- The moment as text, with a separator between date and time. -/
def textWith (separator : String) (d : DateTime) : String :=
  padded 4 d.year ++ "-" ++ padded 2 d.month ++ "-" ++ padded 2 d.day ++ separator
    ++ padded 2 d.hour ++ ":" ++ padded 2 d.minute ++ ":" ++ padded 2 d.second
    ++ fractionText d.microsecond
    ++ match d.offset with | some offset => offsetText offset | none => ""

/-- The moment in ISO 8601. -/
def isoText (d : DateTime) : String :=
  d.textWith "T"

/-! ## The calendar -/

/-- A leap year. -/
def isLeap (year : Nat) : Bool :=
  year % 4 == 0 && (year % 100 != 0 || year % 400 == 0)

/-- The days of a month. -/
def daysInMonth (year month : Nat) : Nat :=
  if month = 2 then if isLeap year then 29 else 28
  else if [4, 6, 9, 11].contains month then 30
  else 31

/-- The days before a year, counted from the first day of year one. -/
def daysBeforeYear (year : Nat) : Nat :=
  let y := year - 1
  y * 365 + y / 4 - y / 100 + y / 400

/-- The days of a year before one of its months. -/
def daysBeforeMonth (year month : Nat) : Nat :=
  (List.range' 1 (month - 1)).foldl (fun days m => days + daysInMonth year m) 0

/-- The number of a day; the first day of year one has the number one. -/
def dayNumber (year month day : Nat) : Nat :=
  daysBeforeYear year + daysBeforeMonth year month + day

/-- The month and day of the day with that number in its year, counted from one; `months` are the
months that are left. -/
def monthAndDay (year n : Nat) : List Nat → Nat × Nat
  | [] => (13, n)
  | month :: months =>
    let size := daysInMonth year month
    if n ≤ size then (month, n) else monthAndDay year (n - size) months

/-- The date of the day with that number within a year or the year after it. -/
def dateInYear (year n : Nat) : Nat × Nat × Nat :=
  let size := if isLeap year then 366 else 365
  let (year, n) := if n ≤ size then (year, n) else (year + 1, n - size)
  let (month, day) := monthAndDay year n (List.range' 1 12)
  (year, month, day)

/-- The day of the week, zero for Monday. -/
def weekday (dayNumber : Nat) : Nat :=
  (dayNumber + 6) % 7

/-- The first year has a week 53 if it starts with a Thursday, or with a Wednesday in a leap
year. -/
def hasLongWeekYear (year : Nat) : Bool :=
  let first := weekday (dayNumber year 1 1)
  first == 3 || (first == 2 && isLeap year)

/-- The date of a day of a week. -/
def ofWeekDate? (year week day : Nat) : Option (Nat × Nat × Nat) := do
  guard (1 ≤ year ∧ 1 ≤ week ∧ (week ≤ 52 ∨ (week = 53 ∧ hasLongWeekYear year)))
  guard (1 ≤ day ∧ day ≤ 7)
  let jan1 := dayNumber year 1 1
  let w := weekday jan1
  -- the Monday of the first week, as a number of days behind the last day of the year before
  let monday : Int := if w ≤ 3 then 1 - (w : Int) else 8 - (w : Int)
  let n : Int := monday + 7 * (week - 1) + (day - 1)
  if 1 ≤ n then return dateInYear year n.toNat
  else
    guard (2 ≤ year)
    return (year - 1, 12, (31 + n).toNat)

/-! ## Reading -/

/-- The number of that many digits at the front, and the rest. -/
def readDigits? (count : Nat) (cs : List Char) : Option (Nat × List Char) :=
  let ds := cs.take count
  if ds.length = count ∧ ds.all isAsciiDigit then some (ofDigits ds, cs.drop count) else none

/-- The place of the character between date and time. -/
def separatorPlace? (cs : List Char) : Option Nat :=
  let size := cs.length
  if size < 7 then none
  else if size = 7 then some 7
  else if cs[4]? = some '-' then
    if cs[5]? = some 'W' then
      if cs[8]? = some '-' then
        if size = 9 then none
        else if (cs[10]?.any isAsciiDigit) then some 8
        else some 10
      else some 8
    else some 10
  else if cs[4]? = some 'W' then
    let stop := 7 + ((cs.drop 7).takeWhile isAsciiDigit).length
    if stop < 9 then some stop else if stop % 2 = 0 then some 7 else some 8
  else some 8

/-- A dash, where dashes are used. -/
def readDash? (dashed : Bool) (cs : List Char) : Option (List Char) :=
  if dashed then
    match cs with
    | '-' :: cs => some cs
    | _ => none
  else some cs

/-- The date that the first `size` characters write. -/
def readDate? (size : Nat) (cs : List Char) : Option (Nat × Nat × Nat) := do
  let (year, cs) ← readDigits? 4 cs
  let dashed := cs.head? == some '-'
  let cs := if dashed then cs.drop 1 else cs
  let used := if dashed then 5 else 4
  match cs with
  | 'W' :: cs => do
    let (week, cs) ← readDigits? 2 cs
    if used + 3 < size then
      let cs ← readDash? dashed cs
      let (day, _) ← readDigits? 1 cs
      ofWeekDate? year week day
    else ofWeekDate? year week 1
  | cs => do
    let (month, cs) ← readDigits? 2 cs
    let cs ← readDash? dashed cs
    let (day, _) ← readDigits? 2 cs
    return (year, month, day)

/-- A time of day. -/
structure Clock where
  hour : Nat := 0
  minute : Nat := 0
  second : Nat := 0
  microsecond : Nat := 0

/-- The microseconds of a fraction, and whether it is read to its end. -/
def readFraction? (cs : List Char) : Option (Nat × Bool) := do
  let width := min cs.length 6
  let (n, rest) ← readDigits? width cs
  return (n * 10 ^ (6 - width), (rest.dropWhile isAsciiDigit).isEmpty)

/-- The parts of a time of day, two digits each, of which `parts` are left; a part is followed by
the end, by the next part with or without a colon, or by a fraction. The flag tells whether the
time is read to its end; an ASCII character may be left behind a part. -/
def readParts? (colons : Option Bool) : (parts : Nat) → List Char → Option (List Nat × Nat × Bool)
  | 0, cs => (readFraction? cs).map fun (n, clean) => ([], n, clean)
  | parts + 1, cs => do
    let (n, cs) ← readDigits? 2 cs
    match cs with
    | [] => return ([n], 0, true)
    | [c] => if c.toNat < 128 then return ([n], 0, false) else none
    | c :: rest =>
      let colons := colons.getD (c == ':')
      if colons && c == ':' then
        let (ns, fraction, clean) ← readParts? (some colons) parts rest
        return (n :: ns, fraction, clean)
      else if c == '.' || c == ',' then
        let (fraction, clean) ← readFraction? rest
        return ([n], fraction, clean)
      else if colons then none
      else
        let (ns, fraction, clean) ← readParts? (some colons) parts (c :: rest)
        return (n :: ns, fraction, clean)

/-- A time of day, and whether it is read to its end. -/
def readClock? (cs : List Char) : Option (Clock × Bool) := do
  let (parts, fraction, clean) ← readParts? none 3 cs
  return (⟨parts.getD 0 0, parts.getD 1 0, parts.getD 2 0, fraction⟩, clean)

/-- A character that starts an offset. -/
def startsOffset (c : Char) : Bool :=
  c == '+' || c == '-' || c == 'Z'

/-- An offset, less than a day either way. An offset of no whole second is none at all. -/
def readOffset? : List Char → Option Int
  | ['Z'] => some 0
  | 'Z' :: _ => none
  | sign :: cs => do
    let (clock, clean) ← readClock? cs
    guard clean
    let seconds := clock.hour * 3600 + clock.minute * 60 + clock.second
    let n : Int := if seconds = 0 then 0 else seconds * 1000000 + clock.microsecond
    guard (n < 86400000000)
    return if sign = '-' then -n else n
  | [] => none

/-- A time of day with an optional offset. -/
def readTime? (cs : List Char) : Option (Clock × Option Int) := do
  let (clock, clean) ← readClock? (cs.takeWhile fun c => !startsOffset c)
  match cs.dropWhile fun c => !startsOffset c with
  | [] => if clean then return (clock, none) else none
  | offset => return (clock, some (← readOffset? offset))

/-- The parts lie in their ranges. -/
def isValid (d : DateTime) : Bool :=
  decide (1 ≤ d.year) && decide (d.year ≤ 9999) && decide (1 ≤ d.month) && decide (d.month ≤ 12)
    && decide (1 ≤ d.day) && decide (d.day ≤ daysInMonth d.year d.month)
    && decide (d.hour ≤ 23) && decide (d.minute ≤ 59) && decide (d.second ≤ 59)

/-- The moment that a text in ISO 8601 writes. -/
def ofIso? (s : String) : Option DateTime := do
  let cs := s.toList
  let place ← separatorPlace? cs
  let (year, month, day) ← readDate? place cs
  let (clock, offset) ←
    if place < cs.length then readTime? (cs.drop (place + 1)) else some ({}, none)
  let d : DateTime :=
    ⟨year, month, day, clock.hour, clock.minute, clock.second, clock.microsecond, offset⟩
  if d.isValid then return d else none

end DateTime

end ModelInputs
