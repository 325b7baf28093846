/-!
# Timestamps

Moments of the proleptic Gregorian calendar, counted in seconds from the start of 1970
in universal time. A leap second is the one before it with a second more in nanoseconds.
-/

namespace Uplift

structure Timestamp where
  seconds : Int
  nanos : Nat
  deriving DecidableEq, Repr, Inhabited

namespace Timestamp

/-- A moment so many milliseconds later. -/
def addMillis (t : Timestamp) (millis : Nat) : Timestamp :=
  let nanos := t.nanos + millis % 1000 * 1000000
  if nanos < 1000000000 then ⟨t.seconds + (millis / 1000 : Nat), nanos⟩
  else ⟨t.seconds + (millis / 1000 : Nat) + 1, nanos - 1000000000⟩

structure Date where
  year : Int
  month : Nat
  day : Nat
  deriving DecidableEq, Repr

/-- Days from the start of 1970 to a date; a year starts in March for the count. -/
def daysOfDate (d : Date) : Int :=
  let y := if d.month ≤ 2 then d.year - 1 else d.year
  let era := y.fdiv 400
  let yoe := y - era * 400
  let month := (d.month + 9) % 12
  let doy : Int := (153 * month + 2) / 5 + d.day - 1
  let doe := yoe * 365 + yoe / 4 - yoe / 100 + doy
  era * 146097 + doe - 719468

def dateOfDays (days : Int) : Date :=
  let z := days + 719468
  let era := z.fdiv 146097
  let doe := (z - era * 146097).toNat
  let yoe := (doe - doe / 1460 + doe / 36524 - doe / 146096) / 365
  let doy := doe - (365 * yoe + yoe / 4 - yoe / 100)
  let mp := (5 * doy + 2) / 153
  let month := if mp < 10 then mp + 3 else mp - 9
  let year : Int := yoe + era * 400
  { year := if month ≤ 2 then year + 1 else year
    month := month
    day := doy - (153 * mp + 2) / 5 + 1 }

def pad (width n : Nat) : String :=
  let digits := toString n
  String.ofList (List.replicate (width - digits.length) '0') ++ digits

/-- Nothing, or three, six or nine decimals of a second. -/
def fractionText (nanos : Nat) : String :=
  if nanos = 0 then ""
  else if nanos % 1000000 = 0 then "." ++ pad 3 (nanos / 1000000)
  else if nanos % 1000 = 0 then "." ++ pad 6 (nanos / 1000)
  else "." ++ pad 9 nanos

def yearText (year : Int) : String :=
  if 0 ≤ year ∧ year ≤ 9999 then pad 4 year.toNat
  else if year < 0 then "-" ++ pad 4 year.natAbs
  else "+" ++ pad 5 year.toNat

def dateTimeText (t : Timestamp) : String :=
  let days := t.seconds.fdiv 86400
  let second := (t.seconds - days * 86400).toNat
  let d := dateOfDays days
  let extra := if t.nanos ≥ 1000000000 then 1 else 0
  let clock := s!"{pad 2 (second / 3600)}:{pad 2 (second / 60 % 60)}:{pad 2 (second % 60 + extra)}"
  s!"{yearText d.year}-{pad 2 d.month}-{pad 2 d.day}T{clock}" ++
    fractionText (t.nanos % 1000000000)

/-- With the offset of universal time. -/
def offsetText (t : Timestamp) : String := t.dateTimeText ++ "+00:00"

/-- With the letter of universal time. -/
def zuluText (t : Timestamp) : String := t.dateTimeText ++ "Z"

/-- Hours, minutes, seconds and milliseconds of the day. -/
def clockText (t : Timestamp) : String :=
  let second := (t.seconds - t.seconds.fdiv 86400 * 86400).toNat
  let extra := if t.nanos ≥ 1000000000 then 1 else 0
  s!"{pad 2 (second / 3600)}:{pad 2 (second / 60 % 60)}:{pad 2 (second % 60 + extra)}" ++
    s!".{pad 3 (t.nanos % 1000000000 / 1000000)}"

def number? (cs : List Char) : Option Nat :=
  if ¬cs.isEmpty ∧ cs.all Char.isDigit then
    some (cs.foldl (fun n c => n * 10 + (c.toNat - '0'.toNat)) 0)
  else none

/-- Minutes east of universal time. -/
def offset? : List Char → Option Int
  | ['Z'] | ['z'] => some 0
  | [sign, h1, h2, ':', m1, m2] => do
    let hours ← number? [h1, h2]
    let minutes ← number? [m1, m2]
    if hours > 23 ∨ minutes > 59 then none
    else
      let total : Int := hours * 60 + minutes
      if sign = '+' then some total else if sign = '-' then some (-total) else none
  | _ => none

def daysInMonth (year : Int) (month : Nat) : Nat :=
  (daysOfDate ⟨if month = 12 then year + 1 else year, month % 12 + 1, 1⟩ -
    daysOfDate ⟨year, month, 1⟩).toNat

/-- Reads `YYYY-MM-DDThh:mm:ss`, a fraction if there is one, and an offset. -/
def parse? (text : String) : Option Timestamp :=
  match text.toList with
  | y1 :: y2 :: y3 :: y4 :: '-' :: mo1 :: mo2 :: '-' :: d1 :: d2 :: t :: h1 :: h2 :: ':' ::
      mi1 :: mi2 :: ':' :: s1 :: s2 :: rest => do
    if t ≠ 'T' ∧ t ≠ 't' ∧ t ≠ ' ' then none
    let year ← number? [y1, y2, y3, y4]
    let month ← number? [mo1, mo2]
    let day ← number? [d1, d2]
    let hour ← number? [h1, h2]
    let minute ← number? [mi1, mi2]
    let second ← number? [s1, s2]
    if month < 1 ∨ month > 12 ∨ day < 1 ∨ day > daysInMonth year month then none
    if hour > 23 ∨ minute > 59 ∨ second > 60 then none
    let (fraction, rest) ← match rest with
      | '.' :: rest =>
        let digits := rest.takeWhile Char.isDigit
        if digits.isEmpty then none
        else
          let nanos := (digits ++ List.replicate 9 '0').take 9
          (number? nanos).map (·, rest.dropWhile Char.isDigit)
      | rest => some (0, rest)
    let east ← offset? rest
    let clock : Int := hour * 3600 + minute * 60 + min second 59
    return {
      seconds := daysOfDate ⟨year, month, day⟩ * 86400 + clock - east * 60
      nanos := fraction + if second = 60 then 1000000000 else 0 }
  | _ => none

end Timestamp

end Uplift
