import Flowscript.Text.Blank
import Flowscript.Number.Decimal

/-!
# Timestamps in text

The four ways in which a text can be a point in time: the internet formats of RFC 3339 and
RFC 2822, and a date with or without a time of day whose numbers may be short. Only real dates of
the Gregorian calendar count. All readers work on a list of characters and return what is left.
-/

namespace Flowscript.Timestamp

/-! ## Pieces -/

/-- Between `least` and `most` digits, as many as there are. -/
def number? (least most : Nat) (cs : List Char) : Option (Nat × List Char) :=
  let digits := (cs.takeWhile Char.isDigit).take most
  if digits.length < least then none
  else some (Decimal.digitsValue digits, cs.drop digits.length)

/-- One given character. -/
def char? (c : Char) : List Char → Option (List Char)
  | [] => none
  | d :: rest => if d = c then some rest else none

/-- White space, at least one character. -/
def space? (cs : List Char) : Option (List Char) :=
  let rest := Text.trimStart cs
  if rest.length < cs.length then some rest else none

/-- A fraction of a second, if a point follows: at least one digit. -/
def fraction? : List Char → Option (List Char)
  | '.' :: rest =>
    let digits := rest.takeWhile Char.isDigit
    if digits.isEmpty then none else some (rest.drop digits.length)
  | cs => some cs

/-- The place of a three-letter name in a list, in any case. -/
def name? (names : List String) : List Char → Option (Nat × List Char)
  | a :: b :: c :: rest =>
    (names.findIdx? fun name => name.toList = [a.toLower, b.toLower, c.toLower]).map (·, rest)
  | _ => none

/-! ## Calendar -/

/-- Whether a year has a leap day. -/
def isLeap (year : Int) : Bool := year % 4 = 0 && (year % 100 ≠ 0 || year % 400 = 0)

/-- The days of each month of a year. -/
def monthLengths (year : Int) : List Nat :=
  [31, if isLeap year then 29 else 28, 31, 30, 31, 30, 31, 31, 30, 31, 30, 31]

/-- The years for which dates are kept. -/
def yearInRange (year : Int) : Bool := -262143 ≤ year && year ≤ 262142

/-- Whether year, month and day name a day. -/
def isDate (year : Int) (month day : Nat) : Bool :=
  yearInRange year && 1 ≤ month && month ≤ 12 && 1 ≤ day &&
    day ≤ (monthLengths year).getD (month - 1) 0

/-- Whether hour, minute and second name a time of day; a leap second counts. -/
def isTime (hour minute second : Nat) : Bool := hour ≤ 23 && minute ≤ 59 && second ≤ 60

/-- The day of the week, from zero for Monday. -/
def weekday (year : Int) (month day : Nat) : Int :=
  let before := year - 1
  let yearStart := 365 * before + before / 4 - before / 100 + before / 400
  let dayOfYear := ((monthLengths year).take (month - 1)).foldl (· + ·) 0 + day
  (yearStart + dayOfYear - 1) % 7

/-! ## The internet formats -/

/-- Two digits each for hours and minutes behind a sign, as seconds. -/
def offset? (minus colon : Bool) : List Char → Option (Int × List Char)
  | [] => none
  | sign :: rest => do
    let negative ←
      if sign = '+' then some false
      else if sign = '-' || (minus && sign = Char.ofNat 0x2212) then some true
      else none
    let (hours, rest) ← number? 2 2 rest
    let rest ← if colon then char? ':' rest else some rest
    let (minutes, rest) ← number? 2 2 rest
    if 59 < minutes || 23 < hours then none
    else
      let seconds : Int := hours * 3600 + minutes * 60
      some (if negative then -seconds else seconds, rest)

/-- RFC 3339, such as `2024-03-01T12:00:00.5Z`. -/
def isInternetDateTime (cs : List Char) : Bool :=
  Option.isSome do
    let (year, cs) ← number? 4 4 cs
    let cs ← char? '-' cs
    let (month, cs) ← number? 2 2 cs
    let cs ← char? '-' cs
    let (day, cs) ← number? 2 2 cs
    let cs ← char? 'T' cs <|> char? 't' cs <|> char? ' ' cs
    let (hour, cs) ← number? 2 2 cs
    let cs ← char? ':' cs
    let (minute, cs) ← number? 2 2 cs
    let cs ← char? ':' cs
    let (second, cs) ← number? 2 2 cs
    let cs ← fraction? cs
    let cs ← char? 'Z' cs <|> char? 'z' cs <|> (offset? true true cs).map Prod.snd
    guard (cs.isEmpty && isDate year month day && isTime hour minute second)

/-- The names of the days, in lower case. -/
def dayNames : List String := ["mon", "tue", "wed", "thu", "fri", "sat", "sun"]

/-- The names of the months, in lower case. -/
def monthNames : List String :=
  ["jan", "feb", "mar", "apr", "may", "jun", "jul", "aug", "sep", "oct", "nov", "dec"]

/-- Hours from Greenwich of the zones that have a name. A single letter other than J names a zone
of unknown offset, which counts as Greenwich. -/
def zoneHours? (name : List Char) : Option Int :=
  match String.ofList (name.map Char.toLower) with
  | "gmt" | "ut" | "z" => some 0
  | "edt" => some (-4)
  | "est" | "cdt" => some (-5)
  | "cst" | "mdt" => some (-6)
  | "mst" | "pdt" => some (-7)
  | "pst" => some (-8)
  | lower => if name.length = 1 && lower ≠ "j" then some 0 else none

/-- A zone by name, or as a sign and four digits. -/
def zone? (cs : List Char) : Option (Int × List Char) :=
  let name := cs.takeWhile Char.isAlpha
  if name.isEmpty then offset? false false cs
  else (zoneHours? name).map fun hours => (hours * 3600, cs.drop name.length)

/-- A comment up to its closing parenthesis, inside `depth` open ones. A backslash takes the next
character as it is. -/
def commentEnd? : (depth : Nat) → List Char → Option (List Char)
  | _, [] => none
  | depth, '\\' :: rest =>
    match rest with
    | [] => none
    | _ :: rest => commentEnd? depth rest
  | depth, '(' :: rest => commentEnd? (depth + 1) rest
  | depth, ')' :: rest => if depth ≤ 1 then some rest else commentEnd? (depth - 1) rest
  | depth, _ :: rest => commentEnd? depth rest

theorem commentEnd?_length {depth : Nat} {cs rest : List Char}
    (h : commentEnd? depth cs = some rest) :
    rest.length < cs.length := by
  fun_induction commentEnd? depth cs <;> grind

/-- Whether nothing but comments is left, each with white space in front or without. -/
def isComments (cs : List Char) : Bool :=
  if cs.isEmpty then true
  else
    match hs : Text.trimStart cs with
    | '(' :: rest =>
      match hr : commentEnd? 1 rest with
      | some left =>
        have : left.length < cs.length := by
          have h₁ := commentEnd?_length hr
          have h₂ : (Text.trimStart cs).length ≤ cs.length := (List.dropWhile_suffix _).length_le
          rw [hs, List.length_cons] at h₂
          omega
        isComments left
      | none => false
    | _ => false
termination_by cs.length

/-- A year of two digits lies between 1950 and 2049, one of three digits counts from 1900. -/
def fullYear (digits year : Nat) : Nat :=
  if digits = 2 then (if year < 50 then year + 2000 else year + 1900)
  else if digits = 3 then year + 1900
  else year

/-- Whether a point in time on the last day that is kept is still kept when counted from
Greenwich. -/
def isKeptAtGreenwich (year : Int) (month day hour minute second : Nat) (offset : Int) : Bool :=
  if year = 262142 && month = 12 && day = 31 then
    (hour * 3600 + minute * 60 + min second 59 : Int) - offset < 86400
  else true

/-- RFC 2822, such as `Fri, 1 Mar 2024 12:00:00 +0000`. -/
def isMailDateTime (cs : List Char) : Bool :=
  Option.isSome do
    let cs := Text.trimStart cs
    let (dayName, cs) ←
      match name? dayNames cs with
      | some (i, rest) => (char? ',' rest).map (some i, ·)
      | none => some (none, cs)
    let (day, cs) ← number? 1 2 (Text.trimStart cs)
    let cs ← space? cs
    let (month, cs) ← name? monthNames cs
    let cs ← space? cs
    let (written, rest) ← number? 2 cs.length cs
    let year : Int := fullYear (cs.length - rest.length) written
    let cs ← space? rest
    let (hour, cs) ← number? 2 2 cs
    let cs ← char? ':' (Text.trimStart cs)
    let (minute, cs) ← number? 2 2 (Text.trimStart cs)
    let (second, cs) ←
      match char? ':' (Text.trimStart cs) with
      | some rest => number? 2 2 rest
      | none => some (0, cs)
    let cs ← space? cs
    let (offset, cs) ← zone? cs
    guard (isComments cs && isDate year (month + 1) day && isTime hour minute second)
    guard (isKeptAtGreenwich year (month + 1) day hour minute second offset)
    match dayName with
    | some i => guard (weekday year (month + 1) day = i)
    | none => some ()

/-! ## Dates with short numbers -/

/-- A year behind optional white space: up to four digits, or a sign and any number of them. -/
def shortYear? (cs : List Char) : Option (Int × List Char) :=
  match Text.trimStart cs with
  | '-' :: rest => (number? 1 rest.length rest).map fun (n, rest) => (-(n : Int), rest)
  | '+' :: rest => (number? 1 rest.length rest).map fun (n, rest) => ((n : Int), rest)
  | rest => (number? 1 4 rest).map fun (n, rest) => ((n : Int), rest)

/-- One or two digits behind optional white space. -/
def shortNumber? (cs : List Char) : Option (Nat × List Char) := number? 1 2 (Text.trimStart cs)

/-- Year, month and day with hyphens between them, if they name a day. -/
def shortDate? (cs : List Char) : Option (List Char) := do
  let (year, cs) ← shortYear? cs
  let cs ← char? '-' cs
  let (month, cs) ← shortNumber? cs
  let cs ← char? '-' cs
  let (day, cs) ← shortNumber? cs
  guard (isDate year month day)
  return cs

/-- A date such as `2024-3-1`. -/
def isShortDate (cs : List Char) : Bool := shortDate? cs = some []

/-- A date and a time of day such as `2024-3-1T9:00:00.5`. -/
def isShortDateTime (cs : List Char) : Bool :=
  Option.isSome do
    let cs ← shortDate? cs
    let cs ← char? 'T' cs
    let (hour, cs) ← shortNumber? cs
    let cs ← char? ':' cs
    let (minute, cs) ← shortNumber? cs
    let cs ← char? ':' cs
    let (second, cs) ← shortNumber? cs
    let cs ← fraction? cs
    guard (cs.isEmpty && isTime hour minute second)

/-- Whether a text is a point in time in one of the four ways, white space around it apart. -/
def isTimestamp (text : String) : Bool :=
  let cs := Text.trim text.toList
  isInternetDateTime cs || isMailDateTime cs || isShortDateTime cs || isShortDate cs

end Flowscript.Timestamp
