import Stencil.Calendar.Format
import Stencil.Number.Read
/-!
# Instants from text

Three formats are read: the internet format with a time and an offset, the format of mail headers
with its optional day of the week, comments and named zones, and a bare date.
-/
namespace Stencil.Calendar
open Stencil.Text Stencil.Number

/-- A reader of the start of a text: what it read and the rest. -/
abbrev Reader (α : Type) := List Char → Option (α × List Char)

/-- Between `least` and `most` digits, as many as there are. -/
def number (least most : Nat) : Reader Nat := fun cs =>
  let digits := (cs.take most).takeWhile Char.isDigit
  if digits.length < least then none
  else some (natOfDigits 10 digits, cs.drop digits.length)

/-- Any positive number of digits at least `least`. -/
def longNumber (least : Nat) : Reader Nat := fun cs =>
  let (digits, rest) := cs.span Char.isDigit
  if digits.length < least then none else some (natOfDigits 10 digits, rest)

/-- One given character. -/
def character (c : Char) : List Char → Option (List Char)
  | d :: cs => if c = d then some cs else none
  | [] => none

/-- The text without blanks at its start. -/
def skipBlanks (cs : List Char) : List Char :=
  cs.dropWhile isBlank

/-- At least one blank. -/
def blanks (cs : List Char) : Option (List Char) :=
  match cs with
  | c :: rest => if isBlank c then some (skipBlanks rest) else none
  | [] => none

/-- A name of three letters out of a list, in any case: its place in the list. -/
def shortName (names : List String) : Reader Nat
  | a :: b :: c :: rest =>
    let key := String.ofList ([a, b, c].map Char.toLower)
    (names.findIdx? fun name => name.map Char.toLower == key).map (·, rest)
  | _ => none

/-- An offset from universal time in seconds: a sign, hours and minutes with an optional colon
between them. -/
def offset (colon minusSign : Bool) : Reader Int
  | sign :: cs => do
    let negative ←
      if sign = '+' then some false
      else if sign = '-' ∨ (minusSign ∧ sign = Char.ofNat 0x2212) then some true
      else none
    let (hours, cs) ← number 2 2 cs
    let cs ← if colon then character ':' cs else some cs
    let (minutes, cs) ← number 2 2 cs
    if 59 < minutes then none
    else
      let seconds : Int := hours * 3600 + minutes * 60
      some (if negative then -seconds else seconds, cs)
  | [] => none

/-- Date and time of day in a zone, as read. -/
structure Moment where
  date : Date
  hour : Nat
  minute : Nat
  /-- Sixty for a leap second. -/
  second : Nat
  nanos : Nat
  /-- The offset of the zone in seconds. -/
  zone : Int

/-- The instant of a moment, if the moment exists. -/
def Moment.instant? (m : Moment) : Option Instant :=
  if m.date.isValid && m.hour < 24 && m.minute < 60 && m.second ≤ 60 && m.zone.natAbs < 86400 then
    let (second, nanos) := if m.second = 60 then (59, m.nanos + 1000000000) else (m.second, m.nanos)
    Instant.bounded?
      ⟨daysToDate m.date * Instant.daySeconds
          + (m.hour * 3600 + m.minute * 60 + second : Nat) - m.zone,
        nanos⟩
  else none

/-- The part of a second behind a point, in nanoseconds; digits after the ninth do not count. -/
def fraction : Reader Nat := fun cs =>
  let (digits, rest) := cs.span Char.isDigit
  if digits.isEmpty then none
  else
    let kept := digits.take 9
    some (natOfDigits 10 kept * Nat.pow 10 (9 - kept.length), rest)

/-- The internet format: date, `T` or a blank, time, and `Z` or an offset. -/
def internet? (cs : List Char) : Option Instant := do
  let (year, cs) ← number 4 4 cs
  let cs ← character '-' cs
  let (month, cs) ← number 2 2 cs
  let cs ← character '-' cs
  let (day, cs) ← number 2 2 cs
  let cs ← match cs with
    | c :: cs => if c = 't' ∨ c = 'T' ∨ c = ' ' then some cs else none
    | [] => none
  let (hour, cs) ← number 2 2 cs
  let cs ← character ':' cs
  let (minute, cs) ← number 2 2 cs
  let cs ← character ':' cs
  let (second, cs) ← number 2 2 cs
  let (nanos, cs) ← match cs with
    | '.' :: cs => fraction cs
    | cs => some (0, cs)
  let (zone, cs) ← match cs with
    | 'Z' :: cs | 'z' :: cs => some ((0 : Int), cs)
    | cs => offset true true cs
  if cs.isEmpty then Moment.instant? ⟨⟨year, month, day⟩, hour, minute, second, nanos, zone⟩
  else none

/-- The hours of the zones that mail headers name. -/
def zoneHours? (name : String) : Option Int :=
  match name with
  | "gmt" | "ut" | "z" => some 0
  | "edt" => some (-4)
  | "est" | "cdt" => some (-5)
  | "cst" | "mdt" => some (-6)
  | "mst" | "pdt" => some (-7)
  | "pst" => some (-8)
  | name => if name.length = 1 ∧ name ≠ "j" then some 0 else none

/-- A zone of a mail header: a name or an offset without a colon. -/
def mailZone : Reader Int := fun cs =>
  let (name, rest) := cs.span Char.isAlpha
  if name.isEmpty then offset false false cs
  else (zoneHours? (String.ofList (name.map Char.toLower))).map fun hours => (hours * 3600, rest)

/-- Skips the rest of a comment that is `depth` parentheses deep; a backslash hides the character
after it. -/
def closeComment : Nat → List Char → Option (List Char)
  | 0, cs => some cs
  | _ + 1, [] => none
  | depth + 1, '\\' :: _ :: cs => closeComment (depth + 1) cs
  | depth + 1, '(' :: cs => closeComment (depth + 2) cs
  | depth + 1, ')' :: cs => closeComment depth cs
  | depth + 1, _ :: cs => closeComment (depth + 1) cs

/-- Whether nothing but comments is left; `fuel` bounds their number. -/
def onlyComments : Nat → List Char → Bool
  | 0, cs => cs.isEmpty
  | fuel + 1, cs =>
    cs.isEmpty ||
      match skipBlanks cs with
      | '(' :: rest => (closeComment 1 rest).elim false (onlyComments fuel)
      | _ => false

/-- The year of a mail header: two digits count from 1950 to 2049, three from 1900. -/
def mailYear (digits year : Nat) : Nat :=
  if digits = 2 then (if year < 50 then year + 2000 else year + 1900)
  else if digits = 3 then year + 1900
  else year

/-- The day of the week that a mail header starts with, if it does, and the rest; `none` if the name
is not followed by a comma. -/
def mailWeekday (cs : List Char) : Option (Option Nat × List Char) :=
  match shortName weekdayNames cs with
  | some (weekday, rest) => (character ',' rest).map (some weekday, ·)
  | none => some (none, cs)

/-- The format of mail headers. -/
def mail? (cs : List Char) : Option Instant := do
  let (weekday, cs) ← mailWeekday cs
  let (day, cs) ← number 1 2 (skipBlanks cs)
  let cs ← blanks cs
  let (month, cs) ← shortName monthNames cs
  let cs ← blanks cs
  let (year, rest) ← longNumber 2 cs
  let year := mailYear (cs.length - rest.length) year
  let cs ← blanks rest
  let (hour, cs) ← number 2 2 cs
  let cs ← character ':' (skipBlanks cs)
  let (minute, cs) ← number 2 2 (skipBlanks cs)
  let (second, cs) ← match character ':' (skipBlanks cs) with
    | some cs => number 2 2 cs
    | none => some (0, cs)
  let cs ← blanks cs
  let (zone, cs) ← mailZone cs
  let date : Date := ⟨year, month + 1, day⟩
  if onlyComments cs.length cs && weekday.all (· == weekdayOfDay (daysToDate date)) then
    Moment.instant? ⟨date, hour, minute, second, 0, zone⟩
  else none

/-- A year with an optional sign; without one it has at most four digits. -/
def signedYear : Reader Int
  | '-' :: cs => (longNumber 1 cs).map fun (n, rest) => (-(n : Int), rest)
  | '+' :: cs => (longNumber 1 cs).map fun (n, rest) => ((n : Int), rest)
  | cs => (number 1 4 cs).map fun (n, rest) => ((n : Int), rest)

/-- A bare date, which starts at midnight of universal time. -/
def bareDate? (cs : List Char) : Option Instant := do
  let (year, cs) ← signedYear (skipBlanks cs)
  let cs ← character '-' cs
  let (month, cs) ← number 1 2 (skipBlanks cs)
  let cs ← character '-' cs
  let (day, cs) ← number 1 2 (skipBlanks cs)
  if cs.isEmpty then Moment.instant? ⟨⟨year, month, day⟩, 0, 0, 0, 0, 0⟩ else none

/-- The instant that a text denotes in the first of the three formats that reads it. -/
def Instant.ofText? (s : String) : Option Instant :=
  let cs := trimBlanks s.toList
  internet? cs <|> mail? cs <|> bareDate? cs

end Stencil.Calendar
