import BridgeOperator.Time.Instant
import BridgeOperator.Text.WhiteSpace

/-!
Reading instants: RFC 3339 to the letter, a relaxed form of it for status fields, and the lenient
date and time without an offset that a sunset may also be written as. Every reader takes a prefix
of the text and hands on the rest.
-/

namespace BridgeOperator.Instant

abbrev Reader (α : Type) := List Char → Option (α × List Char)

def digitsToNat (ds : List Char) : Nat := ds.foldl (fun n c => 10 * n + (c.toNat - '0'.toNat)) 0

/-- Between `low` and `high` digits, as many as there are. -/
def number (low high : Nat) : Reader Nat := fun s =>
  let ds := (s.take high).takeWhile Char.isDigit
  if ds.length < low then none else some (digitsToNat ds, s.drop ds.length)

def literal (c : Char) : Reader Unit
  | d :: rest => if c = d then some ((), rest) else none
  | [] => none

/-- One of the letters `T`, `t` and the space. -/
def dateTimeMark : Reader Unit
  | c :: rest => if c = 'T' ∨ c = 't' ∨ c = ' ' then some ((), rest) else none
  | [] => none

/-- A fraction counts to nine digits; further ones are dropped. -/
def fraction : Reader Nat
  | '.' :: rest =>
    (number 1 9 rest).map fun (v, tail) =>
      let used := rest.length - tail.length
      (v * Nat.pow 10 (9 - used), tail.dropWhile Char.isDigit)
  | s => some (0, s)

/-- `Z`, or a sign with two digits of hours and two of minutes; the offset in seconds. -/
def offset (separator : Reader Unit) : Reader Int
  | [] => none
  | c :: rest =>
    if c = 'Z' ∨ c = 'z' then some (0, rest)
    else if c = '+' ∨ c = '-' ∨ c = '\u2212' then do
      let (hours, s) ← number 2 2 rest
      let (_, s) ← separator s
      let (minutes, s) ← number 2 2 s
      if 59 < minutes then none
      let seconds : Int := (hours * 3600 + minutes * 60 : Nat)
      some (if c = '+' then seconds else -seconds, s)
    else none

/-- The time that was read as local time at an offset, in UTC. -/
def atOffset (t : Instant) (seconds : Int) : Option Instant :=
  let utc := t.shiftSeconds (-seconds)
  if first.notAfter utc && utc.notAfter last then some utc else none

/-- An offset stays below a day. -/
def maxOffset : Int := (23 * 60 + 59) * 60

/-- RFC 3339 with fixed widths. -/
def parseStrict? (text : List Char) : Option Instant := do
  let (year, s) ← number 4 4 text
  let (_, s) ← literal '-' s
  let (month, s) ← number 2 2 s
  let (_, s) ← literal '-' s
  let (day, s) ← number 2 2 s
  let (_, s) ← dateTimeMark s
  let (hour, s) ← number 2 2 s
  let (_, s) ← literal ':' s
  let (minute, s) ← number 2 2 s
  let (_, s) ← literal ':' s
  let (second, s) ← number 2 2 s
  let (nanos, s) ← fraction s
  let (shift, s) ← offset (literal ':') s
  if maxOffset < shift ∨ shift < -maxOffset then none
  if !s.isEmpty then none
  (ofCivil? year month day hour minute second nanos).bind (atOffset · shift)

/-- A year may carry a sign, and then has any number of digits. -/
def lenientYear : Reader Int := fun s =>
  match Text.trimStart s with
  | '-' :: rest => (number 1 rest.length rest).map fun (v, t) => (-(v : Int), t)
  | '+' :: rest => (number 1 rest.length rest).map fun (v, t) => ((v : Int), t)
  | rest => (number 1 4 rest).map fun (v, t) => ((v : Int), t)

/-- Blanks, then one or two digits. -/
def lenientField : Reader Nat := fun s => number 1 2 (Text.trimStart s)

def blanks : Reader Unit := fun s => some ((), Text.trimStart s)

def colonOrBlanks : Reader Unit := fun s =>
  some ((), s.dropWhile (fun c => c = ':' || Text.isBlank c))

/-- The letters `UTC` in any case, or an offset. -/
def relaxedOffset (s : List Char) : Option (Int × List Char) :=
  if (s.take 3).map Char.toLower = ['u', 't', 'c'] then some (0, s.drop 3)
  else offset colonOrBlanks s

/-- The form in which timestamps inside objects are read. -/
def parseRelaxed? (text : List Char) : Option Instant := do
  let (year, s) ← lenientYear text
  let (_, s) ← blanks s
  let (_, s) ← literal '-' s
  let (month, s) ← lenientField s
  let (_, s) ← blanks s
  let (_, s) ← literal '-' s
  let (day, s) ← lenientField s
  let (_, s) ← dateTimeMark s
  let (hour, s) ← lenientField s
  let (_, s) ← blanks s
  let (_, s) ← literal ':' s
  let (minute, s) ← lenientField s
  let (_, s) ← blanks s
  let (_, s) ← literal ':' s
  let (second, s) ← lenientField s
  let (nanos, s) ← fraction s
  let (_, s) ← blanks s
  let (shift, s) ← relaxedOffset s
  if !(Text.trimStart s).isEmpty then none
  if 86400 ≤ shift ∨ shift ≤ -86400 then none
  (ofCivil? year month day hour minute second nanos).bind (atOffset · shift)

/-- Year, month and day up to and including the letter `T`, then hour and minute. -/
def lenientMinutes (s : List Char) : Option ((Int × Nat × Nat × Nat × Nat) × List Char) := do
  let (year, s) ← lenientYear s
  let (_, s) ← literal '-' s
  let (month, s) ← lenientField s
  let (_, s) ← literal '-' s
  let (day, s) ← lenientField s
  let (_, s) ← literal 'T' s
  let (hour, s) ← lenientField s
  let (_, s) ← literal ':' s
  let (minute, s) ← lenientField s
  some ((year, month, day, hour, minute), s)

/-- Date and time with seconds. -/
def parseSeconds? (text : List Char) : Option Instant := do
  let ((year, month, day, hour, minute), s) ← lenientMinutes text
  let (_, s) ← literal ':' s
  let (second, s) ← lenientField s
  let (nanos, s) ← fraction s
  if s.isEmpty then ofCivil? year month day hour minute second nanos else none

/-- Date and time to the minute. -/
def parseMinutes? (text : List Char) : Option Instant := do
  let ((year, month, day, hour, minute), s) ← lenientMinutes text
  if s.isEmpty then ofCivil? year month day hour minute 0 0 else none

def dropTrailingZ (s : List Char) : List Char := (s.reverse.dropWhile (· = 'Z')).reverse

/-- The first space becomes the letter `T`. -/
def markFirstSpace : List Char → List Char
  | [] => []
  | c :: rest => if c = ' ' then 'T' :: rest else c :: markFirstSpace rest

/-- A sunset: RFC 3339, or else date and time in UTC with trailing `Z`s ignored. -/
def parseSunset? (raw : String) : Option Instant :=
  let text := Text.trim raw.toList
  if text.isEmpty then none
  else
    let naive := markFirstSpace (dropTrailingZ text)
    ((parseStrict? text).or (parseSeconds? naive)).or (parseMinutes? naive)

/-- A timestamp field of an object. -/
def parse? (raw : String) : Option Instant := parseRelaxed? raw.toList

end BridgeOperator.Instant
