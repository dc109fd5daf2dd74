/-
Module: SelectTree.Literal.Temporal
Purpose: reading the quoted text of a date, time or timestamp constant.
Main exports: Temporal.Problem, Temporal.Form, Temporal.read

A form is a sequence of items, read from left to right; the first item that fails decides what
is wrong.  Every number is checked against its own range at once, the calendar only when the
whole text is read.
-/
import SelectTree.Character.Class
import SelectTree.Literal

namespace SelectTree.Temporal

/-- What is wrong with the text. -/
inductive Problem where
  | tooShort
  | invalid
  | outOfRange
  | trailing
deriving Repr, Inhabited, DecidableEq

/-- The wording of a problem. -/
def Problem.message : Problem → String
  | .tooShort => "premature end of input"
  | .invalid => "input contains invalid characters"
  | .outOfRange => "input is out of range"
  | .trailing => "trailing input"

/-- The numbers of a date and a time. -/
inductive Component where
  | year | month | day | hour | minute | second
deriving Repr, Inhabited, DecidableEq

/-- The least and the greatest value of a component.  A minute may end with a leap second; the
year is a number of 32 bits. -/
def Component.range : Component → Int × Int
  | .year => (-0x80000000, 0x7FFFFFFF)
  | .month => (1, 12)
  | .day => (1, 31)
  | .hour => (0, 23)
  | .minute => (0, 59)
  | .second => (0, 60)

/-- One item of a form. -/
inductive Item where
  | number (component : Component)
  /-- Exactly this character. -/
  | separator (c : Char)
  /-- Any amount of white space, also none. -/
  | gap
  /-- A point and digits, or nothing. -/
  | fraction
deriving Repr, Inhabited, DecidableEq

/-- The constants that are written as a quoted text. -/
inductive Form where
  | date | time | timestamp
deriving Repr, Inhabited, DecidableEq

/-- Written `year-month-day`. -/
def dateItems : List Item :=
  [.number .year, .separator '-', .number .month, .separator '-', .number .day]

/-- Written `hour:minute:second` and perhaps a fraction of the second. -/
def timeItems : List Item :=
  [.number .hour, .separator ':', .number .minute, .separator ':', .number .second, .fraction]

/-- The items of a form. -/
def Form.items : Form → List Item
  | .date => dateItems
  | .time => timeItems
  | .timestamp => dateItems ++ .gap :: timeItems

/-- What has been read so far. -/
structure Fields where
  year : Int := 0
  month : Nat := 0
  day : Nat := 0
  hour : Nat := 0
  minute : Nat := 0
  second : Nat := 0
  nanosecond : Nat := 0
deriving Repr, Inhabited, DecidableEq

/-- Stores a component. -/
def Fields.store (fields : Fields) (component : Component) (value : Int) : Fields :=
  match component with
  | .year => { fields with year := value }
  | .month => { fields with month := value.toNat }
  | .day => { fields with day := value.toNat }
  | .hour => { fields with hour := value.toNat }
  | .minute => { fields with minute := value.toNat }
  | .second => { fields with second := value.toNat }

/-- The day that was read. -/
def Fields.date (fields : Fields) : Date :=
  { year := fields.year, month := fields.month, day := fields.day }

/-- Nanoseconds of a second. -/
def nanosecondsPerSecond : Nat :=
  1000000000

/-- The time that was read; second 60 is one second of nanoseconds into second 59. -/
def Fields.time (fields : Fields) : Time :=
  if fields.second = 60 then
    { hour := fields.hour, minute := fields.minute, second := 59,
      nanosecond := nanosecondsPerSecond + fields.nanosecond }
  else
    { hour := fields.hour, minute := fields.minute, second := fields.second,
      nanosecond := fields.nanosecond }

/-- A text without the white space at its front. -/
def trimFront (cs : List Char) : List Char :=
  cs.dropWhile Character.isBlank

/-- At least one digit and at most as many as the limit says.  Numbers past 63 bits are out of
range. -/
def readDigits (limit : Option Nat) (cs : List Char) :
    Except Problem (List Char × List Char) :=
  let run := cs.takeWhile Char.isDigit
  let digits := run.take (limit.getD run.length)
  if cs.isEmpty then .error .tooShort
  else if digits.isEmpty then .error .invalid
  else if Decimal.value digits < Decimal.wordLimit then .ok (digits, cs.drop digits.length)
  else .error .outOfRange

/-- A number behind optional white space.  A year has at most four digits, or a sign and any
number of digits; all other numbers have at most two. -/
def readNumber (component : Component) (cs : List Char) : Except Problem (Int × List Char) := do
  let cs := trimFront cs
  if component = .year then
    match cs with
    | '-' :: cs =>
        let (digits, rest) ← readDigits none cs
        return (-(Decimal.value digits : Int), rest)
    | '+' :: cs =>
        let (digits, rest) ← readDigits none cs
        return (Decimal.value digits, rest)
    | cs =>
        let (digits, rest) ← readDigits (some 4) cs
        return (Decimal.value digits, rest)
  else
    let (digits, rest) ← readDigits (some 2) cs
    return (Decimal.value digits, rest)

/-- The nanoseconds behind a point: the first nine digits count, further ones are passed
over. -/
def readFraction (cs : List Char) : Except Problem (Nat × List Char) := do
  let (digits, rest) ← readDigits (some 9) cs
  let padding := List.replicate (9 - digits.length) '0'
  return (Decimal.value (digits ++ padding), rest.dropWhile Char.isDigit)

/-- Reads one item. -/
def readItem (item : Item) (fields : Fields) (cs : List Char) :
    Except Problem (Fields × List Char) :=
  match item with
  | .number component => do
      let (value, rest) ← readNumber component cs
      if component.range.1 ≤ value ∧ value ≤ component.range.2 then
        return (fields.store component value, rest)
      throw .outOfRange
  | .separator expected =>
      match cs with
      | [] => .error .tooShort
      | c :: rest => if c = expected then .ok (fields, rest) else .error .invalid
  | .gap => .ok (fields, trimFront cs)
  | .fraction =>
      match cs with
      | '.' :: rest => do
          let (nanosecond, rest) ← readFraction rest
          return ({ fields with nanosecond }, rest)
      | cs => .ok (fields, cs)

/-- Reads items one after the other. -/
def readItems : List Item → Fields → List Char → Except Problem (Fields × List Char)
  | [], fields, cs => .ok (fields, cs)
  | item :: items, fields, cs => do
      let (fields, rest) ← readItem item fields cs
      readItems items fields rest

/-- The constant that a text of the given form stands for. -/
def read (form : Form) (text : String) : Except Problem Literal := do
  let (fields, rest) ← readItems form.items {} text.toList
  if !rest.isEmpty then throw .trailing
  match form with
  | .time => return .time fields.time
  | .date => if fields.date.exists? then return .date fields.date else throw .outOfRange
  | .timestamp =>
      if fields.date.exists? then return .timestamp fields.date fields.time
      else throw .outOfRange

end SelectTree.Temporal
