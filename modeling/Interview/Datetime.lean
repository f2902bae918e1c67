import Interview.Number.Integer

/-! Dates, times of day and moments. A value has a date, a time, or both; an offset needs both. -/

namespace Interview

structure Date where
  year : Nat
  month : Nat
  day : Nat
deriving DecidableEq

structure Time where
  hour : Nat
  minute : Nat
  second : Nat
  nanosecond : Nat
deriving DecidableEq

inductive Offset where
  | utc
  | minutes (n : Int)
deriving DecidableEq

structure Datetime where
  date : Option Date
  time : Option Time
  offset : Option Offset
deriving DecidableEq

open Number

/-- The one field of the mapping that stands for a moment in formats that have none. -/
def Datetime.field : String := "$__toml_private_datetime"

def isLeapYear (year : Nat) : Bool :=
  year % 4 == 0 && (year % 100 != 0 || year % 400 == 0)

def daysInMonth (year month : Nat) : Nat :=
  if month = 2 then (if isLeapYear year then 29 else 28)
  else if month = 4 ∨ month = 6 ∨ month = 9 ∨ month = 11 then 30
  else 31

def Date.isValid (d : Date) : Bool :=
  1 ≤ d.month && d.month ≤ 12 && 1 ≤ d.day && d.day ≤ daysInMonth d.year d.month

def Date.text (d : Date) : List Char :=
  padded 4 d.year ++ '-' :: padded 2 d.month ++ '-' :: padded 2 d.day

def Time.text (t : Time) : List Char :=
  let fraction :=
    if t.nanosecond = 0 then []
    else '.' :: ((padded 9 t.nanosecond).reverse.dropWhile (· == '0')).reverse
  padded 2 t.hour ++ ':' :: padded 2 t.minute ++ ':' :: padded 2 t.second ++ fraction

def Offset.text : Offset → List Char
  | .utc => ['Z']
  | .minutes n =>
    (if n < 0 then '-' else '+') :: padded 2 (n.natAbs / 60) ++ ':' :: padded 2 (n.natAbs % 60)

def Datetime.text (d : Datetime) : List Char :=
  let date := (d.date.map Date.text).getD []
  let time := (d.time.map Time.text).getD []
  let between := if d.date.isSome && d.time.isSome then ['T'] else []
  date ++ between ++ time ++ (d.offset.map Offset.text).getD []

def digits? (count : Nat) (cs : List Char) : Option (Nat × List Char) :=
  let ds := cs.take count
  if ds.length = count ∧ ds.all isDigit then some (ofDigits ds, cs.drop count) else none

def char? (c : Char) : List Char → Option (List Char)
  | d :: cs => if c = d then some cs else none
  | [] => none

def Date.read? (cs : List Char) : Option (Date × List Char) := do
  let (year, cs) ← digits? 4 cs
  let cs ← char? '-' cs
  let (month, cs) ← digits? 2 cs
  let cs ← char? '-' cs
  let (day, cs) ← digits? 2 cs
  let date : Date := ⟨year, month, day⟩
  if date.isValid then some (date, cs) else none

/-- The digits after a decimal point as billionths; further digits are dropped. -/
def billionths (ds : List Char) : Nat :=
  let kept := ds.take 9
  ofDigits kept * Nat.pow 10 (9 - kept.length)

/-- A time of day, with seconds, which may count a leap second, and an optional fraction. -/
def Time.read? (cs : List Char) : Option (Time × List Char) := do
  let (hour, cs) ← digits? 2 cs
  let cs ← char? ':' cs
  let (minute, cs) ← digits? 2 cs
  let cs ← char? ':' cs
  let (second, cs) ← digits? 2 cs
  let (fraction, cs) ←
    match cs with
    | '.' :: rest =>
      let ds := rest.takeWhile isDigit
      if ds.isEmpty then none else some (ds, rest.dropWhile isDigit)
    | _ => some ([], cs)
  if hour ≤ 23 ∧ minute ≤ 59 ∧ second ≤ 60 then
    some (⟨hour, minute, second, billionths fraction⟩, cs)
  else none

def Offset.read? : List Char → Option (Offset × List Char)
  | [] => none
  | 'Z' :: cs => some (.utc, cs)
  | 'z' :: cs => some (.utc, cs)
  | c :: cs =>
    if c = '+' ∨ c = '-' then do
      let (h, cs) ← digits? 2 cs
      let cs ← char? ':' cs
      let (m, cs) ← digits? 2 cs
      let total : Int := h * 60 + m
      if h ≤ 23 ∧ m ≤ 59 then some (.minutes (if c = '-' then -total else total), cs) else none
    else none

/-- The whole text as a date, a time, or both. A colon in the third place marks a lone time. -/
def Datetime.ofText? (cs : List Char) : Option Datetime := do
  if cs.length < 3 then none
  else if cs[2]? = some ':' then
    let (time, rest) ← Time.read? cs
    if rest.isEmpty then some ⟨none, some time, none⟩ else none
  else
    let (date, rest) ← Date.read? cs
    match rest with
    | [] => some ⟨some date, none, none⟩
    | c :: rest =>
      if c = 'T' ∨ c = 't' ∨ c = ' ' then
        let (time, rest) ← Time.read? rest
        if rest.isEmpty then some ⟨some date, some time, none⟩
        else
          let (offset, rest) ← Offset.read? rest
          if rest.isEmpty then some ⟨some date, some time, some offset⟩ else none
      else none

end Interview
