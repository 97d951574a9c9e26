import Stylesmith.Text.Basic

set_option autoImplicit false

namespace Stylesmith.Toml

structure Date where
  year : Nat
  month : Nat
  day : Nat
  deriving DecidableEq, Repr

structure Clock where
  hour : Nat
  minute : Nat
  second : Nat
  nanosecond : Nat
  deriving DecidableEq, Repr

inductive Offset where
  | universal
  | minutes (behind : Bool) (size : Nat)
  deriving DecidableEq, Repr

structure Moment where
  date : Option Date
  clock : Option Clock
  offset : Option Offset
  deriving DecidableEq, Repr

/-- The number with at least `width` digits. -/
def padded (width n : Nat) : Text :=
  let digits : Text := Nat.repr n
  List.replicate (width - digits.length) '0' ++ digits

def Date.text (d : Date) : Text :=
  padded 4 d.year ++ '-' :: padded 2 d.month ++ '-' :: padded 2 d.day

def Clock.text (c : Clock) : Text :=
  padded 2 c.hour ++ ':' :: padded 2 c.minute ++ ':' :: padded 2 c.second ++
    if c.nanosecond = 0 then []
    else '.' :: ((padded 9 c.nanosecond).reverse.dropWhile (· == '0')).reverse

def Offset.text : Offset → Text
  | universal => ['Z']
  | minutes behind size =>
    (if behind then '-' else '+') :: padded 2 (size / 60) ++ ':' :: padded 2 (size % 60)

def Moment.text (m : Moment) : Text :=
  let date := (m.date.map Date.text).getD []
  let clock := (m.clock.map Clock.text).getD []
  let mark : Text := if m.date.isSome ∧ m.clock.isSome then ['T'] else []
  date ++ mark ++ clock ++ (m.offset.map Offset.text).getD []

def daysIn (year month : Nat) : Nat :=
  if month = 2 then
    if year % 4 = 0 ∧ (year % 100 ≠ 0 ∨ year % 400 = 0) then 29 else 28
  else if month = 4 ∨ month = 6 ∨ month = 9 ∨ month = 11 then 30
  else 31

def readDigits (n : Nat) (t : Text) : Option (Nat × Text) :=
  let digits := t.take n
  if digits.length = n ∧ digits.all Char.isDigit then
    some (digits.foldl (fun value d => 10 * value + (d.toNat - 48)) 0, t.drop n)
  else none

def readMark (c : Char) : Text → Option Text
  | [] => none
  | d :: t => if d = c then some t else none

def Date.read (t : Text) : Option (Date × Text) := do
  let (year, t) ← readDigits 4 t
  let (month, t) ← readDigits 2 (← readMark '-' t)
  let (day, t) ← readDigits 2 (← readMark '-' t)
  guard (1 ≤ month ∧ month ≤ 12 ∧ 1 ≤ day ∧ day ≤ daysIn year month)
  some (⟨year, month, day⟩, t)

def readFraction (t : Text) : Nat × Text :=
  match t with
  | '.' :: rest =>
    let digits := rest.takeWhile Char.isDigit
    if digits.isEmpty then (0, t)
    else
      let nine := digits.take 9 ++ List.replicate (9 - digits.length) '0'
      (nine.foldl (fun value d => 10 * value + (d.toNat - 48)) 0, rest.dropWhile Char.isDigit)
  | _ => (0, t)

def Clock.read (t : Text) : Option (Clock × Text) := do
  let (hour, t) ← readDigits 2 t
  let (minute, t) ← readDigits 2 (← readMark ':' t)
  let (second, t) ← readDigits 2 (← readMark ':' t)
  guard (hour ≤ 23 ∧ minute ≤ 59 ∧ second ≤ 60)
  let (nanosecond, t) := readFraction t
  some (⟨hour, minute, second, nanosecond⟩, t)

def Offset.read (t : Text) : Option (Offset × Text) :=
  match t with
  | [] => none
  | c :: rest =>
    if c = 'Z' ∨ c = 'z' then some (.universal, rest)
    else if c = '+' ∨ c = '-' then do
      let (hour, rest) ← readDigits 2 rest
      let (minute, rest) ← readDigits 2 (← readMark ':' rest)
      guard (hour ≤ 23 ∧ minute ≤ 59)
      let size := 60 * hour + minute
      some (.minutes (c == '-' && size != 0) size, rest)
    else none

def Moment.readDated (t : Text) : Option (Moment × Text) := do
  let (date, t) ← Date.read t
  match t with
  | c :: rest =>
    if c = 'T' ∨ c = 't' ∨ c = ' ' then
      match Clock.read rest with
      | some (clock, rest) =>
        match Offset.read rest with
        | some (offset, rest) => some (⟨some date, some clock, some offset⟩, rest)
        | none => some (⟨some date, some clock, none⟩, rest)
      | none => some (⟨some date, none, none⟩, t)
    else some (⟨some date, none, none⟩, t)
  | [] => some (⟨some date, none, none⟩, t)

def Moment.read (t : Text) : Option (Moment × Text) :=
  match Moment.readDated t with
  | some r => some r
  | none => (Clock.read t).map fun (clock, rest) => (⟨none, some clock, none⟩, rest)

end Stylesmith.Toml
