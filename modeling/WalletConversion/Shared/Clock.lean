import WalletConversion.Foundation.DecimalNotation

/-!
# Dates

A `Date` is a number of milliseconds since the epoch within the range of ECMAScript. Its text is the
one of `toISOString`; the application shortens it by its milliseconds when they are zero.
-/

namespace WalletConversion

open DecimalNotation

/-- A valid date. -/
@[ext] structure Date where
  getTime : ℤ
  bounded : |getTime| ≤ 8640000000000000
  deriving DecidableEq

namespace Date

/-- `new Date(time)`, unless it is an invalid date. -/
def ofTime? (time : ℤ) : Option Date :=
  if h : |time| ≤ 8640000000000000 then some ⟨time, h⟩ else none

theorem getTime_of_ofTime? {time : ℤ} {d : Date} (h : ofTime? time = some d) :
    d.getTime = time := by
  unfold ofTime? at h
  split at h
  · cases h
    rfl
  · cases h

/-- The proleptic Gregorian year, month and day of a day counted from the epoch. -/
def civil (day : ℤ) : ℤ × ℕ × ℕ :=
  -- count from 1 March of year 0, in eras of 400 years
  let z := day + 719468
  let era := z / 146097
  let dayOfEra := (z % 146097).toNat
  let yearOfEra := (dayOfEra - dayOfEra / 1460 + dayOfEra / 36524 - dayOfEra / 146096) / 365
  let dayOfYear := dayOfEra - (365 * yearOfEra + yearOfEra / 4 - yearOfEra / 100)
  let m := (5 * dayOfYear + 2) / 153
  let month := if m < 10 then m + 3 else m - 9
  let year := yearOfEra + era * 400
  (if month ≤ 2 then year + 1 else year, month, dayOfYear - (153 * m + 2) / 5 + 1)

/-- A year has four digits, or a sign and six. -/
def yearText (year : ℤ) : List Char :=
  if 0 ≤ year ∧ year ≤ 9999 then paddedDigits 4 year.toNat
  else (if year < 0 then '-' else '+') :: paddedDigits 6 year.natAbs

/-- `date.toISOString()`. -/
def toISOString (date : Date) : String :=
  let (year, month, day) := civil (date.getTime / 86400000)
  let ms := (date.getTime % 86400000).toNat
  String.ofList <| yearText year ++ '-' :: paddedDigits 2 month ++ '-' :: paddedDigits 2 day ++
    'T' :: paddedDigits 2 (ms / 3600000) ++ ':' :: paddedDigits 2 (ms / 60000 % 60) ++
    ':' :: paddedDigits 2 (ms / 1000 % 60) ++ '.' :: paddedDigits 3 (ms % 1000) ++ ['Z']

/-- `date.toISOString().replace(/\.000Z$/, 'Z')`. -/
def timestampText (date : Date) : String :=
  let iso := date.toISOString.toList
  if [ '.', '0', '0', '0', 'Z'] <:+ iso then
    String.ofList (iso.take (iso.length - 5) ++ ['Z'])
  else String.ofList iso

example : (Date.mk 1785974400000 (by decide)).timestampText = "2026-08-06T00:00:00Z" := by decide

example : (Date.mk (-1) (by decide)).timestampText = "1969-12-31T23:59:59.999Z" := by decide

end Date

end WalletConversion
